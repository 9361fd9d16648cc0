import AbilityRuntime.DataObs.InnerExt

/-! When the reader's limit on the number of uris also holds for the notifications that go out, and
which infos come back from the wire as they were sent. -/

namespace AbilityRuntime.DataObs
open List
variable {Uri Obs Remote : Type} [LinearOrder Obs] [LinearOrder Remote]

variable {env : Env Uri Obs Remote} {regs : List (Registration Obs)}

omit [LinearOrder Remote] in
lemma wellFormed_copies {info : ChangeInfo Uri} (h : info.WellFormed env.toUriApi)
    (regs : List (Registration Obs)) (o : Obs) :
    { info with uris := copies env regs info.uris o : ChangeInfo Uri }.WellFormed env.toUriApi :=
  { h with
    uri := fun uri hu => by
      obtain ⟨uri', hmem, hrep⟩ := mem_flatMap.mp hu
      rw [eq_of_mem_replicate hrep]
      exact h.uri uri' hmem }

lemma exists_call_not_accepted {api : ParcelApi} {s : InnerExt Obs Remote}
    {info : ChangeInfo Uri} (hrep : Represents env s regs) (hwell : info.WellFormed env.toUriApi)
    {o : Obs} (hmany : listMaxCount < (copies env regs info.uris o).length) :
    ∃ call ∈ (handleNotifyChange env s info).2, ¬ Accepted env.toUriApi api call.2 := by
  have hne : copies env regs info.uris o ≠ [] := ne_nil_of_length_pos (Nat.zero_lt_of_lt hmany)
  refine ⟨_, (mem_calls_iff hrep).mpr ⟨o, hne, rfl⟩, fun hacc => ?_⟩
  exact absurd ((accepted_iff (wellFormed_copies hwell regs o)).mp hacc) (not_le.mpr hmany)

variable (env)

theorem notifications_accepted_iff (api : ParcelApi) (ops : List (ExtOp Uri Obs Remote))
    (info : ChangeInfo Uri) (p p' : List Item)
    (h : unmarshalling env.toUriApi api p = some (info, p')) :
    (∀ call ∈ (handleNotifyChange env (extRun env ops) info).2, Accepted env.toUriApi api call.2) ↔
      ∀ o, (copies env (flatRun env ops) info.uris o).length ≤ listMaxCount := by
  have hrep := represents_run env ops
  have hwell := (unmarshalling_wellFormed h).1
  constructor
  · intro hall o
    by_contra hmany
    obtain ⟨call, hcall, hnot⟩ := exists_call_not_accepted hrep hwell (not_le.mp hmany)
    exact hnot (hall call hcall)
  · intro hfew call hcall
    obtain ⟨o, -, rfl⟩ := (mem_calls_iff hrep).mp hcall
    exact (accepted_iff (wellFormed_copies hwell _ o)).mpr (hfew o)

def plainEnv : Env String Nat Nat where
  ofString := id
  toString := id
  getScheme := fun _ => "datashare"
  getAuthority := fun _ => ""
  getPathSegments := fun uri => [uri]
  ofString_toString := id_eq
  asObject := some

def wordApi : ParcelApi := ⟨fun _ => 4, fun _ => by decide, fun _ => by decide⟩

def repeated (n : Nat) : ChangeInfo String := ⟨0, List.replicate n "a", none, 0, []⟩

lemma wellFormed_repeated (n : Nat) : (repeated n).WellFormed plainEnv.toUriApi where
  uri := fun uri hu => by
    rw [eq_of_mem_replicate hu]
    decide
  data := .inl ⟨rfl, rfl⟩
  buckets := Nat.zero_le _
  bucket := nofun

omit [LinearOrder Remote] in
lemma length_copies_replicate (regs : List (Registration Obs))
    (uri : Uri) (o : Obs) (n : Nat) : (copies env regs (List.replicate n uri) o).length =
      n * regs.countP fun reg => reg.observer = o && reg.reaches (env.path uri) := by
  rw [copies, length_flatMap, map_replicate, sum_replicate_nat, length_replicate]

lemma length_repeated (n : Nat) : (repeated n).uris.length = n := length_replicate

theorem notifications_accepted_once :
    (handleNotifyChange plainEnv (extRun plainEnv [.registerObserver "a" 1 false])
      (repeated 3000)).2 ≠ [] ∧
    ∀ call ∈ (handleNotifyChange plainEnv (extRun plainEnv [.registerObserver "a" 1 false])
      (repeated 3000)).2, Accepted plainEnv.toUriApi wordApi call.2 := by
  have hrep := represents_run plainEnv [.registerObserver "a" 1 false]
  obtain ⟨items, -, hread⟩ :=
    unmarshalling_marshalling (wellFormed_repeated 3000) (length_repeated 3000).le wordApi
  refine ⟨ne_nil_of_mem ((mem_calls_iff hrep).mpr ⟨1, ?_, rfl⟩), ?_⟩
  · rw [← length_pos_iff, repeated, length_copies_replicate]
    decide
  · refine (notifications_accepted_iff plainEnv wordApi [.registerObserver "a" 1 false]
      (repeated 3000) _ _ (hread [])).mpr fun o => ?_
    rw [repeated, length_copies_replicate]
    exact Nat.mul_le_mul_left 3000 countP_le_length

theorem notification_lost :
    ¬ ∀ (ops : List (ExtOp String Nat Nat)) (info : ChangeInfo String) (p p' : List Item),
      unmarshalling plainEnv.toUriApi wordApi p = some (info, p') →
      ∀ call ∈ (handleNotifyChange plainEnv (extRun plainEnv ops) info).2,
        Accepted plainEnv.toUriApi wordApi call.2 := by
  intro h
  have hshort : (repeated 1501).uris.length ≤ listMaxCount := by
    rw [length_repeated]
    decide
  obtain ⟨items, -, hread⟩ := unmarshalling_marshalling (wellFormed_repeated 1501) hshort wordApi
  have hall := h [.registerObserver "a" 1 false, .registerObserver "a" 1 false]
    (repeated 1501) _ _ (hread [])
  have hrep := represents_run plainEnv [.registerObserver "a" 1 false,
    .registerObserver "a" 1 false]
  have hmany : listMaxCount < (copies plainEnv
      (flatRun plainEnv [.registerObserver "a" 1 false, .registerObserver "a" 1 false])
      (repeated 1501).uris 1).length := by
    rw [repeated, length_copies_replicate]
    decide
  obtain ⟨call, hcall, hnot⟩ := exists_call_not_accepted hrep (wellFormed_repeated 1501) hmany
  exact hnot (hall call hcall)

def received (info : ChangeInfo Uri) : ChangeInfo Uri :=
  { info with data := info.data.filter (!·.isEmpty) }

def RoundTrips (uriApi : UriApi Uri) (api : ParcelApi) (info : ChangeInfo Uri) : Prop :=
  ∃ items, marshalling uriApi info = some items ∧
    ∀ rest, unmarshalling uriApi api (items ++ rest) = some (received info, rest)

section RoundTrip
variable {uriApi : UriApi Uri} {api : ParcelApi} {info : ChangeInfo Uri}

lemma RoundTrips.sizes (h : RoundTrips uriApi api info) :
    info.valueBuckets.length ≤ intMax ∧ ∀ b ∈ info.valueBuckets, b.size ≤ intMax := by
  obtain ⟨items, -, hread⟩ := h
  have hwell := (unmarshalling_wellFormed (hread [])).1
  exact ⟨hwell.buckets, hwell.bucket⟩

theorem roundTrips_iff (hlen : info.uris.length ≤ listMaxCount)
    (huri : ∀ uri ∈ info.uris, uriApi.toString uri ≠ "")
    (hdata : (info.data.getD []).length = info.size.toNat) :
    RoundTrips uriApi api info ↔
      info.valueBuckets.length ≤ intMax ∧ ∀ b ∈ info.valueBuckets, b.size ≤ intMax := by
  refine ⟨RoundTrips.sizes, fun ⟨hbuckets, hbucket⟩ => ?_⟩
  by_cases hzero : info.size = 0
  · have hnone : (received info).data = none := by
      cases hd : info.data <;> simp_all [received]
    have hw : (received info).WellFormed uriApi := ⟨huri, .inl ⟨hnone, hzero⟩, hbuckets, hbucket⟩
    obtain ⟨items, hm, hread⟩ := unmarshalling_marshalling hw hlen api
    refine ⟨items, ?_, hread⟩
    rw [← hm]
    simp [marshalling, received, hzero]
  · have hpos : info.size.toNat ≠ 0 := fun h => hzero (UInt32.toNat_inj.mp h)
    cases hd : info.data with
    | none => exact absurd hdata.symm (by simpa [hd] using hpos)
    | some v =>
      rw [hd, Option.getD_some] at hdata
      have hne : v ≠ [] := ne_nil_of_length_pos (by omega)
      have hkeep : info.data.filter (!·.isEmpty) = info.data := by simp [hd, hne]
      have hsame : received info = info := by rw [received, hkeep]
      rw [RoundTrips, hsame]
      exact unmarshalling_marshalling ⟨huri, .inr ⟨v, hd, hdata, hzero⟩, hbuckets, hbucket⟩ hlen api

theorem roundTrips_three :
    RoundTrips plainEnv.toUriApi wordApi ⟨2, ["a", "b"], some [1, 2, 3], 3, [.empty, .empty]⟩ :=
  (roundTrips_iff (by decide) (by decide) rfl).mpr (by decide)

theorem large_not_roundTrips : ∃ bucket : VBucket,
    (marshalling plainEnv.toUriApi ⟨0, [], none, 0, [bucket]⟩).isSome ∧
    ¬ RoundTrips plainEnv.toUriApi wordApi ⟨0, [], none, 0, [bucket]⟩ := by
  obtain ⟨bucket, hsize, -⟩ := SortedMap.exists_size_eq (fun _ : String => Value.monostate) (2 ^ 31)
  refine ⟨bucket, rfl, fun h => ?_⟩
  exact absurd (h.sizes.2 bucket mem_cons_self) (by rw [hsize]; decide)

end RoundTrip

end AbilityRuntime.DataObs
