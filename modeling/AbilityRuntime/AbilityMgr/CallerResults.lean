import Mathlib.Data.String.Basic
import AbilityRuntime.Library.SortedMap

/-! Results of abilities that were started for a result. The target keeps one record for each
caller, an ability or a mission of another device; when it terminates, a result is stored with every
caller and then sent to it. -/

namespace AbilityRuntime
open List SortedMap

inductive WantParam
  | string (value : String)
  | int (value : ℤ)

abbrev ResultWant := SortedMap String WantParam

structure AbilityResult where
  requestCode : ℤ
  resultCode : ℤ
  resultWant : ResultWant

structure CallerAbility where
  applicationName : String
  hasScheduler : Bool
  result : Option AbilityResult

inductive Caller
  | ability (token : ℕ)
  | systemAbility (srcAbilityId : String) (callerToken : ℕ)
  deriving DecidableEq

inductive CallerKey
  | ability (token : ℕ)
  | systemAbility (srcAbilityId : String)
  deriving DecidableEq

def Caller.key : Caller → CallerKey
  | .ability token => .ability token
  | .systemAbility srcAbilityId _ => .systemAbility srcAbilityId

structure CallerRecord where
  requestCode : ℤ
  caller : Caller
  requestCodeList : List ℤ
  saResultCode : ℤ
  saResultWant : ResultWant

def CallerRecord.addHistoryRequestCode (requestCodeList : List ℤ) (requestCode : ℤ) : List ℤ :=
  if requestCode ∈ requestCodeList then requestCodeList else requestCodeList ++ [requestCode]

open CallerRecord

def CallerRecord.request (c : CallerRecord) : Caller × ℤ := (c.caller, c.requestCode)

structure SentResult where
  receiver : Caller
  requestCode : ℤ
  resultCode : ℤ
  resultWant : ResultWant

def SentResult.request (x : SentResult) : Caller × ℤ := (x.receiver, x.requestCode)

structure ResultTarget where
  applicationName : String
  accessTokenId : ℤ
  shellAssistantBundleName : String
  abilities : SortedMap ℕ CallerAbility
  nextToken : ℕ
  callerList : List CallerRecord
  recorded : List (Caller × ℤ)

namespace ResultTarget

def sendResultCanceled : ℤ := -1

def dmsMissionId : String := "dmsMissionId"
def dmsSrcNetworkId : String := "dmsSrcNetworkId"
def paramSendResultCallerBundleName : String := "ohos.anco.param.sendResultCallderBundleName"
def paramSendResultCallerTokenId : String := "ohos.anco.param.sendResultCallerTokenId"

variable (t : ResultTarget)

def replaceCaller (c : CallerRecord) : ResultTarget :=
  { t with
    callerList := t.callerList.eraseP (fun d => d.caller.key = c.caller.key) ++ [c]
    recorded := t.recorded ++ [c.request] }

def addSystemAbilityCallerRecord (callerToken : ℕ) (requestCode : ℤ)
    (srcAbilityId : String) : ResultTarget :=
  t.replaceCaller ⟨requestCode, .systemAbility srcAbilityId callerToken, [], -1, .empty⟩

def isSystemAbilityCall (callerToken : ℕ) (isNativeDms : Bool) : Bool :=
  (t.abilities.find? callerToken).isNone && isNativeDms

def addCallerRecord (callerToken : ℕ) (requestCode : ℤ) (srcAbilityId : String)
    (isNativeDms : Bool) : ResultTarget :=
  if srcAbilityId ≠ "" ∧ t.isSystemAbilityCall callerToken isNativeDms = true then
    t.addSystemAbilityCallerRecord callerToken requestCode srcAbilityId
  else
    match t.abilities.find? callerToken with
    | none => t
    | some _ =>
      let history := match t.callerList.find? (fun d => d.caller = .ability callerToken) with
        | none => []
        | some record => record.requestCodeList
      t.replaceCaller ⟨requestCode, .ability callerToken,
        addHistoryRequestCode history requestCode, -1, .empty⟩

inductive ResultOp
  | addCallerRecord (callerToken : ℕ) (requestCode : ℤ) (srcAbilityId : String)
      (isNativeDms : Bool)
  | createAbility (a : CallerAbility)
  | updateAbility (token : ℕ) (a : CallerAbility)
  | destroyAbility (token : ℕ)

def init (applicationName : String) (accessTokenId : ℤ) (shellAssistantBundleName : String) :
    ResultTarget :=
  ⟨applicationName, accessTokenId, shellAssistantBundleName, .empty, 0, [], []⟩

def step : ResultOp → ResultTarget
  | .addCallerRecord callerToken requestCode srcAbilityId isNativeDms =>
    t.addCallerRecord callerToken requestCode srcAbilityId isNativeDms
  | .createAbility a =>
    { t with abilities := t.abilities.assign t.nextToken a, nextToken := t.nextToken + 1 }
  | .updateAbility token a => { t with abilities := t.abilities.modify token fun _ => a }
  | .destroyAbility token => { t with abilities := t.abilities.erase token }

section Termination
variable (splitStr : String → List String) (atoi : String → ℤ)

/-- The want is the one the target has given; what is set in it for one caller stays for
the callers after it. -/
def saveResult (t : ResultTarget) (resultCode : ℤ) (c : CallerRecord)
    (abilities : SortedMap ℕ CallerAbility) (resultWant : ResultWant) :
    SortedMap ℕ CallerAbility × ResultWant × CallerRecord :=
  match c.caller with
  | .ability token =>
    match abilities.find? token with
    | none => (abilities, resultWant, c)
    | some a =>
      let newWant :=
        if a.applicationName = t.shellAssistantBundleName then
          (resultWant.assign paramSendResultCallerBundleName (.string t.applicationName)).assign
            paramSendResultCallerTokenId (.int t.accessTokenId)
        else resultWant
      let result := some ⟨c.requestCode, resultCode, newWant⟩
      (abilities.modify token fun a => { a with result := result }, newWant, c)
  | .systemAbility srcAbilityId _ =>
    match splitStr srcAbilityId with
    | [srcDeviceId, missionId] =>
      let newWant := (resultWant.assign dmsSrcNetworkId (.string srcDeviceId)).assign
        dmsMissionId (.int (atoi missionId))
      (abilities, newWant, { c with saResultCode := resultCode, saResultWant := newWant })
    | _ => (abilities, resultWant, c)

/-- The loop of `SaveResultToCallers`, over the callers that are left; the record that
equals `latestCaller` is the last one. -/
def saveResultToCallers (t : ResultTarget) (resultCode : ℤ) : List CallerRecord →
    SortedMap ℕ CallerAbility → ResultWant → SortedMap ℕ CallerAbility × List CallerRecord
  | [], abilities, _ => (abilities, [])
  | c :: rest, abilities, resultWant =>
    let code := if rest = [] then resultCode else sendResultCanceled
    let saved := t.saveResult splitStr atoi code c abilities resultWant
    let savedRest := saveResultToCallers t resultCode rest saved.1 saved.2.1
    (savedRest.1, saved.2.2 :: savedRest.2)

/-- `SendResult` of the caller: the result is reset once it is sent. -/
def sendResult (a : CallerAbility) : CallerAbility × Option AbilityResult :=
  if a.hasScheduler then ({ a with result := none }, a.result) else (a, none)

def sendResultToCallers : List CallerRecord → SortedMap ℕ CallerAbility → List SentResult
  | [], _ => []
  | c :: rest, abilities =>
    match c.caller with
    | .ability token =>
      match abilities.find? token with
      | none => sendResultToCallers rest abilities
      | some a =>
        let sent := match (sendResult a).2 with
          | none => []
          | some r => [⟨c.caller, r.requestCode, r.resultCode, r.resultWant⟩]
        sent ++ sendResultToCallers rest (abilities.modify token fun a => (sendResult a).1)
    | .systemAbility .. =>
      ⟨c.caller, c.requestCode, c.saResultCode, c.saResultWant⟩ ::
        sendResultToCallers rest abilities

def terminate (t : ResultTarget) (resultCode : ℤ) (resultWant : ResultWant) : List SentResult :=
  let saved := t.saveResultToCallers splitStr atoi resultCode t.callerList t.abilities resultWant
  sendResultToCallers saved.2 saved.1

variable (abilities : SortedMap ℕ CallerAbility)

def waiting (c : CallerRecord) : Option SentResult :=
  match c.caller with
  | .ability token => (abilities.find? token).bind fun a =>
      (sendResult a).2.map fun r => ⟨c.caller, r.requestCode, r.resultCode, r.resultWant⟩
  | .systemAbility .. => some ⟨c.caller, c.requestCode, c.saResultCode, c.saResultWant⟩

/-- A caller can be sent its result: an ability that is attached, or a mission, the latest caller
only if its identification has two parts. -/
def reaches (latest : Bool) : Caller → Bool
  | .ability token => (abilities.find? token).any (·.hasScheduler)
  | .systemAbility srcAbilityId _ => !latest || (splitStr srcAbilityId).length = 2

def isServiceParam (name : String) : Bool :=
  name ∈ [dmsMissionId, dmsSrcNetworkId, paramSendResultCallerBundleName,
    paramSendResultCallerTokenId]

def SameWant (want want' : ResultWant) : Prop :=
  ∀ name, isServiceParam name = false → want'.find? name = want.find? name

lemma waiting_congr {ab ab' : SortedMap ℕ CallerAbility} {c : CallerRecord}
    (h : ∀ token, c.caller.key = .ability token → ab'.find? token = ab.find? token) :
    waiting ab' c = waiting ab c := by
  unfold waiting
  cases hc : c.caller with
  | ability token =>
    dsimp only
    rw [h token (by rw [hc]; rfl)]
  | systemAbility src tok => rfl

variable {cs : List CallerRecord}

lemma sendResultToCallers_eq (hn : (cs.map (·.caller.key)).Nodup) (ab : SortedMap ℕ CallerAbility) :
    sendResultToCallers cs ab = cs.filterMap (waiting ab) := by
  induction cs generalizing ab with
  | nil => rfl
  | cons c rest ih =>
    rw [map_cons, nodup_cons] at hn
    unfold sendResultToCallers
    rw [filterMap_cons]
    cases hc : c.caller with
    | systemAbility src tok =>
      have hw : waiting ab c = some ⟨c.caller, c.requestCode, c.saResultCode, c.saResultWant⟩ := by
        simp [waiting, hc]
      rw [hw, hc]
      exact congrArg _ (ih hn.2 ab)
    | ability token =>
      dsimp only
      cases ha : ab.find? token with
      | none =>
        have hw : waiting ab c = none := by simp [waiting, hc, ha]
        rw [hw]
        exact ih hn.2 ab
      | some a =>
        have hrest : rest.filterMap (waiting (ab.modify token fun a => (sendResult a).1)) =
            rest.filterMap (waiting ab) := by
          refine filterMap_congr fun d hd => waiting_congr fun token' hkey => ?_
          rw [find?_modify, if_neg]
          rintro rfl
          refine hn.1 (mem_map.mpr ⟨d, hd, ?_⟩)
          rw [hkey, hc]
          rfl
        have hw : waiting ab c = (sendResult a).2.map fun r =>
            { r with receiver := c.caller } := by
          simp [waiting, hc, ha]
        dsimp only
        rw [ih hn.2, hrest, hw, hc]
        cases (sendResult a).2 <;> rfl

lemma SameWant.refl (want : ResultWant) : SameWant want want := fun _ _ => rfl

variable {want : ResultWant}

lemma SameWant.assign {want' : ResultWant} (h : SameWant want want') (name : String)
    (value : WantParam) (hn : isServiceParam name = true) :
    SameWant want (want'.assign name value) := by
  intro name' hn'
  rw [find?_assign, if_neg]
  · exact h name' hn'
  · rintro rfl
    exact Bool.false_ne_true (hn'.symm.trans hn)

structure Saved (latest : Bool) (want : ResultWant) (code : ℤ) (c : CallerRecord)
    (ab : SortedMap ℕ CallerAbility)
    (saved : SortedMap ℕ CallerAbility × ResultWant × CallerRecord) : Prop where
  caller : saved.2.2.caller = c.caller
  waits : ∃ w, (latest = true → SameWant want w) ∧
    waiting saved.1 saved.2.2 = some ⟨c.caller, c.requestCode, code, w⟩
  want : SameWant want saved.2.1
  others : ∀ token, c.caller.key ≠ .ability token → saved.1.find? token = ab.find? token
  schedulers : ∀ b caller, reaches splitStr saved.1 b caller = reaches splitStr ab b caller

variable {splitStr} in
lemma saveResult_saved (t : ResultTarget) {w : ResultWant} (hw : SameWant want w) (code : ℤ)
    {c : CallerRecord} {ab : SortedMap ℕ CallerAbility} {latest : Bool}
    (hr : reaches splitStr ab latest c.caller = true)
    (hcode : latest = false → c.saResultCode = code) :
    Saved splitStr latest want code c ab (t.saveResult splitStr atoi code c ab w) := by
  obtain ⟨requestCode, caller, history, saCode, saWant⟩ := c
  unfold saveResult
  cases caller with
  | ability token =>
    simp only [reaches, Option.any_eq_true] at hr
    obtain ⟨a, ha, hs⟩ := hr
    dsimp only
    rw [ha]
    dsimp only
    generalize hnew : (if a.applicationName = t.shellAssistantBundleName then _ else w) = newWant
    have hwant : SameWant want newWant := by
      rw [← hnew]
      split
      · exact (hw.assign _ _ (by decide)).assign _ _ (by decide)
      · exact hw
    refine ⟨rfl, ⟨newWant, fun _ => hwant, ?_⟩, hwant, fun token' hne => ?_, fun b other => ?_⟩
    · simp only [waiting, find?_modify, if_true, ha, Option.map_some, Option.bind_some,
        sendResult, hs]
    · rw [find?_modify, if_neg fun heq => hne (by rw [heq]; rfl)]
    · cases other with
      | systemAbility => rfl
      | ability token' =>
        simp only [reaches, find?_modify]
        split
        · cases ab.find? token' <;> rfl
        · rfl
  | systemAbility src tok =>
    dsimp only
    split
    · rename_i dev mission hsplit
      have hwant := (hw.assign dmsSrcNetworkId (.string dev) (by decide)).assign dmsMissionId
        (.int (atoi mission)) (by decide)
      exact ⟨rfl, ⟨_, fun _ => hwant, rfl⟩, hwant, fun _ _ => rfl, fun _ _ => rfl⟩
    · -- the record keeps the code it was made with
      rename_i hparts
      have hearlier : latest = false := by
        refine Bool.eq_false_iff.mpr fun hlatest => ?_
        rw [reaches, hlatest, Bool.not_true, Bool.false_or, decide_eq_true_eq] at hr
        obtain ⟨dev, mission, hsplit⟩ := length_eq_two.mp hr
        exact hparts dev mission hsplit
      refine ⟨rfl, ⟨saWant, fun hlatest => ?_, ?_⟩, hw, fun _ _ => rfl, fun _ _ => rfl⟩
      · exact absurd hlatest (by simp [hearlier])
      · rw [← hcode hearlier]
        rfl

inductive Delivered (resultCode : ℤ) (want : ResultWant) :
    List CallerRecord → List SentResult → Prop
  | nil : Delivered resultCode want [] []
  | cons {c : CallerRecord} {rest : List CallerRecord} {w : ResultWant} {xs : List SentResult}
      (hw : rest = [] → SameWant want w) (hrest : Delivered resultCode want rest xs) :
      Delivered resultCode want (c :: rest)
        (⟨c.caller, c.requestCode, if rest = [] then resultCode else sendResultCanceled, w⟩ :: xs)

variable {splitStr} in
lemma saveResultToCallers_delivered (t : ResultTarget) (resultCode : ℤ)
    (hn : (cs.map (·.caller.key)).Nodup) {ab : SortedMap ℕ CallerAbility}
    (hcode : ∀ c ∈ cs, c.saResultCode = sendResultCanceled)
    (hr : ∀ c ∈ cs, reaches splitStr ab ((cs.map request).getLast? = some c.request)
      c.caller = true)
    {w : ResultWant} (hw : SameWant want w) :
    let saved := t.saveResultToCallers splitStr atoi resultCode cs ab w
    Delivered resultCode want cs (saved.2.filterMap (waiting saved.1)) ∧
      saved.2.map (·.caller.key) = cs.map (·.caller.key) ∧
      ∀ token, .ability token ∉ cs.map (·.caller.key) → saved.1.find? token = ab.find? token := by
  induction cs generalizing ab w with
  | nil => exact ⟨.nil, rfl, fun _ _ => rfl⟩
  | cons c rest ih =>
    rw [map_cons, nodup_cons] at hn
    unfold saveResultToCallers
    dsimp only
    generalize hsent : (if rest = [] then resultCode else sendResultCanceled) = code
    have hlast {d : CallerRecord} (hd : d ∈ rest) :
        ((c :: rest).map request).getLast? = (rest.map request).getLast? := by
      obtain ⟨e, rest', rfl⟩ := exists_cons_of_ne_nil (ne_nil_of_mem hd)
      exact getLast?_cons_cons
    have hs := saveResult_saved atoi t hw code (hr c mem_cons_self) fun hearlier => by
      have hne : rest ≠ [] := by
        rintro rfl
        simp at hearlier
      rw [← hsent, if_neg hne]
      exact hcode c mem_cons_self
    generalize t.saveResult splitStr atoi code c ab w = saved at hs
    have hreach : ∀ d ∈ rest, reaches splitStr saved.1
        ((rest.map request).getLast? = some d.request) d.caller = true :=
      fun d hd => (hs.schedulers _ d.caller).trans (hlast hd ▸ hr d (mem_cons_of_mem _ hd))
    obtain ⟨hdel, hkeys, hother⟩ := ih hn.2 (fun d hd => hcode d (mem_cons_of_mem _ hd)) hreach
      hs.want
    generalize t.saveResultToCallers splitStr atoi resultCode rest saved.1 saved.2.1 = last at *
    obtain ⟨w', hw', hwait⟩ := hs.waits
    -- the callers after this one have other keys, so its result still waits
    have hkept : waiting last.1 saved.2.2 = waiting saved.1 saved.2.2 := by
      refine waiting_congr fun token hkey => hother token ?_
      rw [← hkey, hs.caller]
      exact hn.1
    refine ⟨?_, ?_, fun token hout => ?_⟩
    · rw [filterMap_cons_some (hkept.trans hwait), ← hsent]
      refine .cons (fun hnil => hw' ?_) hdel
      simp [hnil]
    · rw [map_cons, map_cons, hkeys, hs.caller]
    · rw [map_cons, mem_cons, not_or] at hout
      exact (hother token hout.2).trans (hs.others token (.symm hout.1))

lemma Delivered.requests {resultCode : ℤ} {xs : List SentResult}
    (h : Delivered resultCode want cs xs) :
    xs.map SentResult.request = cs.map request := by
  induction h with
  | nil => rfl
  | cons hw _ ih => exact congrArg _ ih

lemma Delivered.code {resultCode : ℤ} {xs : List SentResult}
    (h : Delivered resultCode want cs xs) (hn : (cs.map request).Nodup)
    {x : SentResult} (hx : x ∈ xs) :
    if (cs.map request).getLast? = some x.request then
      x.resultCode = resultCode ∧ SameWant want x.resultWant
    else x.resultCode = sendResultCanceled := by
  induction h with
  | nil => cases hx
  | @cons c rest w xs hw hrest ih =>
    rw [map_cons, nodup_cons] at hn
    rcases mem_cons.mp hx with heq | hmem
    · subst heq
      cases rest with
      | nil => exact (if_pos rfl).mpr ⟨rfl, hw rfl⟩
      | cons d rest =>
        refine (if_neg fun hlast => hn.1 ?_).mpr rfl
        exact mem_of_getLast? hlast
    · have hne : rest ≠ [] := by
        rintro rfl
        cases hrest
        exact not_mem_nil hmem
      obtain ⟨d, rest', rfl⟩ := exists_cons_of_ne_nil hne
      rw [map_cons, map_cons, getLast?_cons_cons]
      exact ih hn.2 hmem

end Termination

lemma eraseP_key {K : Type*} [DecidableEq K] (f : CallerRecord → K) (k : K)
    {cs : List CallerRecord} (hn : (cs.map f).Nodup) :
    cs.eraseP (fun d => f d = k) = cs.filter fun d => f d ≠ k := by
  induction cs with
  | nil => rfl
  | cons c rest ih =>
    rw [map_cons, nodup_cons] at hn
    by_cases hc : f c = k
    · have hrest : rest.filter (fun d => f d ≠ k) = rest := by
        refine filter_eq_self.mpr fun d hd => decide_eq_true fun hd' => ?_
        exact hn.1 (mem_map.mpr ⟨d, hd, hd'.trans hc.symm⟩)
      rw [eraseP_cons_of_pos (by simpa using hc), filter_cons_of_neg (by simpa using hc), hrest]
    · rw [eraseP_cons_of_neg (by simpa using hc), filter_cons_of_pos (by simpa using hc), ih hn.2]

structure Recorded (t : ResultTarget) : Prop where
  nodup : (t.callerList.map (·.caller.key)).Nodup
  made : ∀ c ∈ t.callerList, c.request ∈ t.recorded
  covers : ∀ p ∈ t.recorded, ∃ c ∈ t.callerList, c.caller.key = p.1.key
  last : (t.callerList.map request).getLast? = t.recorded.getLast?
  canceled : ∀ c ∈ t.callerList, c.saResultCode = sendResultCanceled

protected lemma Recorded.replaceCaller {t : ResultTarget} (h : t.Recorded) {c : CallerRecord}
    (hcode : c.saResultCode = sendResultCanceled) : (t.replaceCaller c).Recorded := by
  have hlist : (t.replaceCaller c).callerList =
      (t.callerList.filter fun d => d.caller.key ≠ c.caller.key) ++ [c] := by
    unfold replaceCaller
    rw [eraseP_key (·.caller.key) c.caller.key h.nodup]
  refine ⟨?_, fun d hd => ?_, fun p hp => ?_, ?_, fun d hd => ?_⟩
  · rw [hlist, map_append, nodup_append]
    refine ⟨(filter_sublist.map _).nodup h.nodup, nodup_singleton _, ?_⟩
    intro k hk k' hk'
    obtain ⟨d, hd, rfl⟩ := mem_map.mp hk
    obtain rfl := mem_singleton.mp hk'
    exact of_decide_eq_true (mem_filter.mp hd).2
  · rw [hlist] at hd
    rcases mem_append.mp hd with hd | hd
    · exact mem_append_left _ (h.made d (mem_filter.mp hd).1)
    · obtain rfl := mem_singleton.mp hd
      exact mem_append_right _ mem_cons_self
  · rw [hlist]
    by_cases hkey : p.1.key = c.caller.key
    · exact ⟨c, mem_append_right _ mem_cons_self, hkey.symm⟩
    · rcases mem_append.mp hp with hp | hp
      · obtain ⟨d, hd, hdp⟩ := h.covers p hp
        refine ⟨d, mem_append_left _ (mem_filter.mpr ⟨hd, ?_⟩), hdp⟩
        exact decide_eq_true fun heq => hkey (hdp.symm.trans heq)
      · obtain rfl := mem_singleton.mp hp
        exact absurd rfl hkey
  · rw [hlist, map_append, map_singleton, getLast?_concat]
    exact (getLast?_concat ..).symm
  · rw [hlist] at hd
    rcases mem_append.mp hd with hd | hd
    · exact h.canceled d (mem_filter.mp hd).1
    · exact mem_singleton.mp hd ▸ hcode

protected lemma Recorded.step {t : ResultTarget} (h : t.Recorded) (o : ResultOp) :
    (t.step o).Recorded := by
  cases o with
  | addCallerRecord callerToken requestCode srcAbilityId isNativeDms =>
    simp only [step, addCallerRecord]
    split
    · exact h.replaceCaller rfl
    · split
      · exact h
      · exact h.replaceCaller rfl
  | createAbility a => exact { h with }
  | updateAbility token a => exact { h with }
  | destroyAbility token => exact { h with }

lemma recorded_foldl (applicationName : String) (accessTokenId : ℤ) (shell : String)
    (ops : List ResultOp) : (ops.foldl step (init applicationName accessTokenId shell)).Recorded :=
  foldlRecOn ops step ⟨nodup_nil, nofun, nofun, rfl, nofun⟩ fun _ ht o _ => ht.step o

section Answers
variable (splitStr : String → List String) (atoi : String → ℤ)

def AnsweredOnce (t : ResultTarget) (resultCode : ℤ) (want : ResultWant) : Prop :=
  ∀ p ∈ t.recorded, ∃ x,
    (t.terminate splitStr atoi resultCode want).filter (fun x => x.request = p) = [x] ∧
      if t.recorded.getLast? = some p then x.resultCode = resultCode ∧ SameWant want x.resultWant
      else x.resultCode = sendResultCanceled

def OneEach (t : ResultTarget) : Prop :=
  ∀ p ∈ t.recorded, ∀ q ∈ t.recorded, p.1.key = q.1.key → p = q

lemma filter_request {xs : List SentResult} (hn : (xs.map SentResult.request).Nodup)
    {x : SentResult} (hx : x ∈ xs) : xs.filter (fun y => y.request = x.request) = [x] := by
  induction xs with
  | nil => cases hx
  | cons y rest ih =>
    rw [map_cons, nodup_cons] at hn
    rcases mem_cons.mp hx with rfl | hx
    · rw [filter_cons_of_pos (by simp), filter_eq_nil_iff.mpr]
      intro z hz hzx
      exact hn.1 (mem_map.mpr ⟨z, hz, of_decide_eq_true hzx⟩)
    · rw [filter_cons_of_neg, ih hn.2 hx]
      intro hyx
      exact hn.1 (mem_map.mpr ⟨x, hx, (of_decide_eq_true hyx).symm⟩)

lemma Recorded.nodup_request {t : ResultTarget} (h : t.Recorded) :
    (t.callerList.map request).Nodup := by
  refine .of_map (fun p : Caller × ℤ => p.1.key) ?_
  rw [map_map]
  exact h.nodup

lemma Recorded.answered_iff {t : ResultTarget} (h : t.Recorded) (resultCode : ℤ)
    (want : ResultWant) (hr : ∀ p ∈ t.recorded,
      reaches splitStr t.abilities (t.recorded.getLast? = some p) p.1 = true) :
    t.AnsweredOnce splitStr atoi resultCode want ↔ t.OneEach := by
  obtain ⟨hdel, hkeys, -⟩ := saveResultToCallers_delivered atoi t resultCode h.nodup h.canceled
    (fun c hc => h.last ▸ hr _ (h.made c hc)) (.refl want)
  rw [← sendResultToCallers_eq (by rw [hkeys]; exact h.nodup)] at hdel
  generalize hxs : t.terminate splitStr atoi resultCode want = xs
  replace hdel : Delivered resultCode want t.callerList xs := hxs ▸ hdel
  have hreq := hdel.requests
  unfold AnsweredOnce OneEach
  rw [hxs]
  constructor
  · intro hans p hp q hq hkey
    have hrecord (p : Caller × ℤ) (hp : p ∈ t.recorded) : ∃ c ∈ t.callerList, c.request = p := by
      obtain ⟨x, hx, -⟩ := hans p hp
      have hmem : x ∈ xs.filter fun x => x.request = p := hx ▸ mem_cons_self
      obtain ⟨hmem, heq⟩ := mem_filter.mp hmem
      have hin : x.request ∈ t.callerList.map request := hreq ▸ mem_map.mpr ⟨x, hmem, rfl⟩
      rw [of_decide_eq_true heq] at hin
      exact mem_map.mp hin
    obtain ⟨c, hc, rfl⟩ := hrecord p hp
    obtain ⟨d, hd, rfl⟩ := hrecord q hq
    rw [inj_on_of_nodup_map h.nodup hc hd hkey]
  · intro hone p hp
    obtain ⟨c, hc, hkey⟩ := h.covers p hp
    obtain rfl : c.request = p := hone _ (h.made c hc) p hp hkey
    have hin : c.request ∈ xs.map SentResult.request := hreq ▸ mem_map.mpr ⟨c, hc, rfl⟩
    obtain ⟨x, hx, hxc⟩ := mem_map.mp hin
    have hcode := hdel.code h.nodup_request hx
    rw [h.last, hxc] at hcode
    refine ⟨x, ?_, hcode⟩
    rw [← hxc]
    exact filter_request (hreq ▸ h.nodup_request) hx

end Answers

theorem run_answeredOnce_iff (splitStr : String → List String) (atoi : String → ℤ)
    (applicationName : String) (accessTokenId : ℤ) (shell : String) (ops : List ResultOp)
    (resultCode : ℤ) (want : ResultWant)
    (hr : ∀ p ∈ (ops.foldl step (init applicationName accessTokenId shell)).recorded,
      reaches splitStr (ops.foldl step (init applicationName accessTokenId shell)).abilities
        ((ops.foldl step (init applicationName accessTokenId shell)).recorded.getLast? = some p)
        p.1 = true) :
    (ops.foldl step (init applicationName accessTokenId shell)).AnsweredOnce splitStr atoi
        resultCode want ↔
      (ops.foldl step (init applicationName accessTokenId shell)).OneEach :=
  (recorded_foldl applicationName accessTokenId shell ops).answered_iff splitStr atoi resultCode
    want hr

theorem run_recorded (applicationName : String) (accessTokenId : ℤ) (shell : String)
    (ops : List ResultOp) : (ops.foldl step (init applicationName accessTokenId shell)).Recorded :=
  recorded_foldl applicationName accessTokenId shell ops

def threeCallers : List ResultOp :=
  [.createAbility ⟨"com.example.mail", true, none⟩,
    .createAbility ⟨"com.example.notes", true, none⟩,
    .addCallerRecord 0 1 "" false, .addCallerRecord 9 2 "device_7" true,
    .addCallerRecord 1 3 "" false]

theorem threeCallers_answeredOnce :
    (threeCallers.foldl step (init "com.example.camera" 537 "com.example.shell")).AnsweredOnce
      (fun _ => ["device", "7"]) (fun _ => 7) 200 .empty :=
  (run_answeredOnce_iff (fun _ => ["device", "7"]) (fun _ => 7) "com.example.camera" 537
    "com.example.shell" threeCallers 200 .empty (by decide +kernel)).mpr
      (by unfold OneEach; decide +kernel)

theorem repeated_caller_not_answered :
    ¬([ResultOp.createAbility ⟨"com.example.mail", true, none⟩, .addCallerRecord 0 1 "" false,
        .addCallerRecord 0 2 "" false].foldl step
      (init "com.example.camera" 537 "com.example.shell")).AnsweredOnce
        (fun _ => ["device", "7"]) (fun _ => 7) 200 .empty := by
  intro h
  obtain ⟨x, hx, -⟩ := h (.ability 0, 1) (by decide +kernel)
  have hlen := congrArg List.length hx
  rw [length_singleton] at hlen
  exact absurd hlen (by decide +kernel)

end ResultTarget
end AbilityRuntime
