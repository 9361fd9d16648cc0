import AbilityRuntime.Library.ReadLoop
import AbilityRuntime.Library.SortedMap
import Mathlib.Algebra.BigOperators.Group.List.Basic
import Mathlib.Algebra.Ring.Nat
import Mathlib.Data.String.Basic

/-! `ChangeInfo` and its wire form. A parcel is the queue of the items written to it; a read takes
the first item if it has the right type. -/

namespace AbilityRuntime.DataObs
open List Option SortedMap ReadLoop

inductive Status where
  | success
  | dataObserverIsNull
  | dataobsServiceObsLimmit
  | noObsForUri
  | obsExist

structure UriApi (Uri : Type) where
  ofString : String → Uri
  toString : Uri → String
  getScheme : Uri → String
  getAuthority : Uri → String
  getPathSegments : Uri → List String
  ofString_toString : ∀ uri, ofString (toString uri) = uri

def UriApi.path {Uri : Type} (api : UriApi Uri) (uri : Uri) : List String :=
  api.getScheme uri :: api.getAuthority uri :: api.getPathSegments uri

structure Env (Uri Obs Remote : Type) extends UriApi Uri where
  asObject : Obs → Option Remote

/-- The six alternatives of the variant; doubles are their 64 bits. -/
inductive Value where
  | monostate
  | int64 (v : Int64)
  | double (bits : UInt64)
  | string (v : String)
  | bool (v : Bool)
  | bytes (v : List UInt8)

abbrev VBucket := SortedMap String Value

/-- `data` is the buffer behind the pointer, if there is one. The underlying type of
`ChangeType` is fixed, so that every 32-bit value is one of its values. -/
structure ChangeInfo (Uri : Type) where
  changeType : UInt32
  uris : List Uri
  data : Option (List UInt8)
  size : UInt32
  valueBuckets : List VBucket

inductive Item where
  | uint32 (v : UInt32)
  | int32 (v : Int32)
  | int64 (v : Int64)
  | double (bits : UInt64)
  | string (v : String)
  | bool (v : Bool)
  | buffer (v : List UInt8)
  | uint8Vector (v : List UInt8)

structure ParcelApi where
  bytes : Item → Nat
  bytes_int32 : ∀ v, 0 < bytes (.int32 v)
  bytes_string : ∀ v, 0 < bytes (.string v)

variable (api : ParcelApi) (p : List Item)

def ParcelApi.getReadableBytes : Nat := (p.map api.bytes).sum

def readUint32 : List Item → Option (UInt32 × List Item)
  | .uint32 v :: p => some (v, p)
  | _ => none

def readInt32 : List Item → Option (Int32 × List Item)
  | .int32 v :: p => some (v, p)
  | _ => none

def readString : List Item → Option (String × List Item)
  | .string v :: p => some (v, p)
  | _ => none

def readBuffer (size : UInt32) : List Item → Option (List UInt8 × List Item)
  | .buffer v :: p => if v.length = size.toNat then some (v, p) else none
  | _ => none

def listMaxCount : Nat := 3000

def intMax : Nat := 2147483647

def marshalValue : Value → List Item
  | .monostate => [.uint32 0]
  | .int64 v => [.uint32 1, .int64 v]
  | .double bits => [.uint32 2, .double bits]
  | .string v => [.uint32 3, .string v]
  | .bool v => [.uint32 4, .bool v]
  | .bytes v => [.uint32 5, .uint8Vector v]

/-- `ReadUint32()` without an out parameter returns 0 when it fails. -/
def unmarshalValue : Option (Value × List Item) :=
  let (index, p) := (readUint32 p).getD (0, p)
  match index.toNat, p with
  | 0, p => some (.monostate, p)
  | 1, .int64 v :: p => some (.int64 v, p)
  | 2, .double bits :: p => some (.double bits, p)
  | 3, .string v :: p => some (.string v, p)
  | 4, .bool v :: p => some (.bool v, p)
  | 5, .uint8Vector v :: p => some (.bytes v, p)
  | _, _ => none

def marshalPair (entry : String × Value) : List Item := .string entry.1 :: marshalValue entry.2

def marshalBucket (bucket : VBucket) : List Item :=
  .int32 (Int32.ofNat bucket.size) :: bucket.entries.flatMap marshalPair

def readPair (val : VBucket) (p : List Item) : Option (VBucket × List Item) := do
  let (key, p) ← readString p
  let (value, p) ← unmarshalValue p
  return (val.assign key value, p)

def unmarshalBucket : Option (VBucket × List Item) := do
  let (size, p) ← readInt32 p
  if size < 0 then none
  else if size.toInt.toNat > api.getReadableBytes p then none
  else ReadLoop.loop readPair size.toInt.toNat SortedMap.empty p

def marshalBuckets (val : List VBucket) : Option (List Item) :=
  if val.length > intMax then none
  else some (.int32 (Int32.ofNat val.length) :: val.flatMap marshalBucket)

def readBucket (val : List VBucket) (p : List Item) : Option (List VBucket × List Item) := do
  let (value, p) ← unmarshalBucket api p
  return (val ++ [value], p)

def unmarshalBuckets : Option (List VBucket × List Item) :=
  let (len, p) := (readInt32 p).getD (0, p)
  if len < 0 then none
  else if len.toInt.toNat > api.getReadableBytes p then none
  else ReadLoop.loop (readBucket api) len.toInt.toNat [] p

section
variable {Uri : Type}

def writeBuffer (data : Option (List UInt8)) (size : UInt32) : Option (List Item) :=
  data.map fun v => [.buffer (v.take size.toNat)]

variable (uriApi : UriApi Uri)

def marshalling (input : ChangeInfo Uri) : Option (List Item) := do
  if input.uris.length > 4294967295 then none
  else
    let data ← if input.size = 0 then some [] else writeBuffer input.data input.size
    let buckets ← marshalBuckets input.valueBuckets
    return .uint32 input.changeType :: .uint32 (UInt32.ofNat input.uris.length) ::
      (input.uris.flatMap fun uri => [.string (uriApi.toString uri)]) ++
      .uint32 input.size :: (data ++ buckets)

/-- `ReadString()` returns the empty string when it fails. -/
def readUri (uris : List Uri) (p : List Item) :
    Option (List Uri × List Item) :=
  let (text, p) := (readString p).getD ("", p)
  let uri := uriApi.ofString text
  if (uriApi.toString uri).isEmpty then none else some (uris ++ [uri], p)

def readData (size : UInt32) (p : List Item) : Option (Option (List UInt8) × List Item) :=
  if size > 0 then (readBuffer size p).map fun (data, p) => (some data, p) else some (none, p)

def unmarshalling (api : ParcelApi) (p : List Item) :
    Option (ChangeInfo Uri × List Item) := do
  let (changeType, p) ← readUint32 p
  let (len, p) ← readUint32 p
  if len.toNat > listMaxCount then none
  else
    let (uris, p) ← ReadLoop.loop (readUri uriApi) len.toNat [] p
    let (size, p) ← readUint32 p
    let (data, p) ← readData size p
    let (buckets, p) ← unmarshalBuckets api p
    return (⟨changeType, uris, data, size, buckets⟩, p)

end

lemma readPair_marshalPair (entry : String × Value) (val : VBucket) (rest : List Item) :
    readPair val (marshalPair entry ++ rest) = some (val.assign entry.1 entry.2, rest) := by
  obtain ⟨key, value⟩ := entry
  cases value <;> rfl

lemma toInt_ofNat_le {n : Nat} (h : n ≤ intMax) : (Int32.ofNat n).toInt = n :=
  Int32.toInt_ofNat_of_lt (Nat.lt_succ_of_le h)

lemma not_ofNat_neg {n : Nat} (h : n ≤ intMax) : ¬ Int32.ofNat n < 0 := by
  rw [Int32.lt_iff_toInt_lt, toInt_ofNat_le h]
  exact not_lt.mpr (Int.natCast_nonneg n)

lemma length_le_getReadableBytes {A : Type} (api : ParcelApi) {write : A → List Item} {l : List A}
    (h : ∀ a ∈ l, 0 < api.getReadableBytes (write a)) (rest : List Item) :
    l.length ≤ api.getReadableBytes (l.flatMap write ++ rest) := by
  induction l with
  | nil => exact Nat.zero_le _
  | cons a l ih =>
    have hhead := h a mem_cons_self
    have htail := ih fun a' ha' => h a' (mem_cons_of_mem _ ha')
    simp only [ParcelApi.getReadableBytes, flatMap_cons, map_append, sum_append,
      length_cons] at hhead htail ⊢
    omega

lemma unmarshalBucket_marshalBucket {bucket : VBucket} (h : bucket.size ≤ intMax)
    (rest : List Item) : unmarshalBucket api (marshalBucket bucket ++ rest) =
    some (bucket, rest) := by
  have hbytes : ∀ entry ∈ bucket.entries, 0 < api.getReadableBytes (marshalPair entry) :=
    fun entry _ =>
    Nat.add_pos_left (api.bytes_string entry.1) _
  have hlen : ¬ bucket.size > api.getReadableBytes (bucket.entries.flatMap marshalPair ++ rest) :=
    not_lt.mpr (length_le_getReadableBytes api hbytes rest)
  have hloop : loop readPair bucket.size empty
      (bucket.entries.flatMap marshalPair ++ rest) =
      some (bucket, rest) := by
    have hread := loop_flatMap bucket.entries
      (fun entry _ val rest => readPair_marshalPair entry val rest) empty rest
    rwa [foldl_assign_entries] at hread
  simp only [unmarshalBucket, marshalBucket, cons_append, readInt32, bind_eq_bind, bind_some,
    toInt_ofNat_le h, Int.toNat_natCast, if_neg (not_ofNat_neg h), if_neg hlen, hloop]

lemma unmarshalBuckets_marshalBuckets {val : List VBucket} {items : List Item}
    (h : marshalBuckets val = some items) (hsize : ∀ b ∈ val, b.size ≤ intMax) (rest : List Item) :
    unmarshalBuckets api (items ++ rest) = some (val, rest) := by
  unfold marshalBuckets at h
  split_ifs at h with hmax
  have hle : val.length ≤ intMax := not_lt.mp hmax
  cases h
  have hbytes : ∀ b ∈ val, 0 < api.getReadableBytes (marshalBucket b) := fun b _ =>
    Nat.add_pos_left (api.bytes_int32 _) _
  have hlen : ¬ val.length > api.getReadableBytes (val.flatMap marshalBucket ++ rest) :=
    not_lt.mpr (length_le_getReadableBytes api hbytes rest)
  have hread : ∀ b ∈ val, ∀ acc rest, readBucket api acc (marshalBucket b ++ rest) =
      some (acc ++ [b], rest) := by
    intro b hb acc rest
    simp [readBucket, unmarshalBucket_marshalBucket api (hsize b hb)]
  have hloop := loop_flatMap_push val hread rest
  simp [unmarshalBuckets, readInt32, toInt_ofNat_le hle,
    Int.toNat_natCast, if_neg (not_ofNat_neg hle), if_neg hlen, hloop]

section
variable {Uri : Type} {uriApi : UriApi Uri} {api : ParcelApi}

structure ChangeInfo.WellFormed (uriApi : UriApi Uri) (info : ChangeInfo Uri) : Prop where
  uri : ∀ uri ∈ info.uris, uriApi.toString uri ≠ ""
  data : info.data = none ∧ info.size = 0 ∨
    ∃ v, info.data = some v ∧ v.length = info.size.toNat ∧ info.size ≠ 0
  buckets : info.valueBuckets.length ≤ intMax
  bucket : ∀ b ∈ info.valueBuckets, b.size ≤ intMax

lemma readUri_string {uri : Uri} (h : uriApi.toString uri ≠ "") (uris : List Uri)
    (rest : List Item) :
    readUri uriApi uris ([.string (uriApi.toString uri)] ++ rest) = some (uris ++ [uri], rest) := by
  have hne : ¬ (uriApi.toString uri).isEmpty = true := fun he => h (String.isEmpty_iff.mp he)
  simp only [readUri, readString, cons_append, nil_append, getD_some,
    uriApi.ofString_toString, if_neg hne]

variable {info : ChangeInfo Uri}

section
variable (h : info.WellFormed uriApi)
include h

lemma marshalling_wellFormed (hlen : info.uris.length ≤ 4294967295) : ∃ data buckets,
      marshalBuckets info.valueBuckets = some buckets ∧
      (info.data = none ∧ info.size = 0 ∧ data = [] ∨
        ∃ v, info.data = some v ∧ v.length = info.size.toNat ∧ info.size ≠ 0 ∧
        data = [Item.buffer v]) ∧
      marshalling uriApi info = some (.uint32 info.changeType :: .uint32
        (UInt32.ofNat info.uris.length) ::
        (info.uris.flatMap fun uri => [.string (uriApi.toString uri)]) ++
          .uint32 info.size :: (data ++ buckets)) := by
  have hbuckets : marshalBuckets info.valueBuckets =
      some (.int32 (.ofNat info.valueBuckets.length) :: info.valueBuckets.flatMap marshalBucket) :=
    if_neg (not_lt.mpr h.buckets)
  rcases h.data with ⟨hnone, hzero⟩ | ⟨v, hv, hsize, hne⟩
  · refine ⟨[], _, hbuckets, .inl ⟨hnone, hzero, rfl⟩, ?_⟩
    simp [marshalling, not_lt.mpr hlen, hzero, hbuckets]
  · refine ⟨[.buffer v], _, hbuckets, .inr ⟨v, hv, hsize, hne, rfl⟩, ?_⟩
    simp [marshalling, not_lt.mpr hlen, hne, hv, writeBuffer, ← hsize, hbuckets]

lemma unmarshalling_marshalling (hlen : info.uris.length ≤ listMaxCount) (api : ParcelApi) :
    ∃ items, marshalling uriApi info = some items ∧
      ∀ rest, unmarshalling uriApi api (items ++ rest) = some (info, rest) := by
  have hword : info.uris.length ≤ 4294967295 := hlen.trans (by decide)
  obtain ⟨data, buckets, hbuckets, hdata, hm⟩ := marshalling_wellFormed h hword
  refine ⟨_, hm, fun rest => ?_⟩
  have hcount : (UInt32.ofNat info.uris.length).toNat = info.uris.length :=
    UInt32.toNat_ofNat_of_lt' (Nat.lt_succ_of_le hword)
  have huris := loop_flatMap_push info.uris (fun uri hu uris rest =>
    readUri_string (h.uri uri hu) uris rest)
    (.uint32 info.size :: (data ++ (buckets ++ rest)))
  have hvals := unmarshalBuckets_marshalBuckets api hbuckets h.bucket rest
  simp only [unmarshalling, cons_append, append_assoc, readUint32, bind_eq_bind,
    bind_some, hcount, if_neg (not_lt.mpr hlen), huris]
  rcases hdata with ⟨hnone, hzero, rfl⟩ | ⟨v, hv, hsize, hne, rfl⟩
  · have hpos : ¬ info.size > 0 := by simp [hzero]
    simp only [readData, if_neg hpos, bind_some, nil_append, hvals, ← hnone]
    rfl
  · have hpos : info.size > 0 := UInt32.pos_iff_ne_zero.mpr hne
    simp only [readData, if_pos hpos, cons_append, nil_append, readBuffer, if_pos hsize,
      map_some, bind_some, hvals, ← hv]
    rfl

lemma unmarshalling_tooLong {items : List Item}
    (hlen : listMaxCount < info.uris.length) (hm : marshalling uriApi info = some items)
    (api : ParcelApi) : unmarshalling uriApi api items = none := by
  have hword : info.uris.length ≤ 4294967295 := by
    by_contra hgt
    simp [marshalling, not_le.mp hgt] at hm
  obtain ⟨data, buckets, -, -, hm'⟩ := marshalling_wellFormed h hword
  cases hm.symm.trans hm'
  have hcount : (UInt32.ofNat info.uris.length).toNat = info.uris.length :=
    UInt32.toNat_ofNat_of_lt' (Nat.lt_succ_of_le hword)
  simp only [unmarshalling, cons_append, readUint32, bind_eq_bind, bind_some, hcount, if_pos hlen]

end

def Accepted (uriApi : UriApi Uri) (api : ParcelApi) (info : ChangeInfo Uri) : Prop :=
  ∃ items, marshalling uriApi info = some items ∧ (unmarshalling uriApi api items).isSome = true

lemma accepted_iff (h : info.WellFormed uriApi) :
    Accepted uriApi api info ↔ info.uris.length ≤ listMaxCount := by
  constructor
  · rintro ⟨items, hm, hsome⟩
    by_contra hgt
    rw [unmarshalling_tooLong h (not_le.mp hgt) hm] at hsome
    cases hsome
  · intro hlen
    obtain ⟨items, hm, hread⟩ := unmarshalling_marshalling h hlen api
    have hall := hread []
    rw [append_nil] at hall
    exact ⟨items, hm, by rw [hall]; rfl⟩

lemma toInt_toNat_le (v : Int32) : v.toInt.toNat ≤ intMax := by
  have hlt := v.toInt_lt
  rw [intMax]
  omega

variable {p p' : List Item}

lemma size_of_readPair {val val' : VBucket} (h : readPair val p = some (val', p')) :
    val'.size ≤ val.size + 1 := by
  simp only [readPair, bind_eq_bind, bind_eq_some_iff] at h
  obtain ⟨key, -, value, -, rfl, -⟩ := h
  exact size_assign_le val key.1 value.1

lemma size_of_unmarshalBucket {bucket : VBucket} (h : unmarshalBucket api p = some (bucket, p')) :
    bucket.size ≤ intMax := by
  simp only [unmarshalBucket, bind_eq_bind, bind_eq_some_iff] at h
  obtain ⟨⟨size, p₁⟩, -, h⟩ := h
  split_ifs at h
  have hsize := loop_invariant (P := fun i val => val.size ≤ i)
    (fun i val p val' p' hi hr => (size_of_readPair hr).trans (Nat.add_le_add_right hi 1))
    (Nat.zero_le 0) h
  rw [Nat.zero_add] at hsize
  exact hsize.trans (toInt_toNat_le size)

lemma sizes_of_unmarshalBuckets {val : List VBucket} (h : unmarshalBuckets api p = some (val, p')) :
    val.length ≤ intMax ∧ ∀ b ∈ val, b.size ≤ intMax := by
  simp only [unmarshalBuckets] at h
  split_ifs at h
  have hread : ∀ i (val : List VBucket) p val' p', (val.length = i ∧ ∀ b ∈ val, b.size ≤ intMax) →
      readBucket api val p = some (val', p') → val'.length = i + 1 ∧ ∀ b ∈ val',
      b.size ≤ intMax := by
    rintro i val p val' p' ⟨rfl, hall⟩ hr
    simp only [readBucket, bind_eq_bind, bind_eq_some_iff] at hr
    obtain ⟨⟨bucket, p₁⟩, hb, rfl, -⟩ := hr
    refine ⟨length_append, fun b hb' => ?_⟩
    rcases mem_append.mp hb' with hb' | hb'
    · exact hall b hb'
    · exact mem_singleton.mp hb' ▸ size_of_unmarshalBucket hb
  obtain ⟨hlen, hall⟩ := loop_invariant
    (P := fun i (val : List VBucket) => val.length = i ∧ ∀ b ∈ val, b.size ≤ intMax)
    hread ⟨rfl, by simp⟩ h
  rw [length_nil, Nat.zero_add] at hlen
  exact ⟨hlen ▸ toInt_toNat_le _, hall⟩

lemma uris_of_loop {n : Nat} {uris : List Uri}
    (h : ReadLoop.loop (readUri uriApi) n [] p = some (uris, p')) :
    uris.length = n ∧ ∀ uri ∈ uris, uriApi.toString uri ≠ "" := by
  have hread : ∀ i (uris : List Uri) p uris' p',
      (uris.length = i ∧ ∀ uri ∈ uris, uriApi.toString uri ≠ "") →
      readUri uriApi uris p = some (uris', p') →
      uris'.length = i + 1 ∧ ∀ uri ∈ uris', uriApi.toString uri ≠ "" := by
    rintro i uris p uris' p' ⟨rfl, hall⟩ hr
    simp only [readUri] at hr
    split_ifs at hr with hempty
    cases hr
    refine ⟨length_append, fun uri hu => ?_⟩
    rcases mem_append.mp hu with hu | hu
    · exact hall uri hu
    · rw [mem_singleton.mp hu]
      exact fun he => hempty (String.isEmpty_iff.mpr he)
  obtain ⟨hlen, hall⟩ := loop_invariant
    (P := fun i (uris : List Uri) => uris.length = i ∧ ∀ uri ∈ uris, uriApi.toString uri ≠ "")
    hread ⟨rfl, by simp⟩ h
  exact ⟨by rw [hlen, length_nil, Nat.zero_add], hall⟩

lemma unmarshalling_wellFormed (h : unmarshalling uriApi api p = some (info, p')) :
    info.WellFormed uriApi ∧ info.uris.length ≤ listMaxCount := by
  simp only [unmarshalling, bind_eq_bind, bind_eq_some_iff, ite_none_left_eq_some] at h
  obtain ⟨⟨changeType, p₁⟩, -, ⟨len, p₂⟩, -, hlen, ⟨uris, p₃⟩, huris, ⟨size, p₄⟩, -,
      ⟨data, p₅⟩, hdata, ⟨buckets, p₆⟩, hbuckets, rfl, -⟩ := h
  obtain ⟨hcount, hne⟩ := uris_of_loop huris
  obtain ⟨hmany, heach⟩ := sizes_of_unmarshalBuckets hbuckets
  refine ⟨⟨hne, ?_, hmany, heach⟩, hcount ▸ not_lt.mp hlen⟩
  unfold readData at hdata
  split_ifs at hdata with hpos
  · obtain ⟨out, hout, hpair⟩ := map_eq_some_iff.mp hdata
    cases hpair
    unfold readBuffer at hout
    split at hout
    · split_ifs at hout with hsize
      cases hout
      exact .inr ⟨_, rfl, hsize, UInt32.pos_iff_ne_zero.mp hpos⟩
    · cases hout
  · cases hdata
    exact .inl ⟨rfl, not_ne_iff.mp fun hne => hpos (UInt32.pos_iff_ne_zero.mpr hne)⟩

end

end AbilityRuntime.DataObs
