import Mathlib.Data.List.Chain
import AbilityRuntime.Library.SortedMap

/-! Logs of what is added to a table and removed from it. -/

def Alternates (l : List Bool) : Prop := l.head? ≠ some false ∧ l.IsChain (· ≠ ·)

instance (l : List Bool) : Decidable (Alternates l) :=
  inferInstanceAs (Decidable (l.head? ≠ some false ∧ l.IsChain (· ≠ ·)))

lemma alternates_nil : Alternates [] := ⟨by simp, .nil⟩

variable {l : List Bool}

lemma alternates_concat {b : Bool} :
    Alternates (l ++ [b]) ↔ Alternates l ∧ b = !l.getLast?.getD false := by
  rcases List.eq_nil_or_concat l with rfl | ⟨l', a, rfl⟩
  · cases b <;> decide
  · rw [Alternates, Alternates, List.isChain_append, List.head?_append_of_ne_nil _ (by simp)]
    cases a <;> cases b <;> simp

def Follows (l : List Bool) (p : Prop) : Prop := Alternates l ∧ (l.getLast?.getD false = true ↔ p)

lemma follows_nil {p : Prop} (h : ¬p) : Follows [] p := ⟨alternates_nil, iff_of_false nofun h⟩

lemma Follows.congr {p q : Prop} (h : Follows l p) (hpq : p ↔ q) : Follows l q :=
  ⟨h.1, h.2.trans hpq⟩

lemma Follows.concat {p q : Prop} {b : Bool} (h : Follows l p) (hp : p ↔ b = false)
    (hq : q ↔ b = true) : Follows (l ++ [b]) q := by
  refine ⟨alternates_concat.mpr ⟨h.1, ?_⟩, by simpa using hq.symm⟩
  have hlast := h.2.trans hp
  cases b <;> cases hl : l.getLast?.getD false <;> simp [hl] at hlast ⊢

open Option

namespace ChangeLog
open List

structure Change (K V : Type*) where
  key : K
  value : V
  added : Bool

variable {K V : Type*} [DecidableEq K]
  {log events : List (Change K V)} {before after table : K → Option V} {k : K} {v : V}

def about (k : K) (log : List (Change K V)) : List (Change K V) := log.filter fun c => c.key = k

lemma about_append (k : K) (l l' : List (Change K V)) :
    about k (l ++ l') = about k l ++ about k l' := filter_append ..

def difference (k : K) : Option V → Option V → List (Change K V)
  | none, some v => [⟨k, v, true⟩]
  | some v, none => [⟨k, v, false⟩]
  | _, _ => []

structure Reports (before after : K → Option V) (events : List (Change K V)) : Prop where
  about : ∀ k, about k events = difference k (before k) (after k)
  kept : ∀ k v w, before k = some v → after k = some w → v = w

structure Tracks (log : List (Change K V)) (table : K → Option V) : Prop where
  alternates : ∀ k, Alternates ((about k log).map Change.added)
  last : ∀ k v, table k = some v ↔ (about k log).getLast? = some ⟨k, v, true⟩

lemma tracks_nil : Tracks [] fun _ : K => (none : Option V) :=
  ⟨fun _ => alternates_nil, fun _ _ => iff_of_false nofun nofun⟩

lemma Tracks.getLast (h : Tracks log table) (k : K) :
    ((about k log).map Change.added).getLast?.getD false = (table k).isSome := by
  rw [getLast?_map]
  cases hl : (about k log).getLast? with
  | none =>
    cases ht : table k with
    | none => rfl
    | some v => exact absurd (hl.symm.trans ((h.last k v).mp ht)) (some_ne_none _).symm
  | some c =>
    have hkey : c.key = k := by
      simpa using mem_filter.mp (mem_of_getLast? hl) |>.2
    obtain ⟨key, value, added⟩ := c
    subst hkey
    cases added with
    | true => exact ((h.last key value).mpr hl) ▸ rfl
    | false =>
      cases ht : table key with
      | none => rfl
      | some v =>
        have := (some.inj (hl.symm.trans ((h.last key v).mp ht)))
        cases this

lemma Tracks.append (h : Tracks log before) (hr : Reports before after events) :
    Tracks (log ++ events) after := by
  have hk (k : K) : Alternates ((about k (log ++ events)).map Change.added) ∧
      ∀ v, after k = some v ↔ (about k (log ++ events)).getLast? = some ⟨k, v, true⟩ := by
    have hlast := h.getLast k
    have halt := h.alternates k
    rw [about_append, hr.about k]
    cases hb : before k with
    | none =>
      rw [hb] at hlast
      cases ha : after k with
      | none =>
        simp only [difference, append_nil]
        exact ⟨halt, fun v => hb ▸ h.last k v⟩
      | some v =>
        rw [difference, map_append]
        refine ⟨alternates_concat.mpr ⟨halt, by rw [hlast]; rfl⟩, fun w => ?_⟩
        rw [getLast?_append, getLast?_singleton]
        simp
    | some v =>
      rw [hb] at hlast
      cases ha : after k with
      | none =>
        rw [difference, map_append]
        refine ⟨alternates_concat.mpr ⟨halt, by rw [hlast]; rfl⟩, fun w => ?_⟩
        rw [getLast?_append, getLast?_singleton]
        simp
      | some w =>
        obtain rfl := hr.kept k v w hb ha
        simp only [difference, append_nil]
        exact ⟨halt, fun w => hb ▸ h.last k w⟩
  exact ⟨fun k => (hk k).1, fun k => (hk k).2⟩

namespace Reports

lemma refl (h : ∀ k, after k = before k) : Reports before after [] := by
  refine ⟨fun k => ?_, fun k v w hv hw => ?_⟩
  · rw [h k]
    cases before k <;> rfl
  · exact some.inj (hv.symm.trans ((h k).symm.trans hw))

lemma single {c : Change K V} (hc : difference c.key (before c.key) (after c.key) = [c])
    (ho : ∀ k, k ≠ c.key → after k = before k) : Reports before after [c] := by
  refine ⟨fun k => ?_, fun k w w' hw hw' => ?_⟩
  · rcases eq_or_ne k c.key with rfl | hne
    · simp [ChangeLog.about, hc]
    · rw [ho k hne, ChangeLog.about, filter_cons_of_neg (by simpa using hne.symm)]
      cases before k <;> rfl
  · rcases eq_or_ne k c.key with rfl | hne
    · rw [hw, hw'] at hc
      cases hc
    · exact some.inj (hw.symm.trans ((ho k hne).symm.trans hw'))

lemma added (hb : before k = none) (ha : after k = some v)
    (ho : ∀ k', k' ≠ k → after k' = before k') : Reports before after [⟨k, v, true⟩] :=
  single (by rw [hb, ha]; rfl) ho

lemma removed (hb : before k = some v) (ha : after k = none)
    (ho : ∀ k', k' ≠ k → after k' = before k') : Reports before after [⟨k, v, false⟩] :=
  single (by rw [hb, ha]; rfl) ho

end Reports

section Inside
variable {A B V X : Type*}

def Change.inside (a : A) (c : Change B V) : Change (A × B) V := ⟨(a, c.key), c.value, c.added⟩

open Change

lemma difference_inside (a : A) (b : B) (v w : Option V) :
    (difference b v w).map (inside a) = difference (a, b) v w := by
  cases v <;> cases w <;> rfl

variable [LinearOrder A] [DecidableEq B]

lemma about_inside (a a' : A) (b : B) (l : List (Change B V)) :
    about (a', b) (l.map (inside a)) =
      if a = a' then (about b l).map (inside a) else [] := by
  induction l with
  | nil => simp [about]
  | cons c l ih =>
    simp only [about] at ih ⊢
    split at ih <;> by_cases hb : c.key = b <;> simp_all [inside]

lemma flatMap_filter_key {Y : Type*} (a : A) (f : A × X → List Y) (l : List (A × X)) :
    l.flatMap (fun e => if e.1 = a then f e else []) = (l.filter fun e => e.1 = a).flatMap f := by
  induction l with
  | nil => rfl
  | cons e l ih =>
    rw [flatMap_cons, ih]
    by_cases he : e.1 = a
    · rw [if_pos he, filter_cons_of_pos (by simpa using he), flatMap_cons]
    · rw [if_neg he, filter_cons_of_neg (by simpa using he), nil_append]

lemma Reports.entries {m : SortedMap A X} (before after : X → B → Option V)
    {events : X → List (Change B V)} {outer outer' : A × B → Option V}
    (h : ∀ a x, m.find? a = some x → Reports (before x) (after x) (events x))
    (hb : ∀ a b, outer (a, b) = (m.find? a).bind fun x => before x b)
    (ha : ∀ a b, outer' (a, b) = (m.find? a).bind fun x => after x b) :
    Reports outer outer' (m.entries.flatMap fun e => (events e.2).map (inside e.1)) := by
  refine ⟨fun ⟨a, b⟩ => ?_, fun ⟨a, b⟩ v w hv hw => ?_⟩
  · have hone (e : A × X) : ((events e.2).map (inside e.1)).filter
        (fun c => decide (c.key = (a, b))) =
        if e.1 = a then (ChangeLog.about b (events e.2)).map (inside e.1) else [] :=
      about_inside e.1 a b (events e.2)
    rw [ChangeLog.about, filter_flatMap]
    simp only [hone]
    rw [flatMap_filter_key a (fun e => (ChangeLog.about b (events e.2)).map (inside e.1)),
      m.filter_entries, hb, ha]
    cases hx : m.find? a with
    | none => rfl
    | some x =>
      simp only [map_some, toList_some, flatMap_cons, flatMap_nil, append_nil, bind_some]
      rw [(h a x hx).about b, difference_inside]
  · rw [hb] at hv
    rw [ha] at hw
    obtain ⟨x, hx, hv⟩ := bind_eq_some_iff.mp hv
    rw [hx] at hw
    exact (h a x hx).kept b v w hv hw

lemma Reports.inside {a : A} {before after : B → Option V} {events : List (Change B V)}
    {outer outer' : A × B → Option V} (h : Reports before after events)
    (hb : ∀ b, outer (a, b) = before b) (ha : ∀ b, outer' (a, b) = after b)
    (ho : ∀ a' b, a' ≠ a → outer' (a', b) = outer (a', b)) :
    Reports outer outer' (events.map (inside a)) := by
  refine ⟨fun ⟨a', b⟩ => ?_, fun ⟨a', b⟩ v w hv hw => ?_⟩
  · rw [about_inside]
    split_ifs with heq
    · subst heq
      rw [h.about b, difference_inside, hb, ha]
    · rw [ho a' b (Ne.symm heq)]
      cases outer (a', b) <;> rfl
  · rcases eq_or_ne a' a with rfl | hne
    · rw [hb] at hv
      rw [ha] at hw
      exact h.kept b v w hv hw
    · rw [ho a' b hne] at hw
      exact some.inj (hv.symm.trans hw)

end Inside
end ChangeLog
