import Mathlib.Data.Set.Finite.Basic
import Mathlib.Order.WellFounded

/-! Topological sorting by counting unfinished dependencies; `Frontier` is the invariant of the
queue algorithm. -/

namespace Kahn
open Relation List
variable {K : Type*}

section Order
variable {r : K → K → Prop}

inductive Topological (r : K → K → Prop) : List K → Prop
  | nil : Topological r []
  | snoc {l : List K} {a : K} : Topological r l → (∀ b, r a b → b ∈ l) → Topological r (l ++ [a])

lemma Topological.closed {l : List K} (h : Topological r l) : ∀ a ∈ l, ∀ b, r a b → b ∈ l := by
  induction h with
  | nil => simp
  | @snoc l a _ ha ih =>
    intro n hn b hb
    rcases mem_append.mp hn with hn | hn
    · exact mem_append_left _ (ih n hn b hb)
    · obtain rfl := mem_singleton.mp hn
      exact mem_append_left _ (ha b hb)

lemma mem_of_reflTransGen {S : Set K} (hS : ∀ a ∈ S, ∀ b, r a b → b ∈ S) {a b : K} (ha : a ∈ S)
    (hab : ReflTransGen r a b) : b ∈ S := by
  induction hab with
  | refl => exact ha
  | tail _ hbc ih => exact hS _ ih _ hbc

lemma Topological.acyclic {l : List K} (h : Topological r l) (hl : l.Nodup) :
    ∀ a ∈ l, ¬ TransGen r a a := by
  induction h with
  | nil => simp
  | @snoc l a hpre ha ih =>
    have hnodup := nodup_append.mp hl
    intro n hn hcycle
    rcases mem_append.mp hn with hn | hn
    · exact ih hnodup.1 n hn hcycle
    · -- a cycle through the last node would lead back into the nodes before it
      obtain rfl := mem_singleton.mp hn
      obtain ⟨b, hab, hba⟩ := TransGen.head'_iff.mp hcycle
      have hmem : n ∈ l := mem_of_reflTransGen hpre.closed (ha b hab) hba
      exact hnodup.2.2 n hmem n mem_cons_self rfl

theorem mem_of_acyclic {V : Set K} (hfin : V.Finite) (hV : ∀ a ∈ V, ∀ b, r a b → b ∈ V)
    (hac : ∀ a ∈ V, ¬ TransGen r a a) {S : Set K} (hS : ∀ a ∈ V, (∀ b, r a b → b ∈ S) → a ∈ S) :
    ∀ a ∈ V, a ∈ S := by
  have : Finite V := hfin
  let below : V → V → Prop := fun b a => TransGen r a b
  have hirrefl : Std.Irrefl below := ⟨fun a => hac a a.2⟩
  have hwf : WellFounded below := Finite.wellFounded_of_trans_of_irrefl below
  have key : ∀ a : V, (a : K) ∈ S := by
    intro a
    induction a using hwf.induction with
    | _ a ih => exact hS a a.2 fun b hab => ih ⟨b, hV a a.2 b hab⟩ (.single hab)
  exact fun a ha => key ⟨a, ha⟩

end Order

section Counting
variable [DecidableEq K]

structure Frontier (V : List K) (deps : K → List K) (inDegree : K → ℕ) (queue done rest : List K) :
    Prop where
  nodup : (done ++ queue).Nodup
  mem : ∀ n ∈ done ++ queue, n ∈ V
  count : ∀ n ∈ V, inDegree n = (deps n).countP (· ∉ done) + rest.count n
  ready : ∀ n ∈ V, n ∈ done ++ queue ↔ inDegree n = 0
  order : Topological (fun a b => b ∈ deps a) done

variable {V : List K} {deps : K → List K} {inDegree : K → ℕ} {queue done rest : List K}

lemma countP_not_mem_append {key : K} (hkey : key ∉ done) (l : List K) :
    l.countP (· ∉ done) = l.countP (· ∉ done ++ [key]) + l.count key := by
  induction l with
  | nil => rfl
  | cons x l ih =>
    have hhead : (if decide (x ∉ done) = true then 1 else 0) =
        (if decide (x ∉ done ++ [key]) = true then 1 else 0) +
          if (x == key) = true then 1 else 0 := by
      by_cases hx : x = key
      · subst hx
        simp [hkey]
      · simp [hx]
    rw [countP_cons, countP_cons, count_cons, ih, hhead]
    omega

lemma Frontier.init (hV : V.Nodup) (hinit : ∀ n ∈ V, inDegree n = (deps n).length)
    (hq : queue = V.filter fun n => (deps n).isEmpty) : Frontier V deps inDegree queue [] [] where
  nodup := by
    subst hq
    exact hV.filter _
  mem n hn := by
    subst hq
    exact mem_of_mem_filter hn
  count n hn := by simp [hinit n hn]
  ready n hn := by
    subst hq
    simp [hinit n hn, hn]
  order := .nil

lemma Frontier.perm {queue' rest' : List K} (h : Frontier V deps inDegree queue done rest)
    (hq : queue.Perm queue') (hr : rest.Perm rest') :
    Frontier V deps inDegree queue' done rest' where
  nodup := (hq.append_left done).nodup_iff.mp h.nodup
  mem n hn := h.mem n ((hq.append_left done).mem_iff.mpr hn)
  count n hn := by rw [h.count n hn, hr.count_eq]
  ready n hn := by rw [← (hq.append_left done).mem_iff, h.ready n hn]
  __ := h

lemma Frontier.deps_done {key : K} (h : Frontier V deps inDegree queue done rest) (hkey : key ∈ V)
    (hzero : inDegree key = 0) : ∀ b ∈ deps key, b ∈ done := by
  have hcount := h.count key hkey
  have hnone : (deps key).countP (· ∉ done) = 0 := by omega
  exact fun b hb => by simpa using countP_eq_zero.mp hnone b hb

lemma Frontier.pop {key : K} {children : List K}
    (h : Frontier V deps inDegree (key :: queue) done rest)
    (hchildren : ∀ n ∈ V, children.count n = (deps n).count key) :
    Frontier V deps inDegree queue (done ++ [key]) (children ++ rest) where
  nodup := by simpa using h.nodup
  mem n hn := h.mem n (by simpa using hn)
  count n hn := by
    have hkey : key ∉ done := fun hd => (nodup_append.mp h.nodup).2.2 key hd key mem_cons_self rfl
    have hcount := h.count n hn
    rw [countP_not_mem_append hkey] at hcount
    rw [hcount, count_append, hchildren n hn, Nat.add_assoc]
  ready n hn := by simpa using h.ready n hn
  order := by
    have hkey : key ∈ done ++ key :: queue := by simp
    exact h.order.snoc (h.deps_done (h.mem key hkey) ((h.ready key (h.mem key hkey)).mp hkey))

lemma Frontier.pos {c : K} (h : Frontier V deps inDegree queue done (c :: rest)) (hc : c ∈ V) :
    0 < inDegree c := by
  rw [h.count c hc, count_cons_self]
  omega

lemma Frontier.visit {c : K} (h : Frontier V deps inDegree queue done (c :: rest)) (hc : c ∈ V)
    {inDegree' : K → ℕ} (hself : inDegree' c = inDegree c - 1)
    (hother : ∀ n, n ≠ c → inDegree' n = inDegree n) :
    Frontier V deps inDegree' (if inDegree' c = 0 then queue ++ [c] else queue) done rest := by
  have hpos : 0 < inDegree c := h.pos hc
  have hfresh : c ∉ done ++ queue := fun hmem => hpos.ne' ((h.ready c hc).mp hmem)
  have hcount : ∀ n ∈ V, inDegree' n = (deps n).countP (· ∉ done) + rest.count n := by
    intro n hn
    have hold := h.count n hn
    by_cases hnc : n = c
    · subst hnc
      rw [count_cons_self] at hold
      omega
    · rw [hother n hnc, hold, count_cons_of_ne (Ne.symm hnc)]
  split_ifs with hzero
  · refine ⟨?_, ?_, hcount, ?_, h.order⟩
    · rw [← append_assoc]
      exact nodup_append.mpr ⟨h.nodup, nodup_singleton c, fun a ha b hb hab => by
        rw [hab, mem_singleton.mp hb] at ha
        exact hfresh ha⟩
    · intro n hn
      rw [← append_assoc, mem_append, mem_singleton] at hn
      rcases hn with hn | rfl
      · exact h.mem n hn
      · exact hc
    · intro n hn
      rw [← append_assoc, mem_append, mem_singleton]
      by_cases hnc : n = c
      · subst hnc
        simp [hzero]
      · simp [hnc, hother n hnc, ← h.ready n hn]
  · refine { h with count := hcount, ready := ?_ }
    intro n hn
    by_cases hnc : n = c
    · subst hnc
      exact iff_of_false hfresh hzero
    · rw [hother n hnc]
      exact h.ready n hn

lemma Frontier.length_le (h : Frontier V deps inDegree queue done rest) :
    done.length + queue.length ≤ V.length := by
  rw [← length_append]
  exact (h.nodup.subperm fun n hn => h.mem n hn).length_le

theorem Frontier.length_eq_iff (h : Frontier V deps inDegree [] done []) (hV : V.Nodup)
    (hclosed : ∀ a ∈ V, ∀ b ∈ deps a, b ∈ V) :
    done.length = V.length ↔ ∀ a ∈ V, ¬ TransGen (fun a b => b ∈ deps a) a a := by
  have hnodup : done.Nodup := by simpa using h.nodup
  have hsub : done ⊆ V := fun n hn => h.mem n (by simpa using hn)
  constructor
  · intro hlen a ha
    have hperm : done.Perm V := (hnodup.subperm hsub).perm_of_length_le hlen.ge
    exact h.order.acyclic hnodup a (hperm.mem_iff.mpr ha)
  · intro hac
    have hall : ∀ a ∈ V, a ∈ done := by
      refine mem_of_acyclic (S := {a | a ∈ done}) (finite_toSet V) hclosed hac ?_
      intro a ha hdeps
      have hzero : inDegree a = 0 := by
        rw [h.count a ha, count_nil, Nat.add_zero, countP_eq_zero]
        exact fun b hb => by simpa using hdeps b hb
      simpa using (h.ready a ha).mpr hzero
    exact Nat.le_antisymm (hnodup.subperm hsub).length_le (hV.subperm hall).length_le

end Counting
end Kahn
