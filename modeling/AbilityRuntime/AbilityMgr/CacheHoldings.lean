import AbilityRuntime.AbilityMgr.AbilityCacheManager

/-! What the cache holds, whether or not its two kinds of list agree. -/

namespace AbilityRuntime
namespace AbilityCacheManager
open List
variable {Record : Type} {s : AbilityCacheManager Record} {x r : Record}

def Holds (s : AbilityCacheManager Record) (r : Record) : Prop :=
  r ∈ s.devRecLru ∨ ∃ t info, s.procLruMap.find? t = some info ∧ r ∈ info.recList

lemma not_holds_init (devCapacity procCapacity : UInt32) (r : Record) :
    ¬ (init devCapacity procCapacity : AbilityCacheManager Record).Holds r := by
  rintro (h | ⟨t, info, h, -⟩)
  · exact not_mem_nil h
  · exact absurd h (by simp [init])

lemma holds_of_modify {t : AccessTokenId} {l : List Record} {cnt : UInt32}
    (h : ({ s with procLruMap := s.procLruMap.modify t fun _ => ⟨l, cnt⟩ } :
      AbilityCacheManager Record).Holds r)
    (hl : r ∈ l → s.Holds r) : s.Holds r := by
  rcases h with h | ⟨t', info, hf, hr⟩
  · exact .inl h
  · rw [SortedMap.find?_modify] at hf
    split at hf
    · obtain ⟨_, -, rfl⟩ := Option.map_eq_some_iff.mp hf
      exact hl hr
    · exact .inr ⟨t', info, hf, hr⟩

lemma holds_of_pushDev (h : (s.pushDev x).Holds r) : r = x ∨ s.Holds r := by
  rcases h with h | h
  · rcases mem_append.mp h with h | h
    · exact .inr (.inl h)
    · exact .inl (mem_singleton.mp h)
  · exact .inr (.inr h)

variable [DecidableEq Record] {accessTokenId : Record → AccessTokenId}

lemma holds_of_removeInDev (h : (s.removeAbilityRecInDevList x).Holds r) : s.Holds r := by
  unfold removeAbilityRecInDevList at h
  split at h
  · rcases h with h | h
    · exact .inl (mem_of_mem_erase h)
    · exact .inr h
  · exact h

lemma holds_of_removeInProc (h : (s.removeAbilityRecInProcList accessTokenId x).Holds r) :
    s.Holds r := by
  unfold removeAbilityRecInProcList at h
  split at h
  · exact h
  rename_i info hinfo
  split at h
  · rcases h with h | ⟨t, info', hf, hr⟩
    · exact .inl h
    · split at hf
      · exact .inr ⟨t, info', (SortedMap.find?_erase_eq_some.1 hf).2, hr⟩
      · refine holds_of_modify (.inr ⟨t, info', hf, hr⟩) fun hm => ?_
        exact .inr ⟨_, info, hinfo, mem_of_mem_erase hm⟩
  · exact h

lemma holds_of_remove (h : (s.remove accessTokenId (some x)).Holds r) : s.Holds r :=
  holds_of_removeInProc (holds_of_removeInDev h)

variable {o : Option Record} {s' : AbilityCacheManager Record}

lemma holds_of_addToProcLru (h : s.addToProcLru accessTokenId x = (o, s')) :
    (∀ v, o = some v → s.Holds v) ∧ ∀ r, s'.Holds r → r = x ∨ s.Holds r := by
  unfold addToProcLru at h
  split at h
  · cases h
    refine ⟨fun _ hv => (nomatch hv), fun r hr => ?_⟩
    rcases hr with hr | ⟨t, info, hf, hr⟩
    · exact .inr (.inl hr)
    · rcases SortedMap.find?_assign_eq_some.1 hf with ⟨-, rfl⟩ | ⟨-, hf⟩
      · exact .inl (mem_singleton.mp hr)
      · exact .inr (.inr ⟨t, info, hf, hr⟩)
  rename_i info hinfo
  split at h
  · split at h
    · cases h
      exact ⟨fun _ hv => (nomatch hv), fun r hr => .inr hr⟩
    · rename_i rec rest hrec
      cases h
      have hold : ∀ r ∈ rec :: rest, s.Holds r := fun r hr => .inr ⟨_, info, hinfo, hrec ▸ hr⟩
      refine ⟨fun v hv => ?_, fun r hr => ?_⟩
      · cases hv
        exact hold _ (mem_cons_self ..)
      · by_cases hx : r = x
        · exact .inl hx
        · right
          refine holds_of_removeInDev (holds_of_modify hr fun hm => ?_)
          rcases mem_append.mp hm with hm | hm
          · unfold removeAbilityRecInDevList
            split <;> exact .inr ⟨_, info, hinfo, hrec ▸ mem_cons_of_mem _ hm⟩
          · exact absurd (mem_singleton.mp hm) hx
  · cases h
    refine ⟨fun _ hv => (nomatch hv), fun r hr => ?_⟩
    by_cases hx : r = x
    · exact .inl hx
    · right
      refine holds_of_modify hr fun hm => ?_
      rcases mem_append.mp hm with hm | hm
      · exact .inr ⟨_, info, hinfo, hm⟩
      · exact absurd (mem_singleton.mp hm) hx

lemma holds_of_addToDevLru {rec : Option Record} (h : s.addToDevLru accessTokenId x rec = (o, s')) :
    (∀ v, o = some v → rec = some v ∨ s.Holds v) ∧ ∀ r, s'.Holds r → r = x ∨ s.Holds r := by
  unfold addToDevLru at h
  split at h
  · cases h
    exact ⟨fun _ hv => .inl hv, fun r hr => holds_of_pushDev hr⟩
  split at h
  · split at h
    · cases h
      exact ⟨fun _ hv => (nomatch hv), fun r hr => .inr hr⟩
    · rename_i v rest hdev
      cases h
      have hold : ∀ r ∈ v :: rest, s.Holds r := fun r hr => .inl (hdev ▸ hr)
      refine ⟨fun w hw => ?_, fun r hr => ?_⟩
      · cases hw
        exact .inr (hold _ (mem_cons_self ..))
      · refine (holds_of_pushDev hr).imp_right fun hp => ?_
        rcases hp with hp | hp
        · exact hold r (mem_cons_of_mem _ hp)
        · exact @holds_of_removeInProc _ _ v r _ accessTokenId (.inr hp)
  · cases h
    exact ⟨fun _ hv => (nomatch hv), fun r hr => holds_of_pushDev hr⟩

lemma holds_of_put (h : s.put accessTokenId (some x) = (o, s')) :
    (∀ v, o = some v → v = x ∨ s.Holds v) ∧ ∀ r, s'.Holds r → r = x ∨ s.Holds r := by
  obtain ⟨o₁, s₁, h₁⟩ : ∃ o₁ s₁, s.addToProcLru accessTokenId x = (o₁, s₁) := ⟨_, _, rfl⟩
  simp only [put, h₁] at h
  obtain ⟨hv, hr⟩ := holds_of_addToProcLru h₁
  obtain ⟨hv', hr'⟩ := holds_of_addToDevLru h
  refine ⟨fun v ho => ?_, fun r hh => (hr' r hh).elim .inl (hr r)⟩
  rcases hv' v ho with ho' | hh
  · exact .inr (hv v ho')
  · exact hr v hh

lemma holds_of_get {request : CacheRequest} {info : Record → RecordInfo}
    (h : s.get request info = (o, s')) :
    (∀ v, o = some v → s.Holds v) ∧ ∀ r, s'.Holds r → s.Holds r := by
  unfold get getAbilityRecInProcList at h
  split at h
  · rename_i heq
    cases h
    split at heq
    · cases heq
      exact ⟨fun _ hv => (nomatch hv), fun r hr => hr⟩
    split at heq
    · cases heq
      exact ⟨fun _ hv => (nomatch hv), fun r hr => hr⟩
    · cases heq
  · rename_i heq
    cases h
    split at heq
    · cases heq
    rename_i procInfo hproc
    split at heq
    · cases heq
    · rename_i hfound
      cases heq
      have hold : ∀ r ∈ procInfo.recList, s.Holds r := fun r hr => .inr ⟨_, procInfo, hproc, hr⟩
      refine ⟨fun v hv => ?_, fun r hr => ?_⟩
      · cases hv
        exact hold _ (mem_of_find?_eq_some hfound)
      · rcases holds_of_removeInDev hr with hd | hd
        · exact .inl hd
        · exact holds_of_modify (.inr hd) fun hm => hold r (mem_of_mem_eraseP hm)

end AbilityCacheManager
end AbilityRuntime
