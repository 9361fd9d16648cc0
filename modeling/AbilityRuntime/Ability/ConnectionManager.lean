import Mathlib.Data.Prod.Lex
import Mathlib.Data.String.Basic
import AbilityRuntime.Library.KeyOrder

/-! The connections of an application, kept by `ConnectionInfo`. -/

namespace AbilityRuntime

/-- The caller and the proxy are pointers; `others` are the fields of the receiver that only its
`operator==` looks at. -/
structure ConnectionInfo (Others : Type) where
  userid : ℤ
  uiServiceExtProxy : ℕ
  connectCaller : ℕ
  bundleName : String
  moduleName : String
  abilityName : String
  others : Others

namespace ConnectionInfo
variable {Others : Type} [DecidableEq Others] (a b : ConnectionInfo Others)

/-- `operator<` -/
def lt : Bool :=
  a.userid < b.userid || a.uiServiceExtProxy < b.uiServiceExtProxy ||
  a.connectCaller < b.connectCaller ||
  (a.connectCaller = b.connectCaller && a.bundleName < b.bundleName) ||
  (a.connectCaller = b.connectCaller && a.bundleName = b.bundleName &&
    a.moduleName < b.moduleName) ||
  (a.connectCaller = b.connectCaller && a.bundleName = b.bundleName &&
    a.moduleName = b.moduleName && a.abilityName < b.abilityName) ||
  (a.connectCaller = b.connectCaller && a.bundleName = b.bundleName &&
    a.moduleName = b.moduleName && a.abilityName = b.abilityName && a.others ≠ b.others)

def receiver : ℕ ×ₗ String ×ₗ String ×ₗ String :=
  toLex (a.connectCaller, toLex (a.bundleName, toLex (a.moduleName, a.abilityName)))

def le : Prop :=
  a.userid ≤ b.userid ∧ a.uiServiceExtProxy ≤ b.uiServiceExtProxy ∧
    (a.receiver < b.receiver ∨ a.receiver = b.receiver ∧ a.others = b.others)

instance : IsPartialOrder (ConnectionInfo Others) le where
  refl a := ⟨le_rfl, le_rfl, .inr ⟨rfl, rfl⟩⟩
  trans a b c hab hbc := by
    refine ⟨hab.1.trans hbc.1, hab.2.1.trans hbc.2.1, ?_⟩
    rcases hab.2.2 with hlt | ⟨hreceiver, hothers⟩
    · exact .inl (hbc.2.2.elim hlt.trans fun heq => heq.1 ▸ hlt)
    · rw [hreceiver, hothers]
      exact hbc.2.2
  antisymm a b hab hba := by
    have hreceiver : a.receiver = b.receiver ∧ a.others = b.others := by
      rcases hab.2.2 with hlt | heq
      · exact absurd hlt (hba.2.2.elim lt_asymm fun heq => heq.1.not_gt)
      · exact heq
    have huser := le_antisymm hab.1 hba.1
    have hproxy := le_antisymm hab.2.1 hba.2.1
    cases a
    cases b
    simp_all [receiver]

lemma lt_iff : lt a b ↔ ¬ le b a := by
  have hreceiver : a.receiver < b.receiver ∨ a.receiver = b.receiver ∧ a.others ≠ b.others ↔
      ¬ (b.receiver < a.receiver ∨ b.receiver = a.receiver ∧ b.others = a.others) := by
    rcases lt_trichotomy a.receiver b.receiver with hlt | heq | hgt
    · simp [hlt, hlt.not_gt, hlt.ne']
    · simp [heq, eq_comm]
    · simp [hgt, hgt.not_gt, hgt.ne']
  rw [le, not_and_or, not_and_or, not_le, not_le, ← hreceiver]
  simp [lt, receiver, Prod.Lex.toLex_lt_toLex, or_assoc, and_assoc, and_or_left]

theorem connectionInfo_orders_iff (infos : Set (ConnectionInfo Others)) :
    KeyOrder.Orders lt infos ↔ ∀ a ∈ infos, ∀ b ∈ infos, le a b ∨ le b a :=
  KeyOrder.orders_iff lt_iff

theorem lt_not_asymm : lt (⟨1, 0, 2, "", "", "", 0⟩ : ConnectionInfo ℕ) ⟨2, 0, 1, "", "", "", 0⟩ ∧
    lt (⟨2, 0, 1, "", "", "", 0⟩ : ConnectionInfo ℕ) ⟨1, 0, 2, "", "", "", 0⟩ ∧
    lt (⟨1, 0, 1, "", "", "", 0⟩ : ConnectionInfo ℕ) ⟨1, 0, 1, "", "", "", 1⟩ ∧
    lt (⟨1, 0, 1, "", "", "", 1⟩ : ConnectionInfo ℕ) ⟨1, 0, 1, "", "", "", 0⟩ := by
  decide

end ConnectionInfo

end AbilityRuntime
