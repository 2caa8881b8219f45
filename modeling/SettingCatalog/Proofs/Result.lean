import Mathlib.Tactic.Lemma

/-! Computations that may fail, seen from their results. -/

namespace SettingCatalog

variable {ε α β : Type}

lemma ok_of_bind {step : Except ε α} {next : α → Except ε β} {result : β} :
    step >>= next = .ok result ↔ ∃ a, step = .ok a ∧ next a = .ok result := by
  cases step <;> simp [bind, Except.bind]

lemma error_of_bind {step : Except ε α} {next : α → Except ε β} {e : ε} :
    step >>= next = .error e ↔ step = .error e ∨ ∃ a, step = .ok a ∧ next a = .error e := by
  cases step <;> simp [bind, Except.bind]

lemma ok_of_pure {a b : α} : (pure a : Except ε α) = .ok b ↔ a = b := by
  simp [pure, Except.pure]

lemma pure_ne_error {a : α} {e : ε} : (pure a : Except ε α) ≠ .error e := by
  simp [pure, Except.pure]

lemma exists_ok_of_isOk {step : Except ε α} (h : step.isOk = true) : ∃ a, step = .ok a := by
  cases step with
  | error e => cases h
  | ok a => exact ⟨a, rfl⟩

end SettingCatalog
