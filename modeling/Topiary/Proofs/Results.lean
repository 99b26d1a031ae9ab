import Topiary.Fault

set_option autoImplicit false

/-!
# Results

An operation succeeds with an outcome or fails with a fault. Two operations agree if
they fail alike or succeed with related outcomes.
-/

namespace Topiary

variable {ε σ τ : Type}

theorem map_eq_ok_iff {f : σ → τ} {result : Except ε σ} {outcome : τ} :
    result.map f = .ok outcome ↔ ∃ value, result = .ok value ∧ f value = outcome := by
  cases result <;> simp [Except.map]

theorem map_eq_error_iff {f : σ → τ} {result : Except Fault σ} {fault : Fault} :
    result.map f = .error fault ↔ result = .error fault := by
  cases result <;> simp [Except.map]

/-- Two results that fail alike, or succeed with related outcomes. -/
inductive Agree (related : σ → τ → Prop) : Except Fault σ → Except Fault τ → Prop where
  | ok {left : σ} {right : τ} : related left right → Agree related (.ok left) (.ok right)
  | error {fault : Fault} : Agree related (.error fault) (.error fault)

namespace Agree

theorem map_self {υ : Type} {related : σ → τ → Prop} {f : υ → σ} {g : υ → τ}
    {result : Except Fault υ}
    (outcomes : ∀ value, result = .ok value → related (f value) (g value)) :
    Agree related (result.map f) (result.map g) := by
  cases result with
  | ok value => exact .ok (outcomes value rfl)
  | error fault => exact .error

theorem map {υ φ : Type} {related : σ → τ → Prop} {other : υ → φ → Prop} {f : σ → υ} {g : τ → φ}
    {result : Except Fault σ} {otherResult : Except Fault τ}
    (agree : Agree related result otherResult)
    (outcomes : ∀ left right, related left right → other (f left) (g right)) :
    Agree other (result.map f) (otherResult.map g) := by
  cases agree with
  | ok outcome => exact .ok (outcomes _ _ outcome)
  | error => exact .error

section

variable {related : σ → τ → Prop} {left : σ} {right : τ} {fault : Fault} {result : Except Fault σ}
  {otherResult : Except Fault τ}

theorem exists_right (agree : Agree related result otherResult) (succeeded : result = .ok left) :
    ∃ right, otherResult = .ok right ∧ related left right := by
  subst succeeded
  cases agree with
  | ok outcome => exact ⟨_, rfl, outcome⟩

theorem exists_left (agree : Agree related result otherResult)
    (succeeded : otherResult = .ok right) : ∃ left, result = .ok left ∧ related left right := by
  subst succeeded
  cases agree with
  | ok outcome => exact ⟨_, rfl, outcome⟩

theorem error_right (agree : Agree related result otherResult) (failed : result = .error fault) :
    otherResult = .error fault := by
  subst failed
  cases agree with
  | error => rfl

end

end Agree

end Topiary
