import Topiary.Proofs.Numeral.Nearest
import Topiary.Proofs.Numeral.Order
import Topiary.Proofs.Value.Agreement

set_option autoImplicit false

/-!
# Values as real numbers

A truth value becomes the real number that its whole number becomes. What equals a
positive real number becomes this very number, whatever kind of value it is.
-/

namespace Topiary.Value

open Numeral (Number nearestInt?)

/-! ## Order with real numbers -/

theorem atMost?_iff {left right : Value} {number other : Number}
    (isNumber : left.number? = some number) (isOther : right.number? = some other) :
    left.atMost? right = some true ↔ number.AtMost other := by
  have order : left.order? right = some (number.order? other) := by
    cases left <;> cases isNumber <;> cases right <;> cases isOther <;> simp [order?, number?]
  simp [atMost?, order, Number.AtMost]

theorem atMost?_int {left right : Int} (atMost : left ≤ right) :
    (Value.int left).atMost? (.int right) = some true := by
  refine (atMost?_iff rfl rfl).mpr ?_
  rcases atMost.lt_or_eq with less | equal
  · exact .inl (congrArg some (compare_lt_iff_lt.mpr less))
  · exact .inr (congrArg some (compare_eq_iff_eq.mpr equal))

theorem atMost?_real {left right : Float} (atMost : left ≤ right) :
    (Value.real left).atMost? (.real right) = some true :=
  (atMost?_iff rfl rfl).mpr (Number.order?_of_le atMost)

theorem exists_number_of_atMost? {low : Float} {value : Value}
    (atMost : (Value.real low).atMost? value = some true) :
    ∃ number, value.number? = some number := by
  cases value with
  | bool truth => exact ⟨_, rfl⟩
  | int number => exact ⟨_, rfl⟩
  | real number => exact ⟨_, rfl⟩
  | null | text _ | list _ | dict _ => simp [atMost?, order?, number?] at atMost

theorem toReal_bool (truth : Bool) :
    (Value.bool truth).toReal = (Value.int (if truth then 1 else 0)).toReal := by
  cases truth <;> rfl

theorem toReal_int {number : Int} {nearest : Float}
    (isNearest : nearestInt? number = some nearest) :
    (Value.int number).toReal = .real nearest := by
  simp only [toReal, isNearest]

/-! ## Equality with positive real numbers -/

variable {flag : Bool} {value : Value} {number : Float}

theorem agreesWith_real_iff :
    value.agreesWith flag (.real number) = true ↔
      ∃ given, value.number? = some given ∧ given.agrees flag (.double number) = true := by
  cases value <;> simp [agreesWith, number?]

theorem agreesWith_real_comm :
    (Value.real number).agreesWith flag value = true ↔
      value.agreesWith flag (.real number) = true := by
  rw [agreesWith_real_iff, agreesWith_number_iff rfl]
  apply exists_congr
  intro given
  rw [Number.agrees_iff, Number.agrees_iff]
  constructor
  · rintro ⟨isNumber, same, allowed⟩
    exact ⟨isNumber, same.symm, same ▸ allowed⟩
  · rintro ⟨isNumber, same, allowed⟩
    exact ⟨isNumber, same.symm, same ▸ allowed⟩

/-- A value that equals a positive real number becomes this very number. -/
theorem toReal_of_agreesWith (positive : 0 < number)
    (agree : value.agreesWith flag (.real number) = true) : value.toReal = .real number := by
  obtain ⟨given, isNumber, agree⟩ := agreesWith_real_iff.mp agree
  obtain ⟨same, -⟩ := Number.agrees_iff.mp agree
  cases value with
  | real other =>
      cases isNumber
      rw [toReal, Numeral.eq_of_place? positive same]
  | int whole =>
      cases isNumber
      exact toReal_int (Numeral.nearestInt?_of_place? positive same)
  | bool truth =>
      cases isNumber
      exact (toReal_bool truth).trans (toReal_int (Numeral.nearestInt?_of_place? positive same))
  | null | text _ | list _ | dict _ => cases isNumber

end Topiary.Value
