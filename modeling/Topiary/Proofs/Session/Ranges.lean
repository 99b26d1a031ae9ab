import Topiary.Proofs.Results
import Topiary.Proofs.Value.Reals
import Topiary.Session.Basic

set_option autoImplicit false

/-!
# Parameters in their ranges

A parameter that has passed the check of its range and has become a real number is still
between the bounds, also where a whole number or a truth value was given.
-/

namespace Topiary

open Numeral (Binary Number nearestInt?)

theorem checkBounds_eq_ok {name : String} {value checked low high : Value}
    (passed : checkBounds name value [low, high] = .ok checked) :
    checked = value ∧ low.atMost? value = some true ∧ value.atMost? high = some true := by
  rw [checkBounds] at passed
  split at passed
  · cases passed
  · cases passed
  · next above =>
    split at passed
    · cases passed
    · cases passed
    · next below =>
      cases passed
      exact ⟨rfl, above, below⟩

/-! ## Real numbers in a range -/

/-- Every whole number between the bounds becomes a real number between them. -/
def WholesFit (low high : Float) : Prop :=
  ∀ number : Int, (Number.double low).AtMost (.whole number) →
    (Number.whole number).AtMost (.double high) →
      ∃ nearest, nearestInt? number = some nearest ∧ low ≤ nearest ∧ nearest ≤ high

/-- It is enough to look at the whole numbers between two whole bounds. -/
theorem WholesFit.of_all {low high : Float} {least : Int} {count : Nat}
    (bounded : ∀ number : Int, (Number.double low).AtMost (.whole number) →
      (Number.whole number).AtMost (.double high) → least ≤ number ∧ number < least + count)
    (fit : ∀ offset < count, ((nearestInt? (least + offset)).any fun nearest =>
      decide (low ≤ nearest) && decide (nearest ≤ high)) = true) : WholesFit low high := by
  intro number above below
  obtain ⟨atLeast, lessThan⟩ := bounded number above below
  obtain ⟨offset, rfl⟩ := Int.le.dest atLeast
  obtain ⟨nearest, isNearest, inside⟩ :=
    (Option.any_eq_true _ _).mp (fit offset (by omega))
  rw [Bool.and_eq_true, decide_eq_true_eq, decide_eq_true_eq] at inside
  exact ⟨nearest, isNearest, inside⟩

theorem WholesFit.exists_real {low high : Float} (fit : WholesFit low high) {value : Value}
    (aboveLow : (Value.real low).atMost? value = some true)
    (belowHigh : value.atMost? (.real high) = some true) :
    ∃ number, value.toReal = .real number ∧ low ≤ number ∧ number ≤ high := by
  obtain ⟨given, isNumber⟩ := Value.exists_number_of_atMost? aboveLow
  have above := (Value.atMost?_iff rfl isNumber).mp aboveLow
  have below := (Value.atMost?_iff isNumber rfl).mp belowHigh
  cases value with
  | real number =>
      cases isNumber
      exact ⟨number, rfl, Number.le_of_atMost above, Number.le_of_atMost below⟩
  | int number =>
      cases isNumber
      obtain ⟨nearest, isNearest, inside⟩ := fit number above below
      exact ⟨nearest, Value.toReal_int isNearest, inside⟩
  | bool truth =>
      cases isNumber
      obtain ⟨nearest, isNearest, inside⟩ := fit _ above below
      exact ⟨nearest, (Value.toReal_bool truth).trans (Value.toReal_int isNearest), inside⟩
  | null | text _ | list _ | dict _ => cases isNumber

/-! ## Parameters of a session -/

namespace Session

variable {name : String} {value checked : Value}

theorem realInRange_eq_ok {low high : Float} (fit : WholesFit low high)
    (passed : realInRange name value ⟨.real low, .real high⟩ = .ok checked) :
    ∃ number, checked = .real number ∧ low ≤ number ∧ number ≤ high := by
  rw [realInRange, Bounds.toList] at passed
  cases bounded : checkBounds name value [.real low, .real high] with
  | error fault => simp [bounded] at passed
  | ok same =>
      obtain ⟨rfl, above, below⟩ := checkBounds_eq_ok bounded
      obtain ⟨number, real, inside⟩ := fit.exists_real above below
      simp only [bounded, Value.asReal, real, Except.map, Except.ok.injEq] at passed
      exact ⟨number, passed.symm, inside⟩

theorem wholesFit_angle : WholesFit 10.0 45.0 := by
  refine @WholesFit.of_all 10.0 45.0 10 36 ?_ (by decide)
  intro number above below
  have lowFinite : Binary.ofFloat? 10.0 = some ⟨false, 10 * 2 ^ 49, -49⟩ := rfl
  have highFinite : Binary.ofFloat? 45.0 = some ⟨false, 45 * 2 ^ 47, -47⟩ := rfl
  have lower : 10 * 2 ^ 49 ≤ number * 2 ^ 49 := Number.le_of_atMost_whole lowFinite above
  have upper : number * 2 ^ 47 ≤ 45 * 2 ^ 47 := Number.le_of_whole_atMost highFinite below
  omega

theorem wholesFit_step : WholesFit 0.5 2.0 := by
  refine @WholesFit.of_all 0.5 2.0 1 2 ?_ (by decide)
  intro number above below
  have lowFinite : Binary.ofFloat? 0.5 = some ⟨false, 2 ^ 52, -53⟩ := rfl
  have highFinite : Binary.ofFloat? 2.0 = some ⟨false, 2 ^ 52, -51⟩ := rfl
  have lower : 2 ^ 52 ≤ number * 2 ^ 53 := Number.le_of_atMost_whole lowFinite above
  have upper : number * 2 ^ 51 ≤ 2 ^ 52 := Number.le_of_whole_atMost highFinite below
  omega

theorem wholesFit_thickness : WholesFit 0.5 2.5 := by
  refine @WholesFit.of_all 0.5 2.5 1 2 ?_ (by decide)
  intro number above below
  have lowFinite : Binary.ofFloat? 0.5 = some ⟨false, 2 ^ 52, -53⟩ := rfl
  have highFinite : Binary.ofFloat? 2.5 = some ⟨false, 5 * 2 ^ 50, -51⟩ := rfl
  have lower : 2 ^ 52 ≤ number * 2 ^ 53 := Number.le_of_atMost_whole lowFinite above
  have upper : number * 2 ^ 51 ≤ 5 * 2 ^ 50 := Number.le_of_whole_atMost highFinite below
  omega

theorem exists_pos_of_angle
    (passed : realInRange name value Settings.standard.angleRange = .ok checked) :
    ∃ number : Float, checked = .real number ∧ 0 < number := by
  obtain ⟨number, isReal, above, -⟩ := realInRange_eq_ok wholesFit_angle passed
  exact ⟨number, isReal, Numeral.pos_of_le (by decide) above⟩

theorem exists_pos_of_stepSize
    (passed : realInRange name value Settings.standard.stepRange = .ok checked) :
    ∃ number : Float, checked = .real number ∧ 0 < number := by
  obtain ⟨number, isReal, above, -⟩ := realInRange_eq_ok wholesFit_step passed
  exact ⟨number, isReal, Numeral.pos_of_le (by decide) above⟩

end Session

end Topiary
