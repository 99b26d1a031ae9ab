import Topiary.Proofs.Numeral.Place

set_option autoImplicit false

/-!
# The order of numbers

Where a double does not stand after a number, it is at most this number: as a double if
the number is one, and on their common grid if the number is whole.
-/

namespace Topiary.Numeral

namespace Number

def AtMost (left right : Number) : Prop :=
  left.order? right = some .lt ∨ left.order? right = some .eq

theorem le_of_atMost {left right : Float} (atMost : AtMost (.double left) (.double right)) :
    left ≤ right := by
  have isLE : (left.toModel.unpack.compare right.toModel.unpack).any (·.isLE) = true := by
    rcases atMost with less | equal
    · rw [order?] at less
      split at less
      · next below =>
        have compared : left.toModel.unpack.compare right.toModel.unpack = some .lt :=
          eq_of_beq (of_decide_eq_true below)
        rw [compared]
        rfl
      · split at less
        · cases less
        · split at less <;> cases less
    · have compared : left.toModel.unpack.compare right.toModel.unpack = some .eq :=
        eq_of_beq (order?_double_eq_iff.mp equal)
      rw [compared]
      rfl
  exact decide_eq_true isLE

theorem orderToWhole?_of_ofFloat? {number : Float} {exact : Binary}
    (finite : Binary.ofFloat? number = some exact) (target : Int) :
    orderToWhole? number target =
      some (compare (exact.scaled exact.shift) (target * 2 ^ exact.shift)) := by
  have common : max exact.shift (Binary.ofInt target).shift = exact.shift :=
    Nat.max_eq_left (Nat.zero_le _)
  rw [orderToWhole?, finite]
  simp only [Binary.compare, common, Binary.scaled_ofInt]

theorem le_of_atMost_whole {low : Float} {exact : Binary} {number : Int}
    (finite : Binary.ofFloat? low = some exact) (atMost : AtMost (.double low) (.whole number)) :
    exact.scaled exact.shift ≤ number * 2 ^ exact.shift := by
  rw [AtMost, order?, orderToWhole?_of_ofFloat? finite, Option.some_inj, Option.some_inj] at atMost
  rcases atMost with less | equal
  · exact (compare_lt_iff_lt.mp less).le
  · exact (compare_eq_iff_eq.mp equal).le

theorem le_of_whole_atMost {high : Float} {exact : Binary} {number : Int}
    (finite : Binary.ofFloat? high = some exact) (atMost : AtMost (.whole number) (.double high)) :
    number * 2 ^ exact.shift ≤ exact.scaled exact.shift := by
  rw [AtMost, order?, orderToWhole?_of_ofFloat? finite, Option.map_some, Option.some_inj,
    Option.some_inj] at atMost
  rcases atMost with less | equal
  · exact (compare_gt_iff_gt.mp (Ordering.swap_eq_lt.mp less)).le
  · exact (compare_eq_iff_eq.mp (Ordering.swap_eq_eq.mp equal)).ge

end Number

theorem pos_of_le {low number : Float} (positive : 0 < low) (above : low ≤ number) :
    0 < number := by
  have aboveKnown : (low.toModel.unpack.compare number.toModel.unpack).any (·.isLE) = true :=
    of_decide_eq_true above
  have positiveKnown : (Float.toModel 0).unpack.compare low.toModel.unpack = some .lt :=
    eq_of_beq (of_decide_eq_true positive)
  have zero : (Float.toModel 0).unpack = .zero .positive := rfl
  have compared : (Float.toModel 0).unpack.compare number.toModel.unpack = some .lt := by
    rw [zero] at positiveKnown ⊢
    cases lowKnown : low.toModel.unpack with
    | notANumber | zero =>
        rw [lowKnown] at positiveKnown
        cases positiveKnown
    | infinity sign | finite sign =>
        rw [lowKnown] at positiveKnown aboveKnown
        cases sign with
        | negative => cases positiveKnown
        | positive =>
            cases known : number.toModel.unpack with
            | notANumber | zero =>
                rw [known] at aboveKnown
                cases aboveKnown
            | infinity sign | finite sign =>
                rw [known] at aboveKnown
                cases sign with
                | negative => cases aboveKnown
                | positive => rfl
  exact decide_eq_true (beq_of_eq compared)

end Topiary.Numeral
