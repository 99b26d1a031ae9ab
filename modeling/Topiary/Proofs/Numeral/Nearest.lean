import Mathlib
import Topiary.Numeral.Nearest
import Topiary.Proofs.Numeral.Place

set_option autoImplicit false

/-!
# Whole numbers that are doubles

A whole number with the value of a positive double has this very double for its nearest
one: the quotient is cut where the significand of the double ends, and nothing is rounded.
-/

namespace Topiary.Numeral

theorem roundQuotient_mul (significand : Nat) {denominator : Nat} (positive : 0 < denominator) :
    roundQuotient (significand * denominator) denominator = significand := by
  rw [roundQuotient, Nat.mul_mod_left, Nat.mul_div_cancel significand positive]
  exact if_pos positive

/-! ## Cutting without rounding -/

/-- A number that stands on the grid where a significand does, shifted by its exponent. -/
private theorem shifted_eq {number significand : Nat} {exponent : Int}
    (fine : -(grid : Int) ≤ exponent)
    (same : number * 2 ^ grid = significand * 2 ^ (exponent + grid).toNat) :
    number * 2 ^ (-exponent).toNat = significand * 2 ^ exponent.toNat := by
  by_cases above : 0 ≤ exponent
  · have power : (exponent + grid).toNat = exponent.toNat + grid := by omega
    have none : (-exponent).toNat = 0 := by omega
    rw [power, Nat.pow_add, ← Nat.mul_assoc] at same
    rw [none, Nat.pow_zero, Nat.mul_one]
    exact Nat.eq_of_mul_eq_mul_right (Nat.two_pow_pos grid) same
  · have power : grid = (-exponent).toNat + (exponent + grid).toNat := by omega
    have none : exponent.toNat = 0 := by omega
    rw [none, Nat.pow_zero, Nat.mul_one]
    apply Nat.eq_of_mul_eq_mul_right (Nat.two_pow_pos (exponent + grid).toNat)
    rw [Nat.mul_assoc, ← Nat.pow_add, ← power, same]

section Cutting

variable {number significand : Nat} {exponent : Int} (positive : 0 < number)
  (small : significand < 2 ^ 53) (leading : 2 ^ 52 ≤ significand) (fine : -(grid : Int) ≤ exponent)
  (same : number * 2 ^ grid = significand * 2 ^ (exponent + grid).toNat)

include fine same in
private theorem significandOn_eq : significandOn number 1 exponent = significand := by
  rw [significandOn, Nat.one_mul, Nat.pow_eq, Nat.pow_eq, shifted_eq fine same]
  exact roundQuotient_mul significand (Nat.two_pow_pos _)

include positive small leading fine same

private theorem log2_eq : (number.log2 : Int) = exponent + 52 := by
  have upper : number * 2 ^ grid < 2 ^ (53 + (exponent + grid).toNat) := by
    rw [same, Nat.pow_add]
    exact Nat.mul_lt_mul_of_pos_right small (Nat.two_pow_pos _)
  have lower : 2 ^ (52 + (exponent + grid).toNat) ≤ number * 2 ^ grid := by
    rw [same, Nat.pow_add]
    exact Nat.mul_le_mul_right _ leading
  have whole : grid < 53 + (exponent + grid).toNat := by
    apply (Nat.pow_lt_pow_iff_right Nat.one_lt_two).mp
    exact lt_of_le_of_lt (Nat.le_mul_of_pos_left _ positive) upper
  have digits : number.log2 = (exponent + 52).toNat := by
    rw [Nat.log2_eq_iff positive.ne']
    constructor
    · apply Nat.le_of_mul_le_mul_right _ (Nat.two_pow_pos grid)
      rw [← Nat.pow_add]
      exact le_trans (Nat.pow_le_pow_right Nat.two_pos (by omega)) lower
    · apply Nat.lt_of_mul_lt_mul_right (a := 2 ^ grid)
      rw [← Nat.pow_add]
      exact lt_of_lt_of_le upper (Nat.pow_le_pow_right Nat.two_pos (by omega))
  omega

/-- The spacing around the number is the exponent of the double. -/
private theorem spacing_eq : spacing number 1 = exponent := by
  have digits := log2_eq positive small leading fine same
  have one : (1 : Nat).log2 = 0 := by decide
  have guess : (number.log2 : Int) - (1 : Nat).log2 - 53 = exponent - 1 := by
    rw [digits, one]
    omega
  have inside : -(grid : Int) ≤ exponent - 1 := by
    have enough : 53 ≤ grid := by decide
    omega
  -- One bit more than the significand is cut first.
  have doubled : number * 2 ^ grid = 2 * significand * 2 ^ (exponent - 1 + grid).toNat := by
    have power : (exponent + grid).toNat = (exponent - 1 + grid).toNat + 1 := by omega
    rw [same, power, Nat.pow_succ]
    ring
  have whole : number * 2 ^ (-(exponent - 1)).toNat / 2 ^ (exponent - 1).toNat =
      2 * significand := by
    rw [shifted_eq inside doubled]
    exact Nat.mul_div_cancel _ (Nat.two_pow_pos _)
  have notSmall : ¬ 2 * significand < 2 ^ 53 := by omega
  rw [spacing]
  simp only [guess, Nat.one_mul, Nat.pow_eq, whole, if_neg notSmall]
  rw [grid] at fine
  omega

theorem nearestBits_eq (finite : significand + (exponent + grid).toNat * 2 ^ 52 ≤ infinityBits) :
    nearestBits number 1 = significand + (exponent + grid).toNat * 2 ^ 52 := by
  rw [nearestBits, if_neg positive.ne']
  simp only [spacing_eq positive small leading fine same, significandOn_eq fine same, Nat.pow_eq]
  exact Nat.min_eq_right finite

end Cutting

/-! ## Positive doubles -/

open Float.Model Float.Model.UnpackedFloat in
private theorem unpackSign_eq {double : Float} {sign : Sign}
    (known : double.toModel.unpack = .infinity sign ∨
      ∃ mantissa exponent nonzero,
        double.toModel.unpack = .finite sign mantissa exponent nonzero) :
    Sign.ofBitVec (@unpackSign Format.binary64 double.toBits.toBitVec) = sign := by
  rw [Float.Model.unpack, UnpackedFloat.unpack] at known
  dsimp only at known
  split at known
  · split at known
    · rcases known with known | ⟨_, _, _, known⟩ <;> cases known
      rfl
    · rcases known with known | ⟨_, _, _, known⟩ <;> cases known
  · split at known
    · split at known
      · rcases known with known | ⟨_, _, _, known⟩ <;> cases known
      · rcases known with known | ⟨_, _, _, known⟩ <;> cases known
        rfl
    · rcases known with known | ⟨_, _, _, known⟩ <;> cases known
      rfl

open Float.Model Float.Model.UnpackedFloat in
theorem toBits_lt_of_pos {double : Float} (positive : 0 < double) :
    double.toBits.toNat < 2 ^ 63 := by
  have above : (Float.toModel 0).unpack.compare double.toModel.unpack = some .lt :=
    eq_of_beq (of_decide_eq_true positive)
  have zero : (Float.toModel 0).unpack = .zero .positive := rfl
  rw [zero] at above
  have sign : Sign.ofBitVec (@unpackSign Format.binary64 double.toBits.toBitVec) =
      .positive := by
    apply unpackSign_eq
    cases known : double.toModel.unpack with
    | notANumber | zero =>
        rw [known] at above
        cases above
    | infinity sign =>
        rw [known] at above
        cases sign with
        | positive => exact .inl rfl
        | negative => cases above
    | finite sign mantissa exponent nonzero =>
        rw [known] at above
        cases sign with
        | positive => exact .inr ⟨_, _, _, rfl⟩
        | negative => cases above
  have bit := congrArg (fun sign => sign.toBitVec.toNat) sign
  simp only [unpackSign_def, Sign.toBitVec_ofBitVec, BitVec.extractLsb'_toNat] at bit
  have top : double.toBits.toNat >>> 63 % 2 = 0 := bit
  rw [Nat.shiftRight_eq_div_pow] at top
  have bound : double.toBits.toNat < 2 ^ 64 := double.toBits.toNat_lt
  omega

/-- The exact value of a positive double: its bits are its exponent and its significand. -/
private theorem exact_of_pos {double : Float} {exact : Binary} (positive : 0 < double)
    (finite : Binary.ofFloat? double = some exact) :
    exact.negative = false ∧ 0 < exact.significand ∧
      double.toBits.toNat = exact.significand + (exact.exponent + grid).toNat * 2 ^ 52 ∧
      double.toBits.toNat < infinityBits := by
  obtain ⟨canonical, bits⟩ := Binary.canonical_of_ofFloat? finite
  have small := toBits_lt_of_pos positive
  have sign : exact.negative = false := by
    by_contra negative
    rw [Bool.not_eq_false] at negative
    rw [bits, negative, if_pos rfl] at small
    omega
  rw [sign, if_neg Bool.false_ne_true, Nat.zero_add] at bits
  refine ⟨sign, ?_, bits.trans (Nat.add_comm _ _), ?_⟩
  · by_contra zero
    have smallest := canonical.leading.resolve_left (by omega)
    have noBits : double.toBits.toNat = (0 : Float).toBits.toNat := by
      rw [bits, smallest, Nat.eq_zero_of_not_pos zero]
      rfl
    rw [Float.toBits_inj.mp (UInt64.toNat_inj.mp noBits)] at positive
    revert positive
    decide
  · by_contra large
    simp only [Binary.ofFloat?, Nat.pow_eq] at finite
    rw [infinityBits, Nat.pow_eq] at large
    rw [if_pos (by omega)] at finite
    cases finite

/-- Only whole numbers below the smallest normal double lack the leading bit, and there are none
but zero. -/
private theorem leading_of_whole {exact : Binary} {number : Nat} (canonical : exact.Canonical)
    (positive : 0 < number)
    (same : number * 2 ^ grid = exact.significand * 2 ^ (exact.exponent + grid).toNat) :
    2 ^ 52 ≤ exact.significand := by
  refine canonical.leading.resolve_right fun smallest => ?_
  have none : (exact.exponent + grid).toNat = 0 := by
    rw [smallest]
    rfl
  rw [none, Nat.pow_zero, Nat.mul_one] at same
  have huge : 2 ^ 53 ≤ number * 2 ^ grid :=
    le_trans (Nat.pow_le_pow_right Nat.two_pos (by decide)) (Nat.le_mul_of_pos_left _ positive)
  exact absurd canonical.significand_lt (Nat.not_lt.mpr (same ▸ huge))

/-- The double nearest to a whole number with the value of a positive double is this double. -/
theorem nearestInt?_of_place? {number : Int} {double : Float} (positive : 0 < double)
    (same : (Number.whole number).place? = (Number.double double).place?) :
    nearestInt? number = some double := by
  rw [Number.place?_whole] at same
  obtain ⟨-, -, nowhere⟩ | ⟨exact, finite, stands⟩ | ⟨-, -, stands⟩ := Number.place?_cases double
  · nomatch same.trans nowhere
  · rw [stands, Option.some_inj, Place.finite.injEq] at same
    obtain ⟨sign, significandPositive, bits, bounded⟩ := exact_of_pos positive finite
    obtain ⟨canonical, -⟩ := Binary.canonical_of_ofFloat? finite
    simp only [Binary.scaled, sign, Bool.false_eq_true, if_false, Nat.pow_eq] at same
    have numberPositive : 0 < number := by
      have scaledPositive : 0 < number * 2 ^ grid := by
        rw [same]
        exact mul_pos (Int.natCast_pos.mpr significandPositive) (by positivity)
      exact pos_of_mul_pos_left scaledPositive (by positivity)
    obtain ⟨natural, rfl⟩ := Int.eq_ofNat_of_zero_le numberPositive.le
    have sameNatural : natural * 2 ^ grid =
        exact.significand * 2 ^ (exact.exponent + grid).toNat := by exact_mod_cast same
    have naturalPositive : 0 < natural := Int.natCast_pos.mp numberPositive
    have leading := leading_of_whole canonical naturalPositive sameNatural
    have nearestIs : nearestBits natural 1 = double.toBits.toNat := by
      rw [bits] at bounded ⊢
      exact nearestBits_eq naturalPositive canonical.significand_lt leading
        canonical.exponent_ge sameNatural bounded.le
    have notNegative : ¬ (natural : Int) < 0 := by omega
    rw [nearestInt?, Int.natAbs_natCast, nearestIs, if_neg bounded.ne, nearest,
      decide_eq_false notNegative, nearestIs]
    simp
  · rw [stands] at same
    cases same

theorem exists_place_of_pos {number : Float} (positive : 0 < number) :
    ∃ place, (Number.double number).place? = some place := by
  obtain ⟨rfl, -, -⟩ | ⟨_, -, stands⟩ | ⟨-, -, stands⟩ := Number.place?_cases number
  · exact absurd positive (by decide)
  · exact ⟨_, stands⟩
  · exact ⟨_, stands⟩

theorem eq_of_place? {number other : Float} (positive : 0 < number)
    (same : (Number.double other).place? = (Number.double number).place?) : other = number := by
  obtain ⟨place, stands⟩ := exists_place_of_pos positive
  have equal := Number.beq_of_place? (same.trans stands) stands
  obtain ⟨-, -, rfl | ⟨-, rfl⟩ | ⟨-, rfl⟩⟩ := Float.beq_iff_ne_nan_and_eq.mp equal
  · rfl
  · exact absurd positive (by decide)
  · exact absurd positive (by decide)

end Topiary.Numeral
