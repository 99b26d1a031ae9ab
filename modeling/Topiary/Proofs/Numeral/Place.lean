import Mathlib
import Topiary.Numeral.Binary

set_option autoImplicit false

/-!
# Places of numbers

Whole numbers and finite doubles are multiples of the smallest positive double, and so
stand on one common grid; each infinity stands in a place of its own, and a non-number
stands nowhere. Two numbers are equal if they stand in the same place, whatever kinds
they are of.
-/

namespace Topiary.Numeral

/-! ## The grid -/

/-- The grid of the smallest positive double. -/
def grid : Nat := 1074

namespace Binary

theorem scaled_add (value : Binary) {shift : Nat} (enough : value.shift ≤ shift) (more : Nat) :
    value.scaled (shift + more) = value.scaled shift * 2 ^ more := by
  have exponent : (value.exponent + ((shift + more : Nat) : Int)).toNat =
      (value.exponent + shift).toNat + more := by
    rw [Binary.shift] at enough
    omega
  simp only [scaled, exponent, Nat.pow_eq, Nat.pow_add]
  split <;> push_cast <;> ring

/-- Values are compared on any grid that leaves no fraction of either behind. -/
theorem compare_eq_iff {left right : Binary} {shift : Nat} (leftEnough : left.shift ≤ shift)
    (rightEnough : right.shift ≤ shift) :
    left.compare right = .eq ↔ left.scaled shift = right.scaled shift := by
  obtain ⟨more, rfl⟩ := Nat.exists_eq_add_of_le (max_le leftEnough rightEnough)
  rw [compare, Std.compare_eq_iff_eq, scaled_add left (le_max_left _ _),
    scaled_add right (le_max_right _ _)]
  exact (mul_left_inj' (pow_ne_zero more two_ne_zero)).symm

theorem shift_ofInt (number : Int) : (ofInt number).shift ≤ grid := by
  simp [shift, ofInt]

theorem scaled_ofInt (number : Int) (shift : Nat) :
    (ofInt number).scaled shift = number * 2 ^ shift := by
  simp only [scaled, ofInt, Nat.pow_eq, Int.zero_add, Int.toNat_natCast, decide_eq_true_eq]
  split
  · next below =>
    push_cast
    rw [abs_of_neg below]
    ring
  · next above =>
    push_cast
    rw [abs_of_nonneg (Int.not_lt.mp above)]

/-! ## Doubles on the grid -/

/-- The form of a finite double: the leading bit of its significand is set, unless it is one of
the smallest. -/
structure Canonical (value : Binary) : Prop where
  significand_lt : value.significand < 2 ^ 53
  leading : 2 ^ 52 ≤ value.significand ∨ value.exponent = -1074
  exponent_ge : -1074 ≤ value.exponent

theorem Canonical.shift_le {value : Binary} (canonical : value.Canonical) : value.shift ≤ grid := by
  have fine := canonical.exponent_ge
  rw [shift, grid]
  omega

/-- A finite double has its canonical form, and the form has the bits of the double. -/
theorem canonical_of_ofFloat? {number : Float} {exact : Binary}
    (finite : ofFloat? number = some exact) :
    exact.Canonical ∧ number.toBits.toNat = (if exact.negative then 2 ^ 63 else 0) +
      ((exact.exponent + 1074).toNat * 2 ^ 52 + exact.significand) := by
  have bound : number.toBits.toNat < 2 ^ 64 := number.toBits.toNat_lt
  simp only [ofFloat?, Nat.pow_eq] at finite
  generalize number.toBits.toNat = bits at bound finite
  split at finite
  · cases finite
  split at finite
  · next small =>
    cases finite
    refine ⟨⟨?_, .inr rfl, le_rfl⟩, ?_⟩
    · exact (Nat.mod_lt bits (by decide)).trans (by decide)
    · simp only [beq_iff_eq]
      split <;> omega
  -- The leading bit is not among the bits of a normal double; with the exponent it adds up to them.
  · next normal =>
    cases finite
    refine ⟨⟨?_, ?_, ?_⟩, ?_⟩
    all_goals dsimp only
    · omega
    · omega
    · omega
    · simp only [beq_iff_eq]
      split <;> omega

theorem natAbs_scaled (value : Binary) (shift : Nat) :
    (value.scaled shift).natAbs = value.significand * 2 ^ (value.exponent + shift).toNat := by
  rw [scaled, Nat.pow_eq, ← Int.natCast_mul]
  split
  · rw [Int.natAbs_neg, Int.natAbs_natCast]
  · rw [Int.natAbs_natCast]

private theorem power_le {significand other power otherPower : Nat}
    (small : significand < 2 ^ 53) (leading : 2 ^ 52 ≤ other ∨ otherPower = 0)
    (same : significand * 2 ^ power = other * 2 ^ otherPower) : otherPower ≤ power := by
  -- The other significand, shifted further, would be too large for this one.
  by_contra larger
  obtain ⟨more, rfl⟩ := Nat.exists_eq_add_of_lt (Nat.not_le.mp larger)
  have shifted : significand = other * 2 ^ (more + 1) := by
    apply Nat.eq_of_mul_eq_mul_right (Nat.two_pow_pos power)
    rw [same, Nat.mul_assoc, ← Nat.pow_add]
    congr 2
    omega
  have doubled : 2 ^ 1 ≤ 2 ^ (more + 1) := Nat.pow_le_pow_right Nat.two_pos (by omega)
  have large : 2 ^ 52 * 2 ^ 1 ≤ other * 2 ^ (more + 1) :=
    Nat.mul_le_mul (leading.resolve_right (by omega)) doubled
  omega

/-- A place on the grid has one canonical form, but for the sign of zero. -/
theorem Canonical.eq_of_scaled_eq {left right : Binary} (leftCanonical : left.Canonical)
    (rightCanonical : right.Canonical) (same : left.scaled grid = right.scaled grid) :
    left.significand = right.significand ∧ left.exponent = right.exponent ∧
      (left.negative = right.negative ∨ left.significand = 0) := by
  have magnitudes := congrArg Int.natAbs same
  rw [natAbs_scaled, natAbs_scaled] at magnitudes
  have leftFine := leftCanonical.exponent_ge
  have rightFine := rightCanonical.exponent_ge
  have powers : (left.exponent + grid).toNat = (right.exponent + grid).toNat := by
    apply Nat.le_antisymm
    · refine power_le rightCanonical.significand_lt ?_ magnitudes.symm
      exact leftCanonical.leading.imp_right fun smallest => by simp [smallest, grid]
    · refine power_le leftCanonical.significand_lt ?_ magnitudes
      exact rightCanonical.leading.imp_right fun smallest => by simp [smallest, grid]
  have significands : left.significand = right.significand := by
    rw [powers] at magnitudes
    exact Nat.eq_of_mul_eq_mul_right (Nat.two_pow_pos _) magnitudes
  have exponents : left.exponent = right.exponent := by
    rw [grid] at powers
    omega
  refine ⟨significands, exponents, or_iff_not_imp_right.mpr fun nonzero => ?_⟩
  have positive : (0 : Int) < left.significand * 2 ^ (left.exponent + grid).toNat :=
    mul_pos (Int.natCast_pos.mpr (Nat.pos_of_ne_zero nonzero)) (by positivity)
  simp only [scaled, ← significands, ← exponents, Nat.pow_eq] at same
  push_cast at same
  cases leftSign : left.negative <;> cases rightSign : right.negative <;>
    simp only [leftSign, rightSign, if_true, if_false, Bool.false_eq_true] at same ⊢ <;> omega

theorem ofFloat?_nan : ofFloat? Float.nan = none := by decide

theorem ne_nan_of_ofFloat? {number : Float} {exact : Binary}
    (finite : ofFloat? number = some exact) : number ≠ Float.nan := by
  rintro rfl
  nomatch ofFloat?_nan.symm.trans finite

theorem beq_of_scaled_eq {left right : Float} {leftExact rightExact : Binary}
    (leftFinite : ofFloat? left = some leftExact) (rightFinite : ofFloat? right = some rightExact)
    (same : leftExact.scaled grid = rightExact.scaled grid) : (left == right) = true := by
  obtain ⟨leftCanonical, leftBits⟩ := canonical_of_ofFloat? leftFinite
  obtain ⟨rightCanonical, rightBits⟩ := canonical_of_ofFloat? rightFinite
  obtain ⟨significands, exponents, signs⟩ := leftCanonical.eq_of_scaled_eq rightCanonical same
  have zeroBits : leftExact.significand = 0 → (leftExact.exponent + 1074).toNat = 0 := by
    intro zero
    have smallest := leftCanonical.leading.resolve_left (by omega)
    omega
  -- Equal forms have equal bits, but for the sign of zero.
  have equal : left.toBits.toNat = right.toBits.toNat ∨
      (left.toBits.toNat = 0 ∧ right.toBits.toNat = 2 ^ 63) ∨
      (left.toBits.toNat = 2 ^ 63 ∧ right.toBits.toNat = 0) := by
    rw [leftBits, rightBits, ← significands, ← exponents]
    rcases signs with sign | zero
    · exact .inl (by rw [sign])
    · rw [zero, zeroBits zero]
      cases leftExact.negative <;> cases rightExact.negative <;> simp
  refine Float.beq_iff_ne_nan_and_eq.mpr
    ⟨ne_nan_of_ofFloat? leftFinite, ne_nan_of_ofFloat? rightFinite, ?_⟩
  have word : ∀ {number other : Float}, number.toBits.toNat = other.toBits.toNat → number = other :=
    fun same => Float.toBits_inj.mp (UInt64.toNat_inj.mp same)
  rcases equal with equal | ⟨leftZero, rightZero⟩ | ⟨leftZero, rightZero⟩
  · exact .inl (word equal)
  · exact .inr (.inl ⟨word leftZero, word rightZero⟩)
  · exact .inr (.inr ⟨word leftZero, word rightZero⟩)

end Binary

/-! ## Places -/

/-- A place on the grid, or the place of an infinity beyond it. -/
inductive Place where
  | finite (multiple : Int)
  | beyond (infinity : Float)

namespace Number

/-- Where a number stands; a non-number stands nowhere. -/
def place? : Number → Option Place
  | .whole number => some (.finite ((Binary.ofInt number).scaled grid))
  | .double number =>
    match Binary.ofFloat? number with
    | some exact => some (.finite (exact.scaled grid))
    | none => if number.isNaN then none else some (.beyond number)

theorem place?_whole (number : Int) :
    (whole number).place? = some (.finite (number * 2 ^ grid)) := by
  rw [place?, Binary.scaled_ofInt]

theorem place?_cases (number : Float) :
    (number = Float.nan ∧ Binary.ofFloat? number = none ∧ (double number).place? = none) ∨
      (∃ exact, Binary.ofFloat? number = some exact ∧
        (double number).place? = some (.finite (exact.scaled grid))) ∨
      (number ≠ Float.nan ∧ Binary.ofFloat? number = none ∧
        (double number).place? = some (.beyond number)) := by
  rw [place?, Float.isNaN_eq_decide_eq_nan]
  cases finite : Binary.ofFloat? number with
  | some exact => exact .inr (.inl ⟨exact, rfl, rfl⟩)
  | none =>
      by_cases nonNumber : number = Float.nan
      · exact .inl ⟨nonNumber, rfl, if_pos (decide_eq_true nonNumber)⟩
      · exact .inr (.inr ⟨nonNumber, rfl, if_neg (by simpa using nonNumber)⟩)

theorem place?_eq_none_iff (number : Number) :
    number.place? = none ↔ number.isNonNumber = true := by
  cases number with
  | whole number => simp [place?, isNonNumber]
  | double number =>
      rw [isNonNumber, Float.isNaN_eq_decide_eq_nan, decide_eq_true_eq]
      rcases place?_cases number with
        ⟨nonNumber, -, nowhere⟩ | ⟨_, finite, stands⟩ | ⟨isNumber, -, stands⟩
      · exact iff_of_true nowhere nonNumber
      · exact iff_of_false (by simp [stands]) (Binary.ne_nan_of_ofFloat? finite)
      · exact iff_of_false (by simp [stands]) isNumber

theorem place?_of_beq {left right : Float} (equal : (left == right) = true) :
    ∃ place, (double left).place? = some place ∧ (double right).place? = some place := by
  obtain ⟨isNumber, -, rfl | ⟨rfl, rfl⟩ | ⟨rfl, rfl⟩⟩ := Float.beq_iff_ne_nan_and_eq.mp equal
  · obtain ⟨nonNumber, -⟩ | ⟨_, -, stands⟩ | ⟨-, -, stands⟩ := place?_cases left
    · exact absurd nonNumber isNumber
    · exact ⟨_, stands, stands⟩
    · exact ⟨_, stands, stands⟩
  · exact ⟨.finite 0, rfl, rfl⟩
  · exact ⟨.finite 0, rfl, rfl⟩

theorem beq_of_place? {left right : Float} {place : Place}
    (leftPlace : (double left).place? = some place)
    (rightPlace : (double right).place? = some place) : (left == right) = true := by
  obtain ⟨-, -, nowhere⟩ | ⟨_, leftFinite, stands⟩ | ⟨isNumber, -, stands⟩ := place?_cases left
  · nomatch nowhere.symm.trans leftPlace
  all_goals
    cases stands.symm.trans leftPlace
    obtain ⟨-, -, nowhere⟩ | ⟨_, rightFinite, stands⟩ | ⟨-, -, stands⟩ := place?_cases right
  · nomatch nowhere.symm.trans rightPlace
  · have same := stands.symm.trans rightPlace
    rw [Option.some_inj, Place.finite.injEq] at same
    exact Binary.beq_of_scaled_eq leftFinite rightFinite same.symm
  · nomatch stands.symm.trans rightPlace
  · nomatch nowhere.symm.trans rightPlace
  · nomatch stands.symm.trans rightPlace
  · cases stands.symm.trans rightPlace
    exact Float.beq_self_iff.mpr isNumber

/-! ## Equality -/

theorem order?_double_eq_iff {left right : Float} :
    (double left).order? (double right) = some .eq ↔ (left == right) = true := by
  rw [order?]
  constructor
  · intro order
    split at order
    · cases order
    · split at order
      · assumption
      · split at order <;> cases order
  · intro equal
    have notLess : ¬ left < right := by
      intro less
      have isEqual : left.toModel.unpack.compare right.toModel.unpack = some .eq :=
        eq_of_beq equal
      have isLess : left.toModel.unpack.compare right.toModel.unpack = some .lt :=
        eq_of_beq (of_decide_eq_true less)
      nomatch isEqual.symm.trans isLess
    rw [if_neg notLess, if_pos equal]

theorem order?_of_le {left right : Float} (atMost : left ≤ right) :
    (double left).order? (double right) = some .lt ∨
      (double left).order? (double right) = some .eq := by
  have known : (left.toModel.unpack.compare right.toModel.unpack).any (·.isLE) = true :=
    of_decide_eq_true atMost
  obtain ⟨order, compared, isLE⟩ := (Option.any_eq_true _ _).mp known
  cases order with
  | lt =>
      have less : left < right := decide_eq_true (beq_of_eq compared)
      exact .inl (if_pos less)
  | eq =>
      have equal : (left.toModel.unpack.compare right.toModel.unpack == some .eq) = true :=
        beq_iff_eq.mpr compared
      exact .inr (order?_double_eq_iff.mpr equal)
  | gt => cases isLE

theorem isFinite_of_between {low number high : Float} (lowFinite : low.isFinite = true)
    (highFinite : high.isFinite = true) (above : low ≤ number) (below : number ≤ high) :
    number.isFinite = true := by
  have aboveKnown : (low.toModel.unpack.compare number.toModel.unpack).any (·.isLE) = true :=
    of_decide_eq_true above
  have belowKnown : (number.toModel.unpack.compare high.toModel.unpack).any (·.isLE) = true :=
    of_decide_eq_true below
  change low.toModel.unpack.isFinite = true at lowFinite
  change high.toModel.unpack.isFinite = true at highFinite
  change number.toModel.unpack.isFinite = true
  cases known : number.toModel.unpack with
  | zero | finite => rfl
  | notANumber =>
      rw [known] at belowKnown
      cases belowKnown
  | infinity sign =>
      rw [known] at aboveKnown belowKnown
      cases sign with
      | positive =>
          cases highKnown : high.toModel.unpack <;> rw [highKnown] at belowKnown highFinite
          all_goals first | cases belowKnown | cases highFinite
      | negative =>
          cases lowKnown : low.toModel.unpack <;> rw [lowKnown] at aboveKnown lowFinite
          all_goals first | cases aboveKnown | cases lowFinite

theorem orderToWhole?_eq_iff {number : Float} {target : Int} :
    orderToWhole? number target = some .eq ↔
      (double number).place? = (whole target).place? := by
  have somewhere : (whole target).place? = some (.finite ((Binary.ofInt target).scaled grid)) := rfl
  rw [orderToWhole?]
  rcases place?_cases number with
    ⟨rfl, special, nowhere⟩ | ⟨exact, finite, stands⟩ | ⟨isNumber, special, stands⟩
  · simp [special, nowhere, somewhere]
  · rw [finite, stands, somewhere, Option.some_inj, Option.some_inj, Place.finite.injEq]
    exact Binary.compare_eq_iff (Binary.canonical_of_ofFloat? finite).1.shift_le
      (Binary.shift_ofInt target)
  · rw [special, stands, somewhere, Float.isNaN_eq_decide_eq_nan, decide_eq_false isNumber]
    simp only [Bool.false_eq_true, if_false]
    split <;> simp

theorem order?_eq_iff {left right : Number} :
    left.order? right = some .eq ↔ left.place? = right.place? ∧ left.place? ≠ none := by
  cases left with
  | whole left =>
      have somewhere : (whole left).place? ≠ none := nofun
      cases right with
      | whole right =>
          rw [order?, Option.some_inj, Std.compare_eq_iff_eq, place?_whole, place?_whole,
            Option.some_inj, Place.finite.injEq]
          simp
      | double right =>
          rw [order?, Option.map_eq_some_iff]
          simp only [Ordering.swap_eq_eq, exists_eq_right, orderToWhole?_eq_iff]
          exact ⟨fun same => ⟨same.symm, somewhere⟩, fun both => both.1.symm⟩
  | double left =>
      cases right with
      | whole right =>
          have somewhere : (whole right).place? ≠ none := nofun
          rw [order?, orderToWhole?_eq_iff]
          exact ⟨fun same => ⟨same, same ▸ somewhere⟩, fun both => both.1⟩
      | double right =>
          rw [order?_double_eq_iff]
          constructor
          · intro equal
            obtain ⟨place, leftPlace, rightPlace⟩ := place?_of_beq equal
            rw [leftPlace, rightPlace]
            exact ⟨rfl, nofun⟩
          · rintro ⟨same, somewhere⟩
            obtain ⟨place, stands⟩ := Option.ne_none_iff_exists'.mp somewhere
            exact beq_of_place? stands (same ▸ stands)

/-- Where non-numbers count as equal, numbers are equal exactly if they have the same place or
none. -/
theorem agrees_iff {nonNumbersAgree : Bool} {left right : Number} :
    left.agrees nonNumbersAgree right = true ↔
      left.place? = right.place? ∧ (nonNumbersAgree = true ∨ left.place? ≠ none) := by
  rw [agrees, Bool.or_eq_true, Bool.and_eq_true, Bool.and_eq_true, beq_iff_eq, order?_eq_iff,
    ← place?_eq_none_iff, ← place?_eq_none_iff]
  constructor
  · rintro (⟨same, somewhere⟩ | ⟨⟨agree, leftNowhere⟩, rightNowhere⟩)
    · exact ⟨same, .inr somewhere⟩
    · exact ⟨leftNowhere.trans rightNowhere.symm, .inl agree⟩
  · rintro ⟨same, allowed⟩
    by_cases nowhere : left.place? = none
    · exact .inr ⟨⟨allowed.resolve_right (absurd nowhere), nowhere⟩, same ▸ nowhere⟩
    · exact .inl ⟨same, nowhere⟩

theorem agrees_trans {nonNumbersAgree : Bool} {left middle right : Number}
    (first : left.agrees nonNumbersAgree middle = true)
    (second : middle.agrees nonNumbersAgree right = true) :
    left.agrees nonNumbersAgree right = true := by
  rw [agrees_iff] at first second ⊢
  exact ⟨first.1.trans second.1, first.2⟩

end Number

end Topiary.Numeral
