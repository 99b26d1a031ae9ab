import Topiary.Proofs.Growth.Guard

set_option autoImplicit false

/-!
# What the limit of growth promises

The check of the length is right about the final text, also where rules delete symbols or
never apply. It sees nothing of the generations before: a generation can be far longer
than the limit if most of it dies out again. Only the symbols that last are bounded, and
so is every generation under rules that delete nothing.
-/

namespace Topiary.Recipe

/-! ## The final text -/

/-- Counting and writing agree in every generation and fail alike. A final text beyond the limit
is refused with its length, unless a number of the refusal cannot be written out; a drawn tree
has no more segments than the limit allows symbols. -/
theorem grow_guarded (start : String) (rules : Rules) (iterations angle step : Value)
    (limit : Option Int) :
    (Grammar.ofTexts start rules).expansionLength iterations =
        ((Grammar.ofTexts start rules).expansion iterations).map
          (fun symbols => .int symbols.length) ∧
      (∀ generation symbol, (tallyAfter start rules generation).count symbol =
        (symbolsAfter start rules generation).count symbol) ∧
      ∀ count, generations iterations = .ok count →
        let size := (symbolsAfter start rules count).length
        let result := (Recipe.mk (.ofTexts start rules) iterations angle step).grow
          (limit.map .int)
        ((∃ named reached bound, result = .error (.growthLimit named reached bound)) ↔
            boundOf limit < size ∧ Nameable size count (boundOf limit)) ∧
          (result = .error .tooManyDigits ↔
            boundOf limit < size ∧ ¬ Nameable size count (boundOf limit)) ∧
          ∀ tree, result = .ok tree →
            ∃ segments : List (Segment Float),
              tree.traverse.map Branch.segment = Segment.root :: segments ∧
                segments.length ≤ boundOf limit := by
  refine ⟨Grammar.expansionLength_ofTexts start rules iterations,
    fun generation symbol => (tallyAfter_tells start rules generation).count symbol, ?_⟩
  intro count valid size result
  refine ⟨grow_growthLimit_iff valid start rules angle step limit,
    grow_tooManyDigits_iff valid start rules angle step limit, ?_⟩
  intro tree grown
  obtain ⟨segments, walk, number⟩ := exists_segments_of_grow valid grown
  have within : size ≤ boundOf limit :=
    length_le_of_grow valid fun fault failed => nomatch failed.symm.trans grown
  refine ⟨segments, walk, le_trans ?_ within⟩
  rw [number]
  exact Int.ofNat_le.mpr List.count_le_length

/-- A symbol that is deleted and one that doubles, with a limit that is just met. -/
theorem grow_guarded_doubling :
    generations (.int 2) = .ok 2 ∧
      ∃ tree segments,
        (Recipe.mk (.ofTexts "FX" ⟨[("F", "FF"), ("X", "")]⟩) (.int 2) (.int 0) (.int 1)).grow
            (some (.int 4)) = .ok tree ∧
          tree.traverse.map Branch.segment = Segment.root :: segments ∧
          segments.length ≤ (boundOf (some 4)) := by
  have valid : generations (.int 2) = .ok 2 := rfl
  have grown : (Recipe.mk (.ofTexts "FX" ⟨[("F", "FF"), ("X", "")]⟩) (.int 2) (.int 0)
      (.int 1)).grow (some (.int 4)) = .ok _ :=
    (grow_ofTexts valid _ _ _ _ _).trans ((drawTree_eq _ rfl).trans rfl)
  obtain ⟨segments, walk, within⟩ :=
    ((grow_guarded "FX" ⟨[("F", "FF"), ("X", "")]⟩ (.int 2) (.int 0) (.int 1) (some 4)).2.2 2
      valid).2.2 _ grown
  exact ⟨valid, _, segments, grown, walk, within⟩

def tenfold : Rules := ⟨[("F", "FFFFFFFFFF")]⟩

theorem length_symbolsAfter_tenfold (count : Nat) :
    (symbolsAfter "F" tenfold count).length = 10 ^ count := by
  have replacement : successor tenfold.usable 'F' = List.replicate 10 'F' := by decide
  have many : ∀ number, deriveTimes tenfold.usable count (List.replicate number 'F') =
      List.replicate (number * 10 ^ count) 'F' := by
    induction count with
    | zero => simp
    | succ count ih =>
        intro number
        have once : derive tenfold.usable (List.replicate number 'F') =
            List.replicate (number * 10) 'F' := by
          rw [derive, List.flatMap_replicate, replacement, List.flatten_replicate_replicate]
        rw [deriveTimes_succ, once, ih, Nat.pow_succ']
        congr 1
        ring
  have start : "F".toList = List.replicate 1 'F' := rfl
  rw [symbolsAfter, start, many, List.length_replicate, Nat.one_mul]

/-- A text so long that its length cannot be written out is not refused with its length. -/
theorem grow_tenfold :
    boundOf none < (symbolsAfter "F" tenfold 4300).length ∧
      ¬ ∃ named reached bound,
        (Recipe.mk (.ofTexts "F" tenfold) (.int 4300) (.real 22.5) (.real 1.0)).grow none =
          .error (.growthLimit named reached bound) := by
  have huge : 10 ^ digitLimit ≤ (symbolsAfter "F" tenfold 4300).length := by
    have digits : 4300 = digitLimit := rfl
    rw [digits, length_symbolsAfter_tenfold]
  constructor
  · have small : Settings.standard.maxSymbols < 10 ^ 7 := by decide
    have power : 10 ^ 7 ≤ 10 ^ digitLimit := Nat.pow_le_pow_right (by decide) (by decide)
    exact Int.ofNat_lt.mpr (small.trans_le (power.trans huge))
  · intro refused
    have nameable := ((grow_growthLimit_iff rfl _ _ _ _ none).mp refused).2.1
    exact Nat.not_lt.mpr huge nameable

/-! ## The generations before -/

/-- Where the check of the length is passed, the symbols of a generation that last up to the final
one are within the limit, and so is the whole generation under rules that delete nothing. -/
theorem grow_bounds_generations {start : String} {rules : Rules}
    {iterations angle step : Value} {count : Nat} (limit : Option Int)
    (valid : generations iterations = .ok count)
    (passed : ∀ fault, (Recipe.mk (.ofTexts start rules) iterations angle step).grow
      (limit.map .int) = .error fault → fault.OfDrawing)
    {generation : Nat} (early : generation ≤ count) :
    (symbolsAfter start rules generation).countP (lasts rules.usable (count - generation)) ≤
        boundOf limit ∧
      (Lasting rules.usable → (symbolsAfter start rules generation).length ≤ boundOf limit) := by
  have within := length_le_of_grow valid passed
  have final : symbolsAfter start rules count =
      deriveTimes rules.usable (count - generation) (symbolsAfter start rules generation) := by
    rw [symbolsAfter, symbolsAfter, ← deriveTimes_add, Nat.add_sub_cancel' early]
  rw [final] at within
  constructor
  · exact le_trans (Int.ofNat_le.mpr (countP_lasts_le _ _)) within
  · intro lasting
    exact le_trans (Int.ofNat_le.mpr (lasting.length_le _ _)) within

/-- One of two symbols dies out in every generation, and another one takes its place. -/
theorem grow_bounds_generations_replaced :
    (∃ tree, (Recipe.mk (.ofTexts "A" ⟨[("A", "AB"), ("B", "")]⟩) (.int 3) (.int 0) (.int 1)).grow
        (some (.int 2)) = .ok tree) ∧
      (symbolsAfter "A" ⟨[("A", "AB"), ("B", "")]⟩ 2).countP
        (lasts [('A', ['A', 'B']), ('B', [])] 1) ≤ boundOf (some 2) := by
  have valid : generations (.int 3) = .ok 3 := rfl
  have grown : (Recipe.mk (.ofTexts "A" ⟨[("A", "AB"), ("B", "")]⟩) (.int 3) (.int 0)
      (.int 1)).grow (some (.int 2)) = .ok _ :=
    (grow_ofTexts valid _ _ _ _ _).trans ((drawTree_eq _ rfl).trans rfl)
  have passed : ∀ fault, (Recipe.mk (.ofTexts "A" ⟨[("A", "AB"), ("B", "")]⟩) (.int 3) (.int 0)
      (.int 1)).grow (some (.int 2)) = .error fault → fault.OfDrawing :=
    fun fault failed => nomatch failed.symm.trans grown
  have early : 2 ≤ 3 := by decide
  exact ⟨⟨_, grown⟩, (grow_bounds_generations (some 2) valid passed early).1⟩

/-- A limit of two is kept by the empty final text, but not by the three symbols before it. -/
theorem grow_transient :
    (∃ tree, (Recipe.mk (.ofTexts "A" ⟨[("A", "BBB"), ("B", "")]⟩) (.int 2) (.real 22.5)
        (.real 1.0)).grow (some (.int 2)) = .ok tree) ∧
      2 < (symbolsAfter "A" ⟨[("A", "BBB"), ("B", "")]⟩ 1).length := by
  have valid : generations (.int 2) = .ok 2 := rfl
  have grown := (grow_ofTexts valid "A" ⟨[("A", "BBB"), ("B", "")]⟩ (.real 22.5) (.real 1.0)
    (some (.int 2))).trans ((drawTree_eq _ rfl).trans rfl)
  exact ⟨⟨_, grown⟩, by decide⟩

end Topiary.Recipe
