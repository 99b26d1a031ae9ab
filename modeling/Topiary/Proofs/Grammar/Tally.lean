import Mathlib.Algebra.BigOperators.Ring.List
import Mathlib.Tactic.Ring
import Topiary.Grammar.Expansion
import Topiary.Proofs.Grammar.Derivation

set_option autoImplicit false

/-!
# Tallies and texts

A tally forgets the order of symbols, but not what they weigh: under every weight of
single symbols it weighs as much as the text it was made from. Counting is additive, so
this is kept from generation to generation. Weights that single out one symbol give its
number of occurrences, and the constant weight gives the length.
-/

namespace Topiary

namespace Tally

def weigh (weight : Char → Nat) (tally : Tally) : Nat :=
  (tally.map fun entry => entry.2 * weight entry.1).sum

@[simp] theorem weigh_nil (weight : Char → Nat) : weigh weight [] = 0 := rfl

@[simp] theorem weigh_cons (weight : Char → Nat) (entry : Char × Nat) (rest : Tally) :
    weigh weight (entry :: rest) = entry.2 * weight entry.1 + weigh weight rest := rfl

variable {weight : Char → Nat}

theorem weigh_add (tally : Tally) (symbol : Char) (more : Nat) :
    weigh weight (tally.add symbol more) = weigh weight tally + more * weight symbol := by
  induction tally with
  | nil => simp [add]
  | cons entry rest ih =>
      obtain ⟨other, number⟩ := entry
      by_cases same : other = symbol
      · subst same
        simp only [add, ↓reduceIte, weigh_cons]
        ring
      · simp only [add, if_neg same, weigh_cons, ih]
        omega

/-- A tally that is put together step by step weighs what each step adds. -/
theorem weigh_foldl {σ : Type} {step : Tally → σ → Tally} {amount : σ → Nat}
    (adds : ∀ sum item, weigh weight (step sum item) = weigh weight sum + amount item)
    (items : List σ) (sum : Tally) :
    weigh weight (items.foldl step sum) = weigh weight sum + (items.map amount).sum := by
  induction items generalizing sum with
  | nil => rfl
  | cons item rest ih => rw [List.foldl_cons, ih, adds, List.map_cons, List.sum_cons, Nat.add_assoc]

theorem weigh_addTimes (tally : Tally) (times : Nat) (other : Tally) :
    weigh weight (tally.addTimes times other) =
      weigh weight tally + times * weigh weight other := by
  have adds : ∀ (sum : Tally) (entry : Char × Nat),
      weigh weight (sum.add entry.1 (times * entry.2)) =
        weigh weight sum + times * (entry.2 * weight entry.1) := by
    intro sum entry
    rw [weigh_add, Nat.mul_assoc]
  rw [addTimes, weigh_foldl adds, List.sum_map_mul_left]
  rfl

theorem weigh_ofSymbols (symbols : List Char) :
    weigh weight (ofSymbols symbols) = (symbols.map weight).sum := by
  have adds : ∀ (sum : Tally) (symbol : Char),
      weigh weight (sum.add symbol 1) = weigh weight sum + weight symbol := by
    intro sum symbol
    rw [weigh_add, Nat.one_mul]
  rw [ofSymbols, weigh_foldl adds, weigh_nil, Nat.zero_add]

/-! ## One generation -/

theorem lookup_productions (usable : List (Char × List Char)) (symbol : Char) :
    (productions usable).lookup symbol = (usable.lookup symbol).map ofSymbols := by
  induction usable with
  | nil => rfl
  | cons rule rest ih =>
      obtain ⟨key, replacement⟩ := rule
      rw [productions, List.map_cons, List.lookup_cons, List.lookup_cons]
      cases symbol == key with
      | true => rfl
      | false => exact ih

theorem weigh_next (usable : List (Char × List Char)) (tally : Tally) :
    weigh weight (next (productions usable) tally) =
      weigh (fun symbol => ((successor usable symbol).map weight).sum) tally := by
  refine (weigh_foldl ?_ tally []).trans (Nat.zero_add _)
  intro sum entry
  dsimp only
  rw [lookup_productions, successor]
  cases usable.lookup entry.1 with
  | none =>
      simp only [Option.map_none, Option.getD_none, weigh_add, List.map_singleton,
        List.sum_singleton]
  | some replacement =>
      simp only [Option.map_some, Option.getD_some, weigh_addTimes, weigh_ofSymbols]

/-! ## Symbols are listed once -/

def Distinct (tally : Tally) : Prop :=
  (tally.map Prod.fst).Nodup

theorem distinct_nil : Distinct [] :=
  List.nodup_nil

theorem mem_add_iff {tally : Tally} {symbol other : Char} {more : Nat} :
    other ∈ (tally.add symbol more).map Prod.fst ↔
      other = symbol ∨ other ∈ tally.map Prod.fst := by
  induction tally with
  | nil => simp [add]
  | cons entry rest ih =>
      obtain ⟨first, number⟩ := entry
      by_cases same : first = symbol
      · subst same
        simp [add]
      · simp only [add, if_neg same, List.map_cons, List.mem_cons, ih]
        tauto

theorem Distinct.add {tally : Tally} (distinct : Distinct tally) (symbol : Char) (more : Nat) :
    Distinct (tally.add symbol more) := by
  induction tally with
  | nil => simp [Distinct, Tally.add]
  | cons entry rest ih =>
      obtain ⟨first, number⟩ := entry
      obtain ⟨unlisted, distinctRest⟩ := List.nodup_cons.mp distinct
      by_cases same : first = symbol
      · subst same
        rw [Tally.add, if_pos rfl]
        exact distinct
      · rw [Tally.add, if_neg same]
        refine List.nodup_cons.mpr ⟨fun member => ?_, ih distinctRest⟩
        rcases mem_add_iff.mp member with rfl | old
        · exact same rfl
        · exact unlisted old

theorem Distinct.addTimes {tally : Tally} (distinct : Distinct tally) (times : Nat)
    (other : Tally) : Distinct (tally.addTimes times other) :=
  List.foldlRecOn other _ distinct fun _ before entry _ => before.add entry.1 _

theorem distinct_ofSymbols (symbols : List Char) : Distinct (ofSymbols symbols) :=
  List.foldlRecOn symbols _ distinct_nil fun _ before symbol _ => before.add symbol 1

theorem distinct_next (productions : List (Char × Tally)) (tally : Tally) :
    Distinct (next productions tally) := by
  refine List.foldlRecOn tally _ distinct_nil fun sum before entry _ => ?_
  cases productions.lookup entry.1 with
  | some replacement => exact before.addTimes entry.2 replacement
  | none => exact before.add entry.1 entry.2

theorem count_eq_weigh {tally : Tally} (distinct : Distinct tally) (symbol : Char) :
    tally.count symbol = weigh (fun other => if other = symbol then 1 else 0) tally := by
  induction tally with
  | nil => rfl
  | cons entry rest ih =>
      obtain ⟨first, number⟩ := entry
      obtain ⟨unlisted, distinctRest⟩ := List.nodup_cons.mp distinct
      have further := ih distinctRest
      rw [count, List.lookup_cons, weigh_cons]
      by_cases same : first = symbol
      · subst same
        have absent : count rest first = 0 := by
          have missing : List.lookup first rest = none :=
            List.lookup_eq_none_iff.mpr fun other member =>
              bne_iff_ne.mpr fun (equal : first = other.1) =>
                unlisted (List.mem_map.mpr ⟨other, member, equal.symm⟩)
          rw [count, missing, Option.getD_none]
        rw [← further, absent]
        simp
      · have different : (symbol == first) = false := beq_false_of_ne (Ne.symm same)
        rw [different, if_neg same, Nat.mul_zero, Nat.zero_add, ← further]
        rfl

theorem total_eq_weigh (tally : Tally) : tally.total = weigh (fun _ => 1) tally := by
  simp [total, weigh, List.sum_eq_foldl, List.foldl_map]

private theorem sum_indicator (text : List Char) (symbol : Char) :
    (text.map fun other => if other = symbol then 1 else 0).sum = text.count symbol := by
  induction text with
  | nil => rfl
  | cons first rest ih =>
      rw [List.map_cons, List.sum_cons, ih, List.count_cons, Nat.add_comm]
      simp only [beq_iff_eq]

/-! ## All generations -/

/-- A tally of the symbols of a text. -/
structure Tells (tally : Tally) (text : List Char) : Prop where
  distinct : Distinct tally
  weighs : ∀ weight, weigh weight tally = (text.map weight).sum

namespace Tells

variable {tally : Tally} {text : List Char}

theorem ofSymbols (text : List Char) : Tells (Tally.ofSymbols text) text :=
  ⟨distinct_ofSymbols text, fun _ => weigh_ofSymbols text⟩

theorem next (tells : Tells tally text) (usable : List (Char × List Char)) :
    Tells (Tally.next (productions usable) tally) (derive usable text) where
  distinct := distinct_next _ _
  weighs weight := by
    rw [weigh_next, tells.weighs, derive, List.map_flatMap, List.flatMap_def, List.sum_flatten,
      List.map_map]
    rfl

theorem nextTimes (tells : Tells tally text) (usable : List (Char × List Char))
    (generations : Nat) :
    Tells (Tally.nextTimes (productions usable) generations tally)
      (deriveTimes usable generations text) := by
  induction generations generalizing tally text with
  | zero => exact tells
  | succ generations ih => exact ih (tells.next usable)

theorem count (tells : Tells tally text) (symbol : Char) :
    tally.count symbol = text.count symbol := by
  rw [count_eq_weigh tells.distinct, tells.weighs, sum_indicator]

theorem total (tells : Tells tally text) : tally.total = text.length := by
  rw [total_eq_weigh, tells.weighs]
  simp

end Tells

end Tally

/-- After every generation the tally counts the symbols of the text. -/
theorem tallyAfter_tells (start : String) (rules : Rules) (count : Nat) :
    (tallyAfter start rules count).Tells (symbolsAfter start rules count) :=
  (Tally.Tells.ofSymbols start.toList).nextTimes rules.usable count

end Topiary
