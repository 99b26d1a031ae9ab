import Mathlib.Data.List.Basic
import Topiary.Grammar.Expansion
import Topiary.Proofs.Grammar.Agreement
import Topiary.Proofs.Grammar.Derivation

set_option autoImplicit false

/-!
# Expansion rewrites every symbol by itself

What a symbol becomes depends neither on its neighbours nor on its position, and all
symbols are replaced at once. So a text can be expanded piece by piece, and the
generations can be counted in parts or from the first one on.
-/

namespace Topiary

def expanded (start : String) (rules : Rules) (count : Nat) : String :=
  String.ofList (symbolsAfter start rules count)

namespace Rules

def replacement (rules : Rules) (symbol : Char) : String :=
  (rules.productions.lookup (String.singleton symbol)).getD (String.singleton symbol)

/-- The rules whose keys are single characters. -/
def single (rules : Rules) : Rules :=
  ⟨rules.productions.filter fun production => production.1.length = 1⟩

theorem toList_replacement (rules : Rules) (symbol : Char) :
    (rules.replacement symbol).toList = successor rules.usable symbol := by
  rw [successor, lookup_usable, replacement, String.singleton_eq_ofList]
  cases rules.productions.lookup (String.ofList [symbol]) with
  | none => exact String.toList_ofList
  | some text => rfl

theorem usable_single (rules : Rules) : rules.single.usable = rules.usable := by
  rw [usable, usable, single, List.filterMap_filter]
  apply List.filterMap_congr
  rintro ⟨key, replacement⟩ -
  split
  · rfl
  · next notSingle =>
    cases known : symbol? key with
    | none => simp only [known, Option.map_none]
    | some symbol =>
        rw [symbol?_eq_some_iff.mp known] at notSingle
        simp at notSingle

end Rules

theorem deriveTimes_flatMap (usable : List (Char × List Char)) (count : Nat)
    (symbols : List Char) :
    deriveTimes usable count symbols =
      symbols.flatMap fun symbol => deriveTimes usable count [symbol] := by
  induction symbols with
  | nil => exact deriveTimes_nil usable count
  | cons symbol rest ih => rw [deriveTimes_cons, ih, List.flatMap_cons]

theorem deriveTimes_succ_single (usable : List (Char × List Char)) (count : Nat) (symbol : Char) :
    deriveTimes usable (count + 1) [symbol] =
      deriveTimes usable count (successor usable symbol) := by
  rw [deriveTimes_succ, derive_cons, derive_nil, List.append_nil]

theorem deriveTimes_fixed {usable : List (Char × List Char)} {symbol : Char}
    (kept : successor usable symbol = [symbol]) (count : Nat) :
    deriveTimes usable count [symbol] = [symbol] := by
  induction count with
  | zero => rfl
  | succ count ih => rw [deriveTimes_succ_single, kept, ih]

/-! ## Texts -/

theorem toList_expanded (start : String) (rules : Rules) (count : Nat) :
    (expanded start rules count).toList = deriveTimes rules.usable count start.toList :=
  String.toList_ofList

theorem expanded_append (first second : String) (rules : Rules) (count : Nat) :
    expanded (first ++ second) rules count =
      expanded first rules count ++ expanded second rules count := by
  rw [← String.toList_inj]
  simp only [toList_expanded, String.toList_append, deriveTimes_append]

theorem expanded_expanded (start : String) (rules : Rules) (count more : Nat) :
    expanded (expanded start rules count) rules more = expanded start rules (count + more) := by
  rw [← String.toList_inj]
  simp only [toList_expanded, deriveTimes_add]

theorem expanded_succ (start : String) (rules : Rules) (count : Nat) :
    (expanded start rules (count + 1)).toList =
      start.toList.flatMap fun symbol => (expanded (rules.replacement symbol) rules count).toList := by
  rw [toList_expanded, deriveTimes_flatMap]
  apply List.flatMap_congr
  intro symbol _
  rw [deriveTimes_succ_single, toList_expanded, Rules.toList_replacement]

theorem expanded_single (start : String) (rules : Rules) (count : Nat) :
    expanded start rules.single count = expanded start rules count := by
  rw [expanded, expanded, symbolsAfter, symbolsAfter, Rules.usable_single]

theorem expanded_unruled {rules : Rules} {symbol : Char}
    (unruled : rules.productions.lookup (String.singleton symbol) = none) (count : Nat) :
    expanded (String.singleton symbol) rules count = String.singleton symbol := by
  have kept : successor rules.usable symbol = [symbol] := by
    rw [← Rules.toList_replacement, Rules.replacement, unruled, Option.getD_none,
      String.toList_singleton]
  rw [← String.toList_inj, toList_expanded, String.toList_singleton, deriveTimes_fixed kept]

/-- Two texts are expanded side by side, generations add up, and after the first generation each
symbol goes on by itself from its replacement. Only rules with a single character for a key take
part, and a symbol without a rule stays where it is. -/
theorem expanded_contextFree (rules : Rules) (count : Nat) :
    (∀ start, (Grammar.ofTexts start rules).expansion (.int count) =
        .ok (expanded start rules count).toList) ∧
      (∀ first second, expanded (first ++ second) rules count =
        expanded first rules count ++ expanded second rules count) ∧
      (∀ start more,
        expanded (expanded start rules count) rules more = expanded start rules (count + more)) ∧
      (∀ start, (expanded start rules (count + 1)).toList =
        start.toList.flatMap fun symbol =>
          (expanded (rules.replacement symbol) rules count).toList) ∧
      (∀ start, expanded start rules.single count = expanded start rules count) ∧
      ∀ symbol, rules.productions.lookup (String.singleton symbol) = none → ∀ front back,
        expanded (front ++ String.singleton symbol ++ back) rules count =
          expanded front rules count ++ String.singleton symbol ++ expanded back rules count := by
  refine ⟨?_, fun first second => expanded_append first second rules count,
    fun start more => expanded_expanded start rules count more,
    fun start => expanded_succ start rules count,
    fun start => expanded_single start rules count, ?_⟩
  · intro start
    rw [toList_expanded]
    rfl
  · intro symbol unruled front back
    rw [expanded_append, expanded_append, expanded_unruled unruled]

/-- Two symbols change places in every generation around one that stays, and a key of two
characters has no effect. -/
theorem expanded_contextFree_exchange :
    let rules : Rules := ⟨[("A", "B"), ("B", "A"), ("AB", "X")]⟩
    rules.productions.lookup (String.singleton '+') = none ∧
      expanded ("A" ++ String.singleton '+' ++ "AB") rules 3 = "B+BA" := by
  intro rules
  have unruled : rules.productions.lookup (String.singleton '+') = none := by decide
  obtain ⟨-, -, -, -, -, stays⟩ := expanded_contextFree rules 3
  exact ⟨unruled, (stays '+' unruled "A" "AB").trans (by decide)⟩

end Topiary
