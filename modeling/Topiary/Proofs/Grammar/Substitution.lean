import Mathlib.Data.List.Count
import Topiary.Proofs.Drawing.Brackets
import Topiary.Proofs.Grammar.Rewriting

set_option autoImplicit false

/-!
# Matching brackets under substitution

Brackets that match still do when every other symbol gives way to a text whose brackets
match, at whatever height the symbol stands. A grammar that starts with such a text and
has only such replacements therefore never leaves a bracket without its partner.
-/

namespace Topiary

variable {τ : Type} [BEq τ] [LawfulBEq τ] {opening closing : τ} {symbols : List τ}

omit [BEq τ] [LawfulBEq τ] in
/-- A part at the front of a substituted text ends within what one symbol was replaced by, unless
it is the whole text. -/
theorem prefix_flatMap_cases {replace : τ → List τ} {front : List τ}
    (begins : front <+: symbols.flatMap replace) :
    front = symbols.flatMap replace ∨
      ∃ earlier symbol part, earlier ++ [symbol] <+: symbols ∧ part <+: replace symbol ∧
        front = earlier.flatMap replace ++ part := by
  induction symbols generalizing front with
  | nil => exact .inl (List.prefix_nil.mp begins)
  | cons symbol rest ih =>
      rw [List.flatMap_cons] at begins ⊢
      rcases List.prefix_or_prefix_of_prefix begins (List.prefix_append _ _) with within | beyond
      · exact .inr ⟨[], symbol, front, List.prefix_append [symbol] rest, within, rfl⟩
      · obtain ⟨later, rfl⟩ := beyond
        rcases ih ((List.prefix_append_right_inj _).mp begins) with
          whole | ⟨earlier, last, part, before, within, split⟩
        · exact .inl (by rw [whole])
        · refine .inr ⟨symbol :: earlier, last, part, ?_, within, ?_⟩
          · exact (List.prefix_cons_inj symbol).mpr before
          · rw [split, List.flatMap_cons, List.append_assoc]

/-! ## Texts -/

namespace Balanced

theorem singleton {symbol : τ} (notOpening : symbol ≠ opening) (notClosing : symbol ≠ closing) :
    Balanced opening closing [symbol] := by
  have noOpening : opening ∉ [symbol] := by simpa using notOpening.symm
  have noClosing : closing ∉ [symbol] := by simpa using notClosing.symm
  refine ⟨fun front begins => ?_, ?_⟩
  · rw [List.count_eq_zero_of_not_mem fun member => noClosing (begins.subset member)]
    exact Nat.zero_le _
  · rw [List.count_eq_zero_of_not_mem noOpening, List.count_eq_zero_of_not_mem noClosing]

theorem map {υ : Type} [BEq υ] [LawfulBEq υ] {f : τ → υ} (injective : Function.Injective f)
    (balanced : Balanced opening closing symbols) :
    Balanced (f opening) (f closing) (symbols.map f) where
  neverBelow front begins := by
    obtain ⟨before, beforeBegins, rfl⟩ := List.prefix_map_iff.mp begins
    rw [List.count_map_of_injective before f injective,
      List.count_map_of_injective before f injective]
    exact balanced.neverBelow before beforeBegins
  closed := by
    rw [List.count_map_of_injective symbols f injective,
      List.count_map_of_injective symbols f injective]
    exact balanced.closed

end Balanced

/-- Replacements that leave the brackets alone, and whose own brackets match. -/
structure KeepsBrackets (opening closing : τ) (replace : τ → List τ) : Prop where
  atOpening : replace opening = [opening]
  atClosing : replace closing = [closing]
  elsewhere : ∀ symbol, symbol ≠ opening → symbol ≠ closing →
    Balanced opening closing (replace symbol)

namespace KeepsBrackets

variable {replace : τ → List τ} (keeps : KeepsBrackets opening closing replace)

include keeps

/-- A replacement opens as many brackets more than it closes as its symbol does. -/
theorem count_replace (symbol : τ) :
    (replace symbol).count opening + [symbol].count closing =
      (replace symbol).count closing + [symbol].count opening := by
  by_cases isOpening : symbol = opening
  · rw [isOpening, keeps.atOpening, Nat.add_comm]
  · by_cases isClosing : symbol = closing
    · rw [isClosing, keeps.atClosing, Nat.add_comm]
    · have alone : Balanced opening closing [symbol] := .singleton isOpening isClosing
      rw [(keeps.elsewhere symbol isOpening isClosing).closed, alone.closed]

theorem count_flatMap (symbols : List τ) :
    (symbols.flatMap replace).count opening + symbols.count closing =
      (symbols.flatMap replace).count closing + symbols.count opening := by
  induction symbols with
  | nil => rfl
  | cons symbol rest ih =>
      have first := keeps.count_replace symbol
      rw [List.flatMap_cons, List.count_append, List.count_append, ← List.singleton_append,
        List.count_append, List.count_append]
      omega

theorem balanced_flatMap (balanced : Balanced opening closing symbols) :
    Balanced opening closing (symbols.flatMap replace) where
  neverBelow front begins := by
    rcases prefix_flatMap_cases begins with
      rfl | ⟨earlier, symbol, part, before, within, rfl⟩
    · have counted := keeps.count_flatMap symbols
      have closed := balanced.closed
      omega
    · -- A replaced bracket is itself, and any other replacement stays above the height before it.
      obtain ⟨short, shortBegins, bound⟩ : ∃ short, short <+: [symbol] ∧
          part.count closing + short.count opening ≤
            part.count opening + short.count closing := by
        by_cases isOpening : symbol = opening
        · rw [isOpening, keeps.atOpening] at within
          exact ⟨part, isOpening ▸ within, by omega⟩
        · by_cases isClosing : symbol = closing
          · rw [isClosing, keeps.atClosing] at within
            exact ⟨part, isClosing ▸ within, by omega⟩
          · exact ⟨[], List.nil_prefix,
              (keeps.elsewhere symbol isOpening isClosing).neverBelow part within⟩
      have counted := keeps.count_flatMap earlier
      have height := balanced.neverBelow (earlier ++ short)
        (((List.prefix_append_right_inj earlier).mpr shortBegins).trans before)
      rw [List.count_append, List.count_append] at height ⊢
      omega
  closed := by
    have counted := keeps.count_flatMap symbols
    have closed := balanced.closed
    omega

end KeepsBrackets

/-! ## Grammars -/

/-- A start and replacements whose brackets match, with no rule for a bracket. -/
structure BracketsMatch (start : String) (rules : Rules) : Prop where
  atStart : Balanced '[' ']' start.toList
  replacements : ∀ key replacement, rules.productions.lookup key = some replacement →
    Balanced '[' ']' replacement.toList
  openingStays : rules.productions.lookup "[" = none
  closingStays : rules.productions.lookup "]" = none

namespace BracketsMatch

variable {start : String} {rules : Rules}

/-- It is enough to look at the rules one by one. -/
theorem of_productions (atStart : Balanced '[' ']' start.toList)
    (each : ∀ production ∈ rules.productions, production.1 ≠ "[" ∧ production.1 ≠ "]" ∧
      Balanced '[' ']' production.2.toList) : BracketsMatch start rules := by
  have known : ∀ key replacement, rules.productions.lookup key = some replacement →
      (key, replacement) ∈ rules.productions := by
    intro key replacement found
    obtain ⟨front, back, split, -⟩ := List.lookup_eq_some_iff.mp found
    exact split ▸ List.mem_append_right _ List.mem_cons_self
  refine ⟨atStart, fun key replacement found => (each _ (known key replacement found)).2.2, ?_, ?_⟩
  · rw [Option.eq_none_iff_forall_ne_some]
    exact fun replacement found => (each _ (known _ replacement found)).1 rfl
  · rw [Option.eq_none_iff_forall_ne_some]
    exact fun replacement found => (each _ (known _ replacement found)).2.1 rfl

theorem keepsBrackets (brackets : BracketsMatch start rules) :
    KeepsBrackets '[' ']' (successor rules.usable) where
  atOpening := by
    rw [← Rules.toList_replacement, Rules.replacement]
    exact congrArg (fun found : Option String => (found.getD "[").toList) brackets.openingStays
  atClosing := by
    rw [← Rules.toList_replacement, Rules.replacement]
    exact congrArg (fun found : Option String => (found.getD "]").toList) brackets.closingStays
  elsewhere symbol notOpening notClosing := by
    rw [← Rules.toList_replacement, Rules.replacement]
    cases found : rules.productions.lookup (String.singleton symbol) with
    | some replacement => exact brackets.replacements _ replacement found
    | none =>
        rw [Option.getD_none, String.toList_singleton]
        exact .singleton notOpening notClosing

theorem balanced_deriveTimes (brackets : BracketsMatch start rules) (count : Nat)
    {symbols : List Char} (balanced : Balanced '[' ']' symbols) :
    Balanced '[' ']' (deriveTimes rules.usable count symbols) := by
  induction count generalizing symbols with
  | zero => exact balanced
  | succ count ih => exact ih (brackets.keepsBrackets.balanced_flatMap balanced)

theorem balanced_symbolsAfter (brackets : BracketsMatch start rules) (count : Nat) :
    Balanced '[' ']' (symbolsAfter start rules count) :=
  brackets.balanced_deriveTimes count brackets.atStart

end BracketsMatch

end Topiary
