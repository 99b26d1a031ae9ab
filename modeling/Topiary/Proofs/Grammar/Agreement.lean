import Topiary.Grammar.Expansion

set_option autoImplicit false

/-!
# Rules in another order

Rules are compared after they have been sorted by their keys. Sorting keeps the order
among rules with one key, so the first rule of every key stays the first, and rules that
are the same when sorted derive the same texts.
-/

namespace Topiary

namespace Rules

private theorem notAfter_iff {left right : String} :
    (compareOfLessAndEq left right != .gt) = true ↔ left ≤ right := by
  have after : compareOfLessAndEq left right = .gt ↔ right < left :=
    compareOfLessAndEq_eq_gt String.le_antisymm String.le_total String.not_le left right
  rw [bne_iff_ne, ne_eq, after, String.not_lt]

theorem filter_sorted (rules : Rules) (key : String) :
    rules.sorted.filter (fun production => production.1 == key) =
      rules.productions.filter fun production => production.1 == key := by
  have trans : ∀ first second third : String × String,
      (compareOfLessAndEq first.1 second.1 != .gt) = true →
        (compareOfLessAndEq second.1 third.1 != .gt) = true →
          (compareOfLessAndEq first.1 third.1 != .gt) = true := by
    intro first second third before after
    rw [notAfter_iff] at before after ⊢
    exact String.le_trans before after
  have total : ∀ first second : String × String,
      ((compareOfLessAndEq first.1 second.1 != .gt) ||
        (compareOfLessAndEq second.1 first.1 != .gt)) = true := by
    intro first second
    rw [Bool.or_eq_true, notAfter_iff, notAfter_iff]
    exact String.le_total first.1 second.1
  have alike : (rules.productions.filter fun production => production.1 == key).Pairwise
      fun first second => (compareOfLessAndEq first.1 second.1 != .gt) = true := by
    rw [List.pairwise_iff_getElem]
    intro position later bound laterBound _
    have first := (List.mem_filter.mp (List.getElem_mem bound)).2
    have second := (List.mem_filter.mp (List.getElem_mem laterBound)).2
    have same := (eq_of_beq first).trans (eq_of_beq second).symm
    exact notAfter_iff.mpr (same ▸ String.le_refl _)
  have kept := (List.sublist_mergeSort trans total alike List.filter_sublist).filter
    fun production => production.1 == key
  have once : (fun production : String × String => production.1 == key && production.1 == key) =
      fun production => production.1 == key := funext fun _ => Bool.and_self _
  rw [List.filter_filter, once] at kept
  have reordered : rules.sorted.Perm rules.productions := List.mergeSort_perm _ _
  exact (kept.eq_of_length (reordered.filter _).length_eq.symm).symm

theorem lookup_eq_filter (productions : List (String × String)) (key : String) :
    productions.lookup key =
      ((productions.filter fun production => production.1 == key).head?).map Prod.snd := by
  induction productions with
  | nil => rfl
  | cons production rest ih =>
      obtain ⟨other, replacement⟩ := production
      by_cases same : other = key
      · subst same
        simp
      · have different : (key == other) = false := by simpa using Ne.symm same
        simp [List.lookup_cons, different, same, ih]

theorem lookup_sorted (rules : Rules) (key : String) :
    rules.sorted.lookup key = rules.productions.lookup key := by
  rw [lookup_eq_filter, lookup_eq_filter, filter_sorted]

theorem symbol?_eq_some_iff {key : String} {symbol : Char} :
    symbol? key = some symbol ↔ key = String.ofList [symbol] := by
  rw [symbol?, ← String.toList_inj, String.toList_ofList]
  cases key.toList with
  | nil => simp
  | cons first rest => cases rest <;> simp

theorem usable_cons (key replacement : String) (rest : List (String × String)) :
    usable ⟨(key, replacement) :: rest⟩ =
      match symbol? key with
      | some symbol => (symbol, replacement.toList) :: usable ⟨rest⟩
      | none => usable ⟨rest⟩ := by
  rw [usable, List.filterMap_cons]
  cases single : symbol? key with
  | none => simp only [single, Option.map_none]; rfl
  | some symbol => simp only [single, Option.map_some]; rfl

/-- A symbol is replaced by the first rule that has it for a key. -/
theorem lookup_usable (rules : Rules) (symbol : Char) :
    rules.usable.lookup symbol =
      (rules.productions.lookup (String.ofList [symbol])).map String.toList := by
  obtain ⟨productions⟩ := rules
  induction productions with
  | nil => rfl
  | cons production rest ih =>
      obtain ⟨key, replacement⟩ := production
      rw [usable_cons]
      by_cases same : symbol? key = some symbol
      · rw [same, symbol?_eq_some_iff.mp same, List.lookup_cons_self, List.lookup_cons_self,
          Option.map_some]
      · have different : (String.ofList [symbol] == key) = false := by
          rw [beq_eq_false_iff_ne]
          exact fun isKey => same (symbol?_eq_some_iff.mpr isKey.symm)
        rw [List.lookup_cons, different, ← ih]
        cases single : symbol? key with
        | none => rfl
        | some other =>
            have otherSymbol : (symbol == other) = false := by
              rw [beq_eq_false_iff_ne]
              rintro rfl
              exact same single
            rw [List.lookup_cons, otherSymbol]

end Rules

theorem successor_congr {rules other : Rules} (same : rules.sorted = other.sorted) :
    successor rules.usable = successor other.usable := by
  funext symbol
  rw [successor, successor, Rules.lookup_usable, Rules.lookup_usable,
    ← Rules.lookup_sorted rules, ← Rules.lookup_sorted other, same]

theorem symbolsAfter_congr {rules other : Rules} (same : rules.sorted = other.sorted)
    (start : String) (count : Nat) :
    symbolsAfter start rules count = symbolsAfter start other count := by
  have once : derive rules.usable = derive other.usable := by
    funext symbols
    rw [derive, derive, successor_congr same]
  rw [symbolsAfter, symbolsAfter]
  generalize start.toList = symbols
  induction count generalizing symbols with
  | zero => rfl
  | succ count ih => rw [deriveTimes, deriveTimes, once, ih]

end Topiary
