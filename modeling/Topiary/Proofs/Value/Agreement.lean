import Topiary.Proofs.Numeral.Place
import Topiary.Value

set_option autoImplicit false

/-!
# Equality of values

Values that equal a third one equal each other, whatever kinds of numbers are among their
parts. Dictionaries need not have distinct keys for this: an entry that was found by its
key is an entry like any other, and is looked for in turn.
-/

namespace Topiary.Value

variable {flag : Bool} {right : Value}

/-! ## What equals a value of a given kind -/

theorem agreesWith_null_iff : agreesWith flag .null right = true ↔ right = .null := by
  cases right <;> simp [agreesWith, number?]

theorem agreesWith_text_iff {content : String} :
    agreesWith flag (.text content) right = true ↔ right = .text content := by
  cases right <;> simp [agreesWith, number?, @eq_comm String content]

theorem agreesWith_list_iff {items : List Value} :
    agreesWith flag (.list items) right = true ↔
      ∃ others, right = .list others ∧ agreesList flag items others = true := by
  cases right <;> simp [agreesWith, number?]

theorem agreesWith_dict_iff {entries : List (String × Value)} :
    agreesWith flag (.dict entries) right = true ↔
      ∃ others, right = .dict others ∧ entries.length = others.length ∧
        agreesEntries flag entries others = true := by
  cases right <;> simp [agreesWith, number?]

theorem agreesWith_number_iff {left : Value} {number : Numeral.Number}
    (isNumber : left.number? = some number) :
    agreesWith flag left right = true ↔
      ∃ other, right.number? = some other ∧ number.agrees flag other = true := by
  cases left <;> cases isNumber <;> cases right <;> simp [agreesWith, number?]

theorem agreesWith_number_trans {left middle : Value} {number : Numeral.Number}
    (isNumber : left.number? = some number) (first : agreesWith flag left middle = true)
    (second : agreesWith flag middle right = true) : agreesWith flag left right = true := by
  obtain ⟨other, otherNumber, agree⟩ := (agreesWith_number_iff isNumber).mp first
  obtain ⟨last, lastNumber, agreeLast⟩ := (agreesWith_number_iff otherNumber).mp second
  exact (agreesWith_number_iff isNumber).mpr
    ⟨last, lastNumber, Numeral.Number.agrees_trans agree agreeLast⟩

/-! ## Entries of dictionaries -/

theorem agreesEntries_cons_iff {key : String} {left : Value}
    {rest others : List (String × Value)} :
    agreesEntries flag ((key, left) :: rest) others = true ↔
      (∃ found, others.lookup key = some found ∧ agreesWith flag left found = true) ∧
        agreesEntries flag rest others = true := by
  rw [agreesEntries, Bool.and_eq_true]
  cases others.lookup key <;> simp

theorem exists_partner {entries others : List (String × Value)} {key : String} {value : Value}
    (partners : agreesEntries flag entries others = true)
    (found : entries.lookup key = some value) :
    ∃ other, others.lookup key = some other ∧ agreesWith flag value other = true := by
  induction entries with
  | nil => cases found
  | cons entry rest ih =>
      obtain ⟨head, restPartners⟩ := agreesEntries_cons_iff.mp partners
      rw [List.lookup_cons] at found
      split at found
      · next same =>
        cases found
        rwa [← eq_of_beq same] at head
      · exact ih restPartners found

/-! ## Transitivity -/

mutual

theorem agreesWith_trans : ∀ {left middle right : Value},
    agreesWith flag left middle = true → agreesWith flag middle right = true →
      agreesWith flag left right = true
  | .null, middle, right, first, second => by
      cases agreesWith_null_iff.mp first
      exact second
  | .text content, middle, right, first, second => by
      cases agreesWith_text_iff.mp first
      exact second
  | .list items, middle, right, first, second => by
      obtain ⟨others, rfl, itemsFirst⟩ := agreesWith_list_iff.mp first
      obtain ⟨lasts, rfl, itemsSecond⟩ := agreesWith_list_iff.mp second
      exact agreesWith_list_iff.mpr ⟨lasts, rfl, agreesList_trans itemsFirst itemsSecond⟩
  | .dict entries, middle, right, first, second => by
      obtain ⟨others, rfl, sizeFirst, entriesFirst⟩ := agreesWith_dict_iff.mp first
      obtain ⟨lasts, rfl, sizeSecond, entriesSecond⟩ := agreesWith_dict_iff.mp second
      exact agreesWith_dict_iff.mpr ⟨lasts, rfl, sizeFirst.trans sizeSecond,
        agreesEntries_trans entriesFirst entriesSecond⟩
  | .bool truth, middle, right, first, second => agreesWith_number_trans rfl first second
  | .int number, middle, right, first, second => agreesWith_number_trans rfl first second
  | .real number, middle, right, first, second => agreesWith_number_trans rfl first second

theorem agreesList_trans : ∀ {lefts middles rights : List Value},
    agreesList flag lefts middles = true → agreesList flag middles rights = true →
      agreesList flag lefts rights = true
  | [], [], rights, _, second => second
  | [], _ :: _, _, first, _ => by simp [agreesList] at first
  | _ :: _, [], _, first, _ => by simp [agreesList] at first
  | _ :: _, _ :: _, [], _, second => by simp [agreesList] at second
  | left :: lefts, middle :: middles, right :: rights, first, second => by
      rw [agreesList, Bool.and_eq_true] at first second ⊢
      exact ⟨agreesWith_trans first.1 second.1, agreesList_trans first.2 second.2⟩

theorem agreesEntries_trans : ∀ {lefts middles rights : List (String × Value)},
    agreesEntries flag lefts middles = true → agreesEntries flag middles rights = true →
      agreesEntries flag lefts rights = true
  | [], _, _, _, _ => by rw [agreesEntries]
  | (key, left) :: lefts, middles, rights, first, second => by
      obtain ⟨⟨middle, found, agree⟩, restFirst⟩ := agreesEntries_cons_iff.mp first
      -- The entry in the middle was found by its key, so it has a partner in turn.
      obtain ⟨right, foundRight, agreeRight⟩ := exists_partner second found
      exact agreesEntries_cons_iff.mpr ⟨⟨right, foundRight, agreesWith_trans agree agreeRight⟩,
        agreesEntries_trans restFirst second⟩

end

end Topiary.Value
