import Topiary.Grammar.Rules

set_option autoImplicit false

/-!
# Laws of derivation

Every symbol is replaced without regard to its neighbours, so a derivation of a text is
made of the derivations of its symbols, and generations can be counted in two parts. A
symbol may die out after some generations; whatever lasts leaves at least one symbol.
-/

namespace Topiary

variable (usable : List (Char × List Char))

@[simp] theorem deriveTimes_zero (symbols : List Char) : deriveTimes usable 0 symbols = symbols :=
  rfl

theorem deriveTimes_succ (generations : Nat) (symbols : List Char) :
    deriveTimes usable (generations + 1) symbols =
      deriveTimes usable generations (derive usable symbols) := rfl

@[simp] theorem deriveTimes_nil (generations : Nat) : deriveTimes usable generations [] = [] := by
  induction generations with
  | zero => rfl
  | succ generations ih => rw [deriveTimes_succ, derive_nil, ih]

theorem deriveTimes_append (generations : Nat) (first second : List Char) :
    deriveTimes usable generations (first ++ second) =
      deriveTimes usable generations first ++ deriveTimes usable generations second := by
  induction generations generalizing first second with
  | zero => rfl
  | succ generations ih => rw [deriveTimes_succ, derive_append, ih, ← deriveTimes_succ,
      ← deriveTimes_succ]

theorem deriveTimes_cons (generations : Nat) (symbol : Char) (rest : List Char) :
    deriveTimes usable generations (symbol :: rest) =
      deriveTimes usable generations [symbol] ++ deriveTimes usable generations rest := by
  rw [← deriveTimes_append, List.singleton_append]

theorem deriveTimes_add (first second : Nat) (symbols : List Char) :
    deriveTimes usable (first + second) symbols =
      deriveTimes usable second (deriveTimes usable first symbols) := by
  induction first generalizing symbols with
  | zero => rw [Nat.zero_add, deriveTimes_zero]
  | succ first ih => rw [Nat.succ_add, deriveTimes_succ, ih, deriveTimes_succ]

/-! ## Symbols that last -/

/-- Whether a symbol leaves anything behind after a number of generations. -/
def lasts (generations : Nat) (symbol : Char) : Bool :=
  !(deriveTimes usable generations [symbol]).isEmpty

variable {usable}

/-- Each lasting symbol of a text accounts for a symbol of its own in what is derived. -/
theorem countP_lasts_le (generations : Nat) (symbols : List Char) :
    symbols.countP (lasts usable generations) ≤
      (deriveTimes usable generations symbols).length := by
  induction symbols with
  | nil => rw [List.countP_nil]; exact Nat.zero_le _
  | cons symbol rest ih =>
      rw [deriveTimes_cons, List.length_append, List.countP_cons]
      have first : (if lasts usable generations symbol then 1 else 0) ≤
          (deriveTimes usable generations [symbol]).length := by
        split
        · next lasting =>
          rw [lasts, Bool.not_eq_true', List.isEmpty_eq_false_iff] at lasting
          exact List.length_pos_iff.mpr lasting
        · exact Nat.zero_le _
      omega

/-- Rules none of which deletes its symbol. -/
def Lasting (usable : List (Char × List Char)) : Prop :=
  ∀ rule ∈ usable, rule.2 ≠ []

theorem Lasting.successor_ne_nil (lasting : Lasting usable) (symbol : Char) :
    successor usable symbol ≠ [] := by
  rw [successor]
  cases found : usable.lookup symbol with
  | none => simp
  | some replacement =>
      obtain ⟨front, back, rules, -⟩ := List.lookup_eq_some_iff.mp found
      exact lasting (symbol, replacement) (rules ▸ List.mem_append_right _ List.mem_cons_self)

theorem Lasting.deriveTimes_ne_nil (lasting : Lasting usable) (generations : Nat)
    {symbols : List Char} (nonempty : symbols ≠ []) :
    deriveTimes usable generations symbols ≠ [] := by
  induction generations generalizing symbols with
  | zero => exact nonempty
  | succ generations ih =>
      rw [deriveTimes_succ]
      apply ih
      cases symbols with
      | nil => exact absurd rfl nonempty
      | cons symbol rest =>
          rw [derive_cons]
          exact List.append_ne_nil_of_left_ne_nil (lasting.successor_ne_nil symbol) _

/-- Under such rules every symbol lasts, so no text is longer than what is derived from it. -/
theorem Lasting.length_le (lasting : Lasting usable) (generations : Nat) (symbols : List Char) :
    symbols.length ≤ (deriveTimes usable generations symbols).length := by
  have all : symbols.countP (lasts usable generations) = symbols.length := by
    rw [List.countP_eq_length]
    intro symbol _
    rw [lasts, Bool.not_eq_true', List.isEmpty_eq_false_iff]
    exact lasting.deriveTimes_ne_nil generations (List.cons_ne_nil symbol [])
  exact all ▸ countP_lasts_le generations symbols

end Topiary
