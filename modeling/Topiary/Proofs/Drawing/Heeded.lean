import Topiary.Proofs.Drawing.Nesting

set_option autoImplicit false

/-!
# Tokens without effect

A turtle heeds ten tokens. Every other token, and a closing bracket that meets no open
one, can be left out of a sequence without any change in what it draws. Which brackets
have a partner depends on all tokens in front of them, so the height is carried along.
-/

namespace Topiary

def commandTokens : List String :=
  ["F", "[", "]", "|", "+", "-", "&", "^", "\\", "/"]

/-- What remains of some tokens inside the given number of open brackets, without those that a
turtle does not heed and the closing brackets that meet no open one. -/
def heededFrom (height : Nat) : List String → List String
  | [] => []
  | token :: rest =>
    if token ∈ commandTokens ∧ ¬(token = "]" ∧ height = 0) then
      token :: heededFrom (heightAfter height token) rest
    else heededFrom (heightAfter height token) rest

def heeded (tokens : List String) : List String :=
  heededFrom 0 tokens

theorem heededFrom_unmatched (rest : List String) :
    heededFrom 0 (Command.closing.token :: rest) = heededFrom 0 rest :=
  if_neg fun heeds => heeds.2 ⟨rfl, rfl⟩

theorem heededFrom_unknown {token : String} (unknown : Command.ofToken? token = none)
    (height : Nat) (rest : List String) :
    heededFrom height (token :: rest) = heededFrom height rest := by
  have unheeded : token ∉ commandTokens := by
    intro member
    simp only [commandTokens, List.mem_cons, List.not_mem_nil, or_false] at member
    rcases member with rfl | rfl | rfl | rfl | rfl | rfl | rfl | rfl | rfl | rfl
    all_goals cases unknown
  rw [heededFrom, if_neg fun heeds => unheeded heeds.1, heightAfter_of_unknown unknown]

theorem heededFrom_token {command : Command} {height : Nat}
    (matched : ¬(command.token = "]" ∧ height = 0)) (rest : List String) :
    heededFrom height (command.token :: rest) =
      command.token :: heededFrom (heightAfter height command.token) rest := by
  have heeded : command.token ∈ commandTokens := by
    cases command with
    | turn axis opposite => cases axis <;> cases opposite <;> decide
    | draw | turnBack | opening | closing => decide
  rw [heededFrom, if_pos ⟨heeded, matched⟩]

/-! ## Drawing -/

variable {α : Type} [Scalar α] {angle step : α} {drawing next : Drawing α} {command : Command}

theorem Drawing.length_saved_obey (obeyed : drawing.obey angle step command = .ok next) :
    next.course.trail.saved.length =
      heightAfter drawing.course.trail.saved.length command.token := by
  rw [Drawing.obey_eq] at obeyed
  rcases Course.obey_cases obeyed with ⟨rfl, drawn⟩ | ⟨-, course, steered, rfl⟩
  · unfold Drawing.draw at drawn
    split at drawn
    · cases drawn
    · cases drawn
      rfl
  · exact (Course.steered_of_steer steered).length_saved

/-- A closing bracket that meets no open one changes nothing. -/
theorem Drawing.obey_unmatched (saved : drawing.course.trail.saved = []) :
    drawing.obey angle step .closing = .ok drawing := by
  simp only [Drawing.obey, Course.steer, Course.closeBracket, saved]
  rfl

theorem Drawing.obeyAll_heededFrom (drawing : Drawing α) (tokens : List String) :
    Command.obeyAll (Drawing.obey angle step) drawing
        (Command.ofTokens (heededFrom drawing.course.trail.saved.length tokens)) =
      Command.obeyAll (Drawing.obey angle step) drawing (Command.ofTokens tokens) := by
  induction tokens generalizing drawing with
  | nil => rfl
  | cons token rest ih =>
      cases known : Command.ofToken? token with
      | none =>
          rw [heededFrom_unknown known, Command.ofTokens_cons_unknown known]
          exact ih drawing
      | some command =>
          cases Command.ofToken?_eq_some_iff.mp known
          by_cases unmatched : command.token = "]" ∧ drawing.course.trail.saved.length = 0
          · obtain ⟨isClosing, atGround⟩ := unmatched
            have closing : command = .closing := Command.token_inj.mp isClosing
            have saved : drawing.course.trail.saved = [] := List.length_eq_zero_iff.mp atGround
            have later := ih drawing
            subst closing
            rw [atGround] at later ⊢
            rw [heededFrom_unmatched, Command.ofTokens_cons_token, Command.obeyAll,
              Drawing.obey_unmatched saved]
            exact later
          · rw [heededFrom_token unmatched, Command.ofTokens_cons_token,
              Command.ofTokens_cons_token, Command.obeyAll, Command.obeyAll]
            cases obeyed : drawing.obey angle step command with
            | ok next =>
                rw [← Drawing.length_saved_obey obeyed]
                exact ih next
            | error fault => rfl

theorem Drawing.after_heeded (angle step : α) (tokens : List String) :
    Drawing.after angle step (heeded tokens) = Drawing.after angle step tokens :=
  Drawing.obeyAll_heededFrom Drawing.initial tokens

/-- What a sequence draws, or how it fails, it does so too without the tokens that a turtle does
not heed and without the closing brackets that meet no open one. -/
theorem drawValue_heeded {symbols others angle step : Value} {tokens : List String}
    (parts : symbols.asParts = .ok (tokens.map Value.text))
    (otherParts : others.asParts = .ok ((heeded tokens).map Value.text)) :
    drawValue symbols angle step = drawValue others angle step :=
  drawValue_congr_after parts otherParts fun radians length _ =>
    (Drawing.after_heeded radians length tokens).symm

/-- Two closing brackets meet no open one, and two tokens are no commands. -/
theorem drawValue_heeded_trunk :
    heeded ["]", "F", "", "[", "FF", "]", "]", "F"] = ["F", "[", "]", "F"] ∧
      ∀ angle step, drawValue (.list (["]", "F", "", "[", "FF", "]", "]", "F"].map Value.text))
        angle step = drawValue (.text "F[]F") angle step :=
  ⟨by decide, fun _ _ => drawValue_heeded rfl rfl⟩

end Topiary
