import Topiary.Branch.Basic

set_option autoImplicit false

/-!
# Ids as paths

The id of a child is the id of its parent, a dash and the digits of its position. Digits
contain no dash, so parent and position can be read back from the id, and the ids below
two children of one parent never meet. The id of a child is longer than that of its
parent, so it never stands at or above it. A parent id may hold any characters, dashes
and digits included.
-/

namespace Topiary

/-! ## Parent and position -/

theorem toList_joinId (parentId position : String) :
    (joinId parentId position).toList = parentId.toList ++ '-' :: position.toList := by
  simp [joinId]

theorem toList_idOfChild (parentId : String) (position : Nat) :
    (idOfChild parentId position).toList = parentId.toList ++ '-' :: Nat.toDigits 10 position := by
  rw [idOfChild, toList_joinId, Nat.toString_eq_repr, Nat.toList_repr]

theorem dash_not_mem_toDigits (position : Nat) : '-' ∉ Nat.toDigits 10 position := by
  intro member
  have digit := Nat.isDigit_of_mem_toDigits (by decide) (by decide) member
  revert digit
  decide

private theorem toDigits_inj {position otherPosition : Nat}
    (same : Nat.toDigits 10 position = Nat.toDigits 10 otherPosition) :
    position = otherPosition := by
  calc
    position = Nat.ofDigitChars 10 (Nat.toDigits 10 position) 0 :=
      Nat.ofDigitChars_ten_toDigits.symm
    _ = Nat.ofDigitChars 10 (Nat.toDigits 10 otherPosition) 0 := by rw [same]
    _ = otherPosition := Nat.ofDigitChars_ten_toDigits

/-- Two texts with a dash are equal if the dashes divide them alike, or if the first dash stands
further in front. -/
private theorem append_dash_cases {front otherFront back otherBack : List Char}
    (plain : '-' ∉ otherBack) (same : front ++ '-' :: back = otherFront ++ '-' :: otherBack) :
    (front = otherFront ∧ back = otherBack) ∨
      ∃ between, otherFront = front ++ '-' :: between := by
  rcases List.append_eq_append_iff.mp same with ⟨between, rfl, rest⟩ | ⟨between, rfl, rest⟩
  · cases between with
    | nil =>
        obtain rfl : back = otherBack := by simpa using rest
        exact .inl ⟨(List.append_nil front).symm, rfl⟩
    | cons first between =>
        obtain ⟨rfl, -⟩ := List.cons.inj rest
        exact .inr ⟨between, rfl⟩
  · cases between with
    | nil =>
        obtain rfl : otherBack = back := by simpa using rest
        exact .inl ⟨List.append_nil otherFront, rfl⟩
    | cons first between =>
        obtain ⟨-, later⟩ := List.cons.inj rest
        exact False.elim (plain (by simp [later]))

private theorem append_dash_inj {front otherFront back otherBack : List Char}
    (plain : '-' ∉ back) (otherPlain : '-' ∉ otherBack)
    (same : front ++ '-' :: back = otherFront ++ '-' :: otherBack) :
    front = otherFront ∧ back = otherBack := by
  rcases append_dash_cases otherPlain same with alike | ⟨between, rfl⟩
  · exact alike
  · rcases append_dash_cases plain same.symm with ⟨fronts, backs⟩ | ⟨further, shorter⟩
    · exact ⟨fronts.symm, backs.symm⟩
    · have lengths := congrArg List.length shorter
      simp only [List.length_append, List.length_cons] at lengths
      omega

theorem idOfChild_inj {parentId otherId : String} {position otherPosition : Nat} :
    idOfChild parentId position = idOfChild otherId otherPosition ↔
      parentId = otherId ∧ position = otherPosition := by
  constructor
  · intro same
    have characters := congrArg String.toList same
    rw [toList_idOfChild, toList_idOfChild] at characters
    obtain ⟨parents, digits⟩ := append_dash_inj (dash_not_mem_toDigits _)
      (dash_not_mem_toDigits _) characters
    exact ⟨String.toList_inj.mp parents, toDigits_inj digits⟩
  · rintro ⟨rfl, rfl⟩
    rfl

theorem not_isPrefix_idOfChild (parentId : String) (position : Nat) :
    ¬ (idOfChild parentId position).toList <+: parentId.toList := by
  intro opening
  have lengths := opening.length_le
  rw [toList_idOfChild, List.length_append, List.length_cons] at lengths
  omega

/-- The id of a child names one parent and one position, also where the id of the parent itself
ends in a dash and digits. It is neither the id of the parent nor a text that this id starts
with. -/
theorem idOfChild_identifies (parentId otherId : String) (position otherPosition : Nat) :
    (idOfChild parentId position = idOfChild otherId otherPosition ↔
        parentId = otherId ∧ position = otherPosition) ∧
      idOfChild parentId position ≠ parentId ∧
      ¬ parentId.startsWith (idOfChild parentId position) := by
  have unopened := not_isPrefix_idOfChild parentId position
  refine ⟨idOfChild_inj, ?_, ?_⟩
  · intro same
    rw [same] at unopened
    exact unopened (List.prefix_refl parentId.toList)
  · intro starts
    exact unopened (String.startsWith_string_iff.mp starts)

/-! ## Ids below a segment -/

/-- An id at or below a segment: the id of the segment itself, or one that goes on from it with
a dash. -/
def AtOrBelow (ancestor id : String) : Prop :=
  id = ancestor ∨ ∃ rest, id = joinId ancestor rest

theorem atOrBelow_iff_toList {ancestor id : String} :
    AtOrBelow ancestor id ↔ id = ancestor ∨ ancestor.toList ++ ['-'] <+: id.toList := by
  refine or_congr_right ⟨?_, ?_⟩
  · rintro ⟨rest, rfl⟩
    exact ⟨rest.toList, by simp [toList_joinId]⟩
  · rintro ⟨rest, characters⟩
    exact ⟨String.ofList rest, String.toList_inj.mp (by simp [toList_joinId, ← characters])⟩

theorem atOrBelow_iff_startsWith {ancestor id : String} :
    AtOrBelow ancestor id ↔ id = ancestor ∨ id.startsWith (ancestor ++ "-") := by
  rw [atOrBelow_iff_toList, String.startsWith_string_iff, String.toList_append]
  rfl

instance (ancestor id : String) : Decidable (AtOrBelow ancestor id) :=
  decidable_of_iff _ atOrBelow_iff_toList.symm

example : AtOrBelow "root-1" "root-1-0" ∧ ¬ AtOrBelow "root-1" "root-10" := by decide

theorem atOrBelow_iff_eq {ancestor id : String} (undivided : '-' ∉ id.toList) :
    AtOrBelow ancestor id ↔ ancestor = id := by
  constructor
  · rintro (rfl | ⟨rest, rfl⟩)
    · rfl
    · exact False.elim (undivided (by simp [toList_joinId]))
  · rintro rfl
    exact .inl rfl

namespace AtOrBelow

theorem refl (id : String) : AtOrBelow id id :=
  .inl rfl

theorem trans {ancestor middle id : String} (middleBelow : AtOrBelow ancestor middle)
    (below : AtOrBelow middle id) : AtOrBelow ancestor id := by
  rcases middleBelow with rfl | ⟨between, rfl⟩
  · exact below
  · rcases below with rfl | ⟨rest, rfl⟩
    · exact .inr ⟨between, rfl⟩
    · exact .inr ⟨joinId between rest, by simp [joinId, String.append_assoc]⟩

theorem child (parentId : String) (position : Nat) :
    AtOrBelow parentId (idOfChild parentId position) :=
  .inr ⟨_, rfl⟩

theorem isPrefix {ancestor id : String} (below : AtOrBelow ancestor id) :
    ancestor.toList <+: id.toList := by
  rcases atOrBelow_iff_toList.mp below with rfl | goesOn
  · exact List.prefix_refl _
  · exact (List.prefix_append ancestor.toList ['-']).trans goesOn

/-- The id of a child lies below nothing but what the id of its parent lies at or below. -/
theorem parent {ancestor parentId : String} {position : Nat}
    (below : AtOrBelow ancestor (idOfChild parentId position)) :
    ancestor = idOfChild parentId position ∨ AtOrBelow ancestor parentId := by
  rcases below with same | ⟨rest, joined⟩
  · exact .inl same.symm
  · right
    have characters := congrArg String.toList joined.symm
    rw [toList_joinId, toList_idOfChild] at characters
    rcases append_dash_cases (dash_not_mem_toDigits position) characters with
      ⟨fronts, -⟩ | ⟨between, longer⟩
    · exact .inl (String.toList_inj.mp fronts.symm)
    · refine .inr ⟨String.ofList between, String.toList_inj.mp ?_⟩
      rw [longer, toList_joinId, String.toList_ofList]

/-- What follows the id of the parent in an id at or below a child: digits, then nothing or a
dash. -/
private theorem exists_tail {ancestor id : String} {position : Nat}
    (below : AtOrBelow (idOfChild ancestor position) id) :
    ∃ tail, id.toList = ancestor.toList ++ '-' :: (Nat.toDigits 10 position ++ tail) ∧
      tail.takeWhile (fun character => character != '-') = [] := by
  rcases below with rfl | ⟨rest, rfl⟩
  · exact ⟨[], by simp [toList_idOfChild], rfl⟩
  · exact ⟨'-' :: rest.toList, by simp [toList_joinId, toList_idOfChild], rfl⟩

private theorem takeWhile_digits (position : Nat) (tail : List Char) :
    (Nat.toDigits 10 position ++ tail).takeWhile (fun character => character != '-') =
      Nat.toDigits 10 position ++ tail.takeWhile (fun character => character != '-') := by
  apply List.takeWhile_append_of_pos
  intro character member
  have different : character ≠ '-' := by
    rintro rfl
    exact dash_not_mem_toDigits position member
  simpa using different

/-- No id lies at or below two children of one parent. -/
theorem position_unique {ancestor id : String} {position otherPosition : Nat}
    (below : AtOrBelow (idOfChild ancestor position) id)
    (otherBelow : AtOrBelow (idOfChild ancestor otherPosition) id) :
    position = otherPosition := by
  obtain ⟨tail, characters, stops⟩ := below.exists_tail
  obtain ⟨otherTail, otherCharacters, otherStops⟩ := otherBelow.exists_tail
  rw [characters] at otherCharacters
  have rests := List.cons.inj (List.append_cancel_left otherCharacters)
  have digits := congrArg (List.takeWhile fun character => character != '-') rests.2
  rw [takeWhile_digits, takeWhile_digits, stops, otherStops] at digits
  exact toDigits_inj (by simpa using digits)

theorem not_child {ancestor : String} {position : Nat} :
    ¬ AtOrBelow (idOfChild ancestor position) ancestor := by
  intro below
  exact not_isPrefix_idOfChild ancestor position below.isPrefix

end AtOrBelow

end Topiary
