import Topiary.Proofs.Branch.Distinct

set_option autoImplicit false

/-!
# What waits on a shelf

A shelf is described by the list of the branches that wait on it. The order of the list
is immaterial, so the list may follow the order in which the branches will be taken.
-/

namespace Topiary.Branch

variable {α : Type}

/-- The branches on a shelf, each under its id, are those of a list. -/
def Shelf.Holds (shelf : Shelf α) (waiting : List (Branch α)) : Prop :=
  ∀ id branch, shelf[id]? = some branch ↔ branch ∈ waiting ∧ branch.id = id

namespace Shelf.Holds

variable {shelf : Shelf α} {branch : Branch α} {waiting : List (Branch α)}

theorem empty : Holds (∅ : Shelf α) [] := by
  intro id branch
  simp

theorem perm {other : List (Branch α)} (holds : Holds shelf waiting)
    (same : waiting.Perm other) : Holds shelf other := by
  intro id branch
  rw [holds id branch, same.mem_iff]

theorem get (holds : Holds shelf waiting) (member : branch ∈ waiting) :
    shelf[branch.id]? = some branch :=
  (holds branch.id branch).mpr ⟨member, rfl⟩

theorem missing {id : String} (holds : Holds shelf waiting)
    (absent : id ∉ waiting.map Branch.id) : shelf[id]? = none := by
  cases found : shelf[id]? with
  | none => rfl
  | some branch =>
      obtain ⟨member, rfl⟩ := (holds id branch).mp found
      exact False.elim (absent (List.mem_map_of_mem member))

theorem insert (holds : Holds shelf waiting) (fresh : branch.id ∉ waiting.map Branch.id) :
    Holds (shelf.insert branch.id branch) (branch :: waiting) := by
  intro id other
  rw [Std.HashMap.getElem?_insert]
  by_cases same : branch.id = id
  · subst same
    simp only [beq_self_eq_true, ↓reduceIte, Option.some.injEq, List.mem_cons]
    constructor
    · rintro rfl
      exact ⟨.inl rfl, rfl⟩
    · rintro ⟨rfl | member, sameId⟩
      · rfl
      · exact False.elim (fresh (sameId ▸ List.mem_map_of_mem member))
  · rw [if_neg (by simpa using same), holds id other, List.mem_cons]
    constructor
    · rintro ⟨member, rfl⟩
      exact ⟨.inr member, rfl⟩
    · rintro ⟨rfl | member, sameId⟩
      · exact False.elim (same sameId)
      · exact ⟨member, sameId⟩

theorem erase (holds : Holds shelf (branch :: waiting))
    (fresh : branch.id ∉ waiting.map Branch.id) : Holds (shelf.erase branch.id) waiting := by
  intro id other
  rw [Std.HashMap.getElem?_erase]
  by_cases same : branch.id = id
  · subst same
    simp only [beq_self_eq_true, ↓reduceIte, reduceCtorEq, false_iff, not_and]
    intro member sameId
    exact fresh (sameId ▸ List.mem_map_of_mem member)
  · rw [if_neg (by simpa using same), holds id other, List.mem_cons]
    constructor
    · rintro ⟨rfl | member, sameId⟩
      · exact False.elim (same sameId)
      · exact ⟨member, sameId⟩
    · rintro ⟨member, sameId⟩
      exact ⟨.inr member, sameId⟩

end Shelf.Holds

theorem claimAll_map_id (claimed : Array (Branch α)) {shelf : Shelf α}
    {branches waiting : List (Branch α)} (holds : Shelf.Holds shelf (branches ++ waiting))
    (distinct : ((branches ++ waiting).map Branch.id).Nodup) :
    ∃ rest, claimAll claimed shelf (branches.map Branch.id) =
        .ok ((claimed.toList ++ branches).toArray, rest) ∧ Shelf.Holds rest waiting := by
  induction branches generalizing claimed shelf with
  | nil => exact ⟨shelf, by simp [claimAll], holds⟩
  | cons branch branches ih =>
      simp only [List.cons_append, List.map_cons, List.nodup_cons] at distinct
      have found : shelf[branch.id]? = some branch := holds.get (by simp)
      obtain ⟨rest, claims, restHolds⟩ :=
        ih (claimed.push branch) (holds.erase distinct.1) distinct.2
      refine ⟨rest, ?_, restHolds⟩
      simp only [List.map_cons, claimAll, found, claims]
      simp

end Topiary.Branch
