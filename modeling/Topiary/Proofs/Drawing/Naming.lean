import Topiary.Proofs.Branch.Owners
import Topiary.Proofs.Drawing.Simulation

set_option autoImplicit false

/-!
# Ids of drawn trees

The position of a segment among the children of its parent is all that its id adds to
the id of the parent. In a drawn tree the ids are therefore ways from the root, and each
names one segment. What grows from a segment can be told from the ids alone, in the full tree
and after pruning, and so can the segment from which it grows.
-/

namespace Topiary

theorem distinctIds_of_drawValue {symbols angle step : Value} {tree : Branch Float}
    (drawn : drawValue symbols angle step = .ok tree) : tree.DistinctIds := by
  obtain ⟨radians, length, commands, shoot, -, -, -, sound, rfl⟩ := exists_shoot drawn
  exact sound.named.distinctIds

/-- The ids of a drawn tree are the ways from its root, and no two of its segments have the same
id. Every child names the segment that lists it, and only the root names none. -/
theorem drawValue_named {symbols angle step : Value} {tree : Branch Float}
    (drawn : drawValue symbols angle step = .ok tree) :
    (∀ way branch, tree.descend? way = some branch → branch.id = idAlong rootId way) ∧
      tree.DistinctIds ∧
      (∀ parent ∈ tree.traverse, ∀ position child, parent.children[position]? = some child →
        child.segment.parentId = .text parent.id ∧ child.id = idOfChild parent.id position) ∧
      ∀ branch ∈ tree.traverse, branch.segment.parentId = .null ↔ branch = tree := by
  obtain ⟨radians, length, commands, shoot, -, -, -, sound, rfl⟩ := exists_shoot drawn
  have named := sound.named
  refine ⟨?_, named.distinctIds, ?_, ?_⟩
  · intro way branch reached
    rw [named.id_descend reached, Branch.id, sound.top]
    rfl
  · intro parent member position child listed
    rw [Branch.traverse_eq_preorder] at member
    obtain ⟨childId, parentId⟩ := named.link_of_mem member listed
    exact ⟨parentId, childId⟩
  · intro branch member
    rw [Branch.traverse_eq_preorder] at member
    constructor
    · intro namesNone
      rcases Branch.exists_parent member with top | ⟨parent, parentMember, position, listed⟩
      · exact top
      · rw [(named.link_of_mem parentMember listed).2] at namesNone
        cases namesNone
    · rintro rfl
      rw [sound.top]
      rfl

/-- The second segment that is drawn from the trunk. -/
theorem drawValue_named_fork :
    ∃ tree, drawValue (.text "F[F]F") (.int 0) (.int 1) = .ok tree ∧ tree.DistinctIds ∧
      ∃ branch, tree.descend? [0, 1] = some branch ∧ branch.id = "root-0-1" := by
  have drawn : drawValue (.text "F[F]F") (.int 0) (.int 1) = .ok _ :=
    (drawValue_eq rfl rfl).trans rfl
  exact ⟨_, drawn, (drawValue_named drawn).2.1, _, rfl, (drawValue_named drawn).1 [0, 1] _ rfl⟩

/-! ## Ancestry -/

/-- In a drawn tree and in all that pruning leaves of it, what is at and below an id, whatever text
this is, are the ids that are this text or go on from it with a dash. There are none exactly if the
tree has no segment with this id. -/
theorem drawValue_idsFrom_without {symbols angle step : Value} {tree : Branch Float}
    (drawn : drawValue symbols angle step = .ok tree) (gone : IdSet) (id : String) :
    let filtered := tree.without gone
    filtered.idsFrom id =
        filtered.idSet.filter (fun other => other = id ∨ other.startsWith (id ++ "-")) ∧
      (filtered.idsFrom id = ∅ ↔ id ∉ filtered.idSet) := by
  intro filtered
  obtain ⟨radians, length, commands, shoot, -, -, -, sound, rfl⟩ := exists_shoot drawn
  have distinct := sound.named.distinctIds
  have pruned : filtered = shoot.spine.toBranch.pruned gone := Branch.without_eq distinct gone
  have undivided : '-' ∉ (shoot.spine.toBranch.pruned gone).id.toList := by
    rw [Branch.id_pruned, Branch.id, sound.top]
    decide
  refine ⟨Std.ExtTreeSet.ext_mem fun other => ?_, Branch.idsFrom_eq_empty_iff⟩
  have named : Branch.Linked Branch.NamedFrom (shoot.spine.toBranch.pruned gone) :=
    sound.named.namedFrom.pruned (fun _ _ _ _ link => link) gone
  have read : other ∈ filtered.idsFrom id ↔ other ∈ filtered.idSet ∧ AtOrBelow id other := by
    rw [pruned]
    exact named.mem_idsFrom_iff (distinct.pruned gone) undivided
  simp [read, atOrBelow_iff_startsWith, Std.ExtTreeSet.mem_filter, Std.ExtTreeSet.get_eq]

/-- The ids of the second and the last of eleven branches begin alike; what grows from the second is
pruned. -/
theorem drawValue_idsFrom_without_eleventh :
    let symbols := .text "[F][FF][F][F][F][F][F][F][F][F][F]"
    ∃ tree, drawValue symbols (.int 0) (.int 1) = .ok tree ∧
      let filtered := tree.without (IdSet.ofIds ["root-1-0"])
      filtered.traverse.map Branch.id = "root" :: (List.range 11).map (idOfChild "root") ∧
        filtered.idsFrom "root-1" = IdSet.ofIds ["root-1"] := by
  intro symbols
  obtain ⟨tree, drawn, listed⟩ : ∃ tree, drawValue symbols (.int 0) (.int 1) = .ok tree ∧
      (tree.pruned (IdSet.ofIds ["root-1-0"])).preorder.map Branch.id =
        "root" :: (List.range 11).map (idOfChild "root") :=
    ⟨_, (drawValue_eq rfl rfl).trans rfl, by decide +kernel⟩
  rw [← Branch.traverse_eq_preorder, ← Branch.without_eq (distinctIds_of_drawValue drawn)] at listed
  refine ⟨tree, drawn, listed, ?_⟩
  rw [(drawValue_idsFrom_without drawn _ "root-1").1, Branch.idSet, listed]
  apply Std.ExtTreeSet.ext_mem
  intro other
  simp only [← atOrBelow_iff_startsWith, Std.ExtTreeSet.mem_filter, Std.ExtTreeSet.get_eq,
    IdSet.mem_ofIds, decide_eq_true_eq, exists_prop]
  constructor
  · rintro ⟨member, atOrBelow⟩
    revert other
    decide +kernel
  · intro member
    obtain rfl : other = "root-1" := by simpa using member
    decide +kernel

/-! ## Owners -/

/-- In every part of what pruning leaves of a drawn tree, the parent of an id is the only segment
that has a child with this id. The top of the part has none there, and neither has an unknown id.
The search for an id and the index give the same segment. -/
theorem drawValue_owner {symbols angle step : Value} {tree : Branch Float}
    (drawn : drawValue symbols angle step = .ok tree) (gone : IdSet) {part : Branch Float}
    (member : part ∈ (tree.without gone).traverse) (id : String) :
    (id ∈ part.idSet → id ≠ part.id →
        ∃ owner ∈ part.traverse, part.parentOf? id = .ok (some owner) ∧
          ∀ parent ∈ part.traverse,
            (∃ child ∈ parent.children, child.id = id) ↔ parent = owner) ∧
      (id = part.id ∨ id ∉ part.idSet → part.parentOf? id = .ok none) ∧
      part.byId[id]? = part.find? id := by
  obtain ⟨radians, length, commands, shoot, -, -, -, sound, rfl⟩ := exists_shoot drawn
  have distinct := sound.named.distinctIds.pruned gone
  have named : Branch.Linked Branch.NamedFrom (shoot.spine.toBranch.pruned gone) :=
    sound.named.namedFrom.pruned (fun _ _ _ _ link => link) gone
  have topNamesNone : (shoot.spine.toBranch.pruned gone).segment.parentId = .null := by
    rw [Branch.segment_pruned, sound.top]
    rfl
  rw [Branch.without_eq sound.named.distinctIds, Branch.traverse_eq_preorder] at member
  have distinctPart := distinct.of_mem_preorder member
  refine ⟨?_, ?_, distinctPart.getElem?_byId id⟩
  · exact (named.of_mem_preorder member).exists_owner distinctPart
  · rintro (rfl | unknown)
    · exact named.parentOf?_top distinct topNamesNone member
    · exact distinctPart.parentOf?_unknown unknown

/-- A part with one branch left after the other was pruned. -/
theorem drawValue_owner_arm :
    ∃ tree part, drawValue (.text "F[F]F") (.int 0) (.int 1) = .ok tree ∧
      part ∈ (tree.without (IdSet.ofIds ["root-0-0"])).traverse ∧ part.id = "root-0" ∧
      part.parentOf? "root-0-1" = .ok (some part) ∧ part.parentOf? "root-0" = .ok none ∧
      part.parentOf? "root-0-0" = .ok none := by
  obtain ⟨tree, part, drawn, listed, ids, arms⟩ :
      ∃ tree part, drawValue (.text "F[F]F") (.int 0) (.int 1) = .ok tree ∧
        part ∈ (tree.pruned (IdSet.ofIds ["root-0-0"])).children ∧
        part.preorder.map Branch.id = ["root-0", "root-0-1"] ∧
        part.children.map Branch.id = ["root-0-1"] :=
    ⟨_, _, (drawValue_eq rfl rfl).trans rfl, List.mem_cons_self, by decide +kernel,
      by decide +kernel⟩
  have member : part ∈ (tree.without (IdSet.ofIds ["root-0-0"])).traverse := by
    rw [Branch.without_eq (distinctIds_of_drawValue drawn), Branch.traverse_eq_preorder]
    exact Branch.mem_preorder_of_child listed (Branch.self_mem_preorder part)
  have topId : part.id = "root-0" := by
    rw [Branch.preorder_eq, List.map_cons] at ids
    exact (List.cons.inj ids).1
  have known (id : String) : id ∈ part.idSet ↔ id ∈ ["root-0", "root-0-1"] := by
    rw [Branch.idSet, IdSet.mem_ofIds, Branch.traverse_eq_preorder, ids]
  refine ⟨tree, part, drawn, member, topId, ?_, ?_, ?_⟩
  · have inPart : "root-0-1" ∈ part.idSet := (known "root-0-1").mpr (by decide)
    have notTop : "root-0-1" ≠ part.id := by
      rw [topId]
      decide
    obtain ⟨owner, -, found, only⟩ :=
      (drawValue_owner drawn _ member "root-0-1").1 inPart notTop
    have listsArm : ∃ child ∈ part.children, child.id = "root-0-1" :=
      List.mem_map.mp (by rw [arms]; exact List.mem_cons_self)
    have self : part ∈ part.traverse := by
      rw [Branch.traverse_eq_preorder]
      exact Branch.self_mem_preorder part
    obtain rfl := (only part self).mp listsArm
    exact found
  · exact (drawValue_owner drawn _ member "root-0").2.1 (.inl topId.symm)
  · refine (drawValue_owner drawn _ member "root-0-0").2.1 (.inr ?_)
    rw [known]
    decide

end Topiary
