import MaterialBinding.Path.Basic

/-!
# The way up from a prim

`PrimPath.ancestors` has a prim and those above it, nearest first, without the root.  A prim is
known by this list (`ancestors_inj`), and each prim in it has the rest of its own list there
(`ancestors_subset`).  From a prim the way down to one below it leads through one child only
(`name_eq_of_ancestors`).
-/

namespace MaterialBinding.PrimPath

/-- The number of names on the way down. -/
def depth : PrimPath → Nat
  | root => 0
  | child parent _ => parent.depth + 1

variable {above path : PrimPath} {name : PrimName}

/-- A prim above another one is not deeper. -/
theorem depth_le_of_mem_ancestors (hmem : above ∈ path.ancestors) : above.depth ≤ path.depth := by
  induction path with
  | root => exact absurd hmem nofun
  | child parent last ih =>
      rcases List.mem_cons.mp hmem with rfl | hmem
      · exact Nat.le_refl _
      · exact Nat.le_succ_of_le (ih hmem)

/-- On the way up a prim comes before the one above it. -/
theorem mem_ancestors_of_child {last : PrimName}
    (hmem : (above.child name).child last ∈ path.ancestors) :
    above.child name ∈ path.ancestors := by
  induction path with
  | root => exact absurd hmem nofun
  | child parent last ih =>
      rcases List.mem_cons.mp hmem with heq | hmem
      · injection heq with hparent _
        have hself : above.child name ∈ parent.ancestors := hparent ▸ List.mem_cons_self ..
        exact List.mem_cons_of_mem _ hself
      · exact List.mem_cons_of_mem _ (ih hmem)

/-- A path goes down from a prim by one name only. -/
theorem name_eq_of_ancestors {other : PrimName} (hfirst : above.child name ∈ path.ancestors)
    (hsecond : above.child other ∈ path.ancestors) : name = other := by
  induction path with
  | root => exact absurd hfirst nofun
  | child parent last ih =>
      rcases List.mem_cons.mp hfirst with heq | hfirst
      · rcases List.mem_cons.mp hsecond with heq' | hsecond
        · injection heq.trans heq'.symm
        · have hdepth := depth_le_of_mem_ancestors hsecond
          injection heq with habove _
          simp only [habove, depth] at hdepth
          omega
      · rcases List.mem_cons.mp hsecond with heq | hsecond
        · have hdepth := depth_le_of_mem_ancestors hfirst
          injection heq with habove _
          simp only [habove, depth] at hdepth
          omega
        · exact ih hfirst hsecond

/-- A path below the root begins with one of the root's children. -/
theorem exists_child_root_mem_ancestors (hroot : path ≠ .root) :
    ∃ name, PrimPath.root.child name ∈ path.ancestors := by
  induction path with
  | root => exact absurd rfl hroot
  | child parent last ih =>
      by_cases hparent : parent = .root
      · exact ⟨last, hparent ▸ List.mem_cons_self ..⟩
      · obtain ⟨name, hname⟩ := ih hparent
        exact ⟨name, List.mem_cons_of_mem _ hname⟩

/-- The root is not among the ancestors. -/
theorem root_not_mem_ancestors : PrimPath.root ∉ path.ancestors := by
  induction path with
  | root => nofun
  | child parent last ih =>
      intro hmem
      rcases List.mem_cons.mp hmem with heq | hmem
      · cases heq
      · exact ih hmem

/-- No way to a prim leads through a child of it. -/
theorem child_not_mem_ancestors {name : PrimName} : path.child name ∉ path.ancestors := by
  intro hbelow
  have hdepth := depth_le_of_mem_ancestors hbelow
  rw [depth] at hdepth
  omega

/-- A path leads through all prims above a prim that it leads through. -/
theorem ancestors_subset (hmem : above ∈ path.ancestors) : above.ancestors ⊆ path.ancestors := by
  induction path with
  | root => exact absurd hmem nofun
  | child parent last ih =>
      rcases List.mem_cons.mp hmem with rfl | hmem
      · exact List.Subset.refl _
      · exact List.subset_cons_of_subset _ (ih hmem)

/-- A path that leads through a prim ends there or goes on through one of its children. -/
theorem eq_or_exists_child_of_mem_ancestors (hmem : above ∈ path.ancestors) :
    path = above ∨ ∃ name, above.child name ∈ path.ancestors := by
  induction path with
  | root => exact absurd hmem nofun
  | child parent last ih =>
      rcases List.mem_cons.mp hmem with rfl | hmem
      · exact Or.inl rfl
      · rcases ih hmem with rfl | ⟨name, hname⟩
        · exact Or.inr ⟨last, List.mem_cons_self ..⟩
        · exact Or.inr ⟨name, List.mem_cons_of_mem _ hname⟩

/-- A prim is known by what is at and above it. -/
theorem ancestors_inj {one other : PrimPath} (hsame : one.ancestors = other.ancestors) :
    one = other := by
  cases one with
  | root =>
      cases other with
      | root => rfl
      | child above name => cases hsame
  | child above name =>
      cases other with
      | root => cases hsame
      | child above' name' => exact (List.cons.inj hsame).1

end MaterialBinding.PrimPath
