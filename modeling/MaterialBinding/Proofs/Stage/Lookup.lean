import MaterialBinding.Proofs.Stage.Paired

/-!
# Looking up after a change

Changing what one prim holds changes it there (`prim_modifyPrim_self`) and nowhere else
(`prim_modifyPrim_of_ne`), and no prim comes or goes (`hasPrim_modifyPrim`).

Changing the children of one prim is seen through them only: at every path that does not lead
through a child which is looked up differently, there is the same as before (`prim?_editAt`).  So
cutting off a prim takes out what is at or below it and nothing else (`prim?_erase`), and defining
one makes bare prims where there are none on the way to it, and changes nothing (`prim?_define`).
-/

namespace MaterialBinding

namespace Siblings

variable {tree : Siblings} {name other : PrimName} {above path : PrimPath}

/-! ## Among siblings -/

/-- A changed sibling is found changed. -/
theorem find?_modify_self (f : Node → Node) (tree : Siblings) :
    (tree.modify name f).find? name = (tree.find? name).map f := by
  induction tree with
  | nil => rfl
  | cons first prim children rest _ ih =>
      by_cases hname : first = name
      · subst hname
        rw [modify_cons_self, find?_cons_self, find?_cons_self]
        rfl
      · rw [modify_cons_of_ne hname, find?_cons_of_ne hname, find?_cons_of_ne hname, ih]

/-- The siblings beside a changed one are found as they were. -/
theorem find?_modify_of_ne (hne : other ≠ name) (f : Node → Node) (tree : Siblings) :
    (tree.modify name f).find? other = tree.find? other := by
  induction tree with
  | nil => rfl
  | cons first prim children rest _ ih =>
      by_cases hname : first = name
      · subst hname
        rw [modify_cons_self, find?_cons_of_ne hne.symm, find?_cons_of_ne hne.symm]
      · rw [modify_cons_of_ne hname, find?, find?, ih]

/-- A child that was inserted is found: the one that was there, or else a bare one. -/
theorem find?_insert_self (tree : Siblings) :
    (tree.insert name).find? name = some ((tree.find? name).getD {}) := by
  induction tree with
  | nil => simp [insert, find?]
  | cons first prim children rest _ ih =>
      by_cases hname : first = name
      · subst hname
        rw [insert_cons_self, find?_cons_self]
        rfl
      · rw [insert_cons_of_ne hname, find?_cons_of_ne hname, find?_cons_of_ne hname, ih]

/-- Inserting a child that is there changes nothing. -/
theorem insert_eq_self {node : Node} (hfind : tree.find? name = some node) :
    tree.insert name = tree := by
  induction tree with
  | nil => cases hfind
  | cons other prim children rest _ ih =>
      by_cases hother : other = name
      · subst hother
        rw [insert_cons_self]
      · rw [find?_cons_of_ne hother] at hfind
        rw [insert_cons_of_ne hother, ih hfind]

/-- The siblings of an inserted child are found as they were. -/
theorem find?_insert_of_ne (hne : other ≠ name) (tree : Siblings) :
    (tree.insert name).find? other = tree.find? other := by
  induction tree with
  | nil => simp [insert, find?, hne.symm]
  | cons first prim children rest _ ih =>
      by_cases hname : first = name
      · subst hname
        rw [insert_cons_self]
      · rw [insert_cons_of_ne hname, find?, find?, ih]

/-- A child that was taken out is not found. -/
theorem find?_erase_self (tree : Siblings) : (tree.erase name).find? name = none := by
  induction tree with
  | nil => rfl
  | cons first prim children rest _ ih =>
      by_cases hname : first = name
      · subst hname
        rw [erase_cons_self, ih]
      · rw [erase_cons_of_ne hname, find?_cons_of_ne hname, ih]

/-- The siblings of a child that was taken out are found as they were. -/
theorem find?_erase_of_ne (hne : other ≠ name) (tree : Siblings) :
    (tree.erase name).find? other = tree.find? other := by
  induction tree with
  | nil => rfl
  | cons first prim children rest _ ih =>
      by_cases hname : first = name
      · subst hname
        rw [erase_cons_self, find?_cons_of_ne hne.symm, ih]
      · rw [erase_cons_of_ne hname, find?, find?, ih]

/-! ## Along a path -/

/-- What is authored on the prim at the path, if there is one. -/
def prim? (tree : Siblings) (path : PrimPath) : Option Prim := (tree.node? path).map (·.prim)

/-- Below a path without a prim there is none. -/
theorem node?_eq_none_of_above (hnone : tree.node? above = none) (hmem : above ∈ path.ancestors) :
    tree.node? path = none := by
  induction path with
  | root => exact absurd hmem nofun
  | child parent last ih =>
      rcases List.mem_cons.mp hmem with rfl | hmem
      · exact hnone
      · rw [node?_child, ih hmem]
        rfl

/-- A change of the children of one prim is found at that prim. -/
theorem node?_editAt (path : PrimPath) (f : Siblings → Siblings) (tree : Siblings) :
    (tree.editAt path f).node? path =
      (tree.node? path).map fun node => { node with children := f node.children } := by
  induction path generalizing f with
  | root => rfl
  | child above name ih =>
      rw [editAt, node?_child, ih, node?_child, Option.bind_map]
      cases tree.node? above with
      | none => rfl
      | some node => exact find?_modify_self _ node.children

variable {f : Siblings → Siblings}

/-- Nothing changes below a child that is looked up as before. -/
theorem node?_editAt_of_child
    (hsame : ∀ node, tree.node? above = some node →
      (f node.children).find? name = node.children.find? name)
    (hmem : above.child name ∈ path.ancestors) :
    (tree.editAt above f).node? path = tree.node? path := by
  induction path with
  | root => exact absurd hmem nofun
  | child parent last ih =>
      rcases List.mem_cons.mp hmem with heq | hmem
      · obtain ⟨rfl, rfl⟩ := PrimPath.child.inj heq
        rw [node?_child, node?_editAt, node?_child, Option.bind_map]
        cases hnode : tree.node? above with
        | none => rfl
        | some node => exact hsame node hnode
      · rw [node?_child, ih hmem, node?_child]

/-- **What a change of children leaves.**  At a path that leads through none of the children which
are looked up differently, it is seen by nobody who looks at the names of the children only, except
perhaps at the changed place itself. -/
theorem map_node?_editAt {α : Type} (see : Node → α)
    (hsee : ∀ prim children children', names children' = children.names →
      see ⟨prim, children'⟩ = see ⟨prim, children⟩)
    (hsame : ∀ name, above.child name ∈ path.ancestors → ∀ node, tree.node? above = some node →
      (f node.children).find? name = node.children.find? name)
    (hplace : path = above → ∀ node, tree.node? above = some node →
      see { node with children := f node.children } = see node) :
    ((tree.editAt above f).node? path).map see = (tree.node? path).map see := by
  induction above generalizing f with
  | root =>
      by_cases hroot : path = .root
      · subst hroot
        exact congrArg some (hplace rfl _ rfl)
      · obtain ⟨name, hname⟩ := PrimPath.exists_child_root_mem_ancestors hroot
        rw [node?_editAt_of_child (hsame name hname) hname]
  | child parent last ih =>
      by_cases hthrough : parent.child last ∈ path.ancestors
      · rcases PrimPath.eq_or_exists_child_of_mem_ancestors hthrough with rfl | ⟨name, hname⟩
        · rw [node?_editAt, Option.map_map]
          exact Option.map_congr fun node hnode => hplace rfl node hnode
        · rw [node?_editAt_of_child (hsame name hname) hname]
      · have hapart : ∀ name, parent.child name ∈ path.ancestors → name ≠ last :=
          fun name hname heq => hthrough (heq ▸ hname)
        refine ih (fun name hname node _ => ?_) fun _ node _ => ?_
        · exact find?_modify_of_ne (hapart name hname) _ node.children
        · exact hsee _ _ _ (names_modify _)

/-- What is authored on a prim is left. -/
theorem prim?_editAt
    (hsame : ∀ name, above.child name ∈ path.ancestors → ∀ node, tree.node? above = some node →
      (f node.children).find? name = node.children.find? name) :
    (tree.editAt above f).prim? path = tree.prim? path :=
  map_node?_editAt (·.prim) (fun _ _ _ _ => rfl) hsame fun _ _ _ => rfl

/-- At or below a prim that was cut off there is nothing. -/
theorem node?_erase_of_mem (hbelow : above.child name ∈ path.ancestors) :
    (tree.editAt above (erase name)).node? path = none := by
  have hgone : (tree.editAt above (erase name)).node? (above.child name) = none := by
    rw [node?_child, node?_editAt, Option.bind_map]
    cases tree.node? above with
    | none => rfl
    | some node => exact find?_erase_self node.children
  exact node?_eq_none_of_above hgone hbelow

/-- **What is left after cutting off a prim**: all that is not at or below it. -/
theorem prim?_erase (above : PrimPath) (name : PrimName) (tree : Siblings) :
    (tree.editAt above (erase name)).prim? path =
      if above.child name ∈ path.ancestors then none else tree.prim? path := by
  by_cases hbelow : above.child name ∈ path.ancestors
  · rw [if_pos hbelow, prim?, node?_erase_of_mem hbelow]
    rfl
  · have hapart : ∀ other, above.child other ∈ path.ancestors → other ≠ name :=
      fun other hother heq => hbelow (heq ▸ hother)
    rw [if_neg hbelow]
    exact prim?_editAt fun other hother node _ =>
      find?_erase_of_ne (hapart other hother) node.children

/-- Below a child that was not there before it was inserted there is nothing. -/
theorem node?_insert_of_below {next : PrimName} (hnone : tree.node? (above.child name) = none)
    (hbelow : (above.child name).child next ∈ path.ancestors) :
    (tree.editAt above (insert name)).node? path = none := by
  have hbare : (tree.editAt above (insert name)).node? ((above.child name).child next) = none := by
    rw [node?_child, node?_child, node?_editAt, Option.bind_map]
    rw [node?_child] at hnone
    cases hparent : tree.node? above with
    | none => rfl
    | some parent =>
        have hfind : parent.children.find? name = none := by
          rwa [hparent] at hnone
        simp only [Option.bind_some, Function.comp_apply, find?_insert_self, hfind]
        rfl
  exact node?_eq_none_of_above hbare hbelow

/-- Inserting a child leaves all but the child itself, and the child too if it is there. -/
theorem prim?_insert (hother : path ≠ above.child name ∨ (tree.prim? path).isSome = true) :
    (tree.editAt above (insert name)).prim? path = tree.prim? path := by
  by_cases hthrough : above.child name ∈ path.ancestors
  · cases hnode : tree.node? (above.child name) with
    | some node =>
        have hsame : ∀ parent, tree.node? above = some parent →
            (parent.children.insert name).find? name = parent.children.find? name := by
          intro parent hparent
          have hfind : parent.children.find? name = some node := by
            rwa [node?_child, hparent] at hnode
          rw [insert_eq_self hfind]
        rw [prim?, node?_editAt_of_child hsame hthrough, prim?]
    | none =>
        have hnone := node?_eq_none_of_above hnode hthrough
        rcases PrimPath.eq_or_exists_child_of_mem_ancestors hthrough with heq | ⟨next, hnext⟩
        · rw [prim?, hnone] at hother
          exact absurd heq (hother.resolve_right nofun)
        · rw [prim?, prim?, hnone, node?_insert_of_below hnode hnext]
  · have hapart : ∀ other, above.child other ∈ path.ancestors → other ≠ name :=
      fun other hother heq => hthrough (heq ▸ hother)
    exact prim?_editAt fun other hother node _ =>
      find?_insert_of_ne (hapart other hother) node.children

/-- Defining a prim leaves those that are not on the way to it, and all that were there. -/
theorem prim?_define_of_not_mem {made : PrimPath}
    (hother : path ∉ made.ancestors ∨ (tree.prim? path).isSome = true) :
    (tree.define made).prim? path = tree.prim? path := by
  induction made with
  | root => rfl
  | child above name ih =>
      have habove : (tree.define above).prim? path = tree.prim? path :=
        ih (hother.imp_left fun hnot hmem => hnot (List.mem_cons_of_mem _ hmem))
      have hlast : path ≠ above.child name ∨ ((tree.define above).prim? path).isSome = true := by
        rw [habove]
        refine hother.imp_left fun hnot heq => hnot ?_
        rw [heq]
        exact List.mem_cons_self ..
      rw [define, prim?_insert hlast, habove]

/-- There is a prim at a path that was defined. -/
theorem exists_node?_define (made : PrimPath) (tree : Siblings) :
    ∃ node, (tree.define made).node? made = some node := by
  induction made with
  | root => exact ⟨_, rfl⟩
  | child above name ih =>
      obtain ⟨parent, hparent⟩ := ih
      rw [define, node?_child, node?_editAt, hparent]
      exact ⟨_, find?_insert_self parent.children⟩

/-- A prim that is defined is bare, unless it is there. -/
theorem prim?_define_self (above : PrimPath) (name : PrimName) (tree : Siblings) :
    (tree.define (above.child name)).prim? (above.child name) =
      some ((tree.prim? (above.child name)).getD {}) := by
  have hbefore : (tree.define above).prim? (above.child name) = tree.prim? (above.child name) :=
    prim?_define_of_not_mem (Or.inl PrimPath.child_not_mem_ancestors)
  obtain ⟨parent, hparent⟩ := exists_node?_define above tree
  rw [← hbefore, define, prim?, prim?, node?_child, node?_editAt, node?_child, hparent]
  simp only [Option.map_some, Option.bind_some, find?_insert_self]
  cases parent.children.find? name <;> rfl

/-- **What is there after defining a prim**: on the way to it what was there, or else a bare prim,
and elsewhere what was there. -/
theorem prim?_define (made : PrimPath) (tree : Siblings) :
    (tree.define made).prim? path =
      if path ∈ made.ancestors then some ((tree.prim? path).getD {}) else tree.prim? path := by
  induction made with
  | root => rfl
  | child above name ih =>
      by_cases hmem : path ∈ (above.child name).ancestors
      · rw [if_pos hmem]
        rcases List.mem_cons.mp hmem with rfl | habove
        · exact prim?_define_self above name tree
        · rw [if_pos habove] at ih
          have hthere : ((tree.define above).prim? path).isSome = true := by
            rw [ih]
            rfl
          rw [define, prim?_insert (Or.inr hthere), ih]
      · rw [if_neg hmem]
        exact prim?_define_of_not_mem (Or.inl hmem)

end Siblings

namespace Stage

variable {stage : Stage} {f : Prim → Prim} {place other : PrimPath}

/-- What is on a prim is what its path leads to, or else nothing. -/
theorem prim_eq_prim? : stage.prim place = (stage.tree.prim? place).getD {} := by
  have hnode : stage.node? (.ofPrim place) = stage.tree.node? place := rfl
  rw [prim, hnode, Siblings.prim?]
  cases stage.tree.node? place <;> rfl

/-- There is a prim at a path if the path is no property and leads to one. -/
theorem hasPrim_eq_isSome_prim? (path : ScenePath) :
    stage.hasPrim path = (!path.isProperty && (stage.tree.prim? path.prim).isSome) := by
  rw [hasPrim, node?, Siblings.prim?, Option.isSome_map]
  cases path.isProperty <;> rfl

/-- Each prim is as it was, or is the one that was changed. -/
theorem paired_modifyPrim_self (stage : Stage) (path : ScenePath) (f : Prim → Prim) :
    stage.Paired (fun place prim prim' => prim' = prim ∨ place = path.prim ∧ prim' = f prim)
      (stage.modifyPrim path f) :=
  paired_modifyPrim (fun _ _ => Or.inl rfl) path fun _ => Or.inr ⟨rfl, rfl⟩

/-- A change of one prim makes none and takes none away. -/
@[simp] theorem hasPrim_modifyPrim (path other : ScenePath) :
    (stage.modifyPrim path f).hasPrim other = stage.hasPrim other :=
  (paired_modifyPrim_self stage path f).hasPrim_eq (fun _ => Or.inl rfl) other

/-- A change of one prim leaves all others. -/
theorem prim_modifyPrim_of_ne {path : ScenePath} (hne : other ≠ path.prim) :
    (stage.modifyPrim path f).prim other = stage.prim other := by
  rcases (paired_modifyPrim_self stage path f).prim (fun _ => Or.inl rfl) other with
    hsame | ⟨heq, _⟩
  · exact hsame
  · exact absurd heq hne

/-- A change of one prim below the root is found there. -/
theorem prim_modifyPrim_self (hroot : place ≠ .root) (hprim : stage.hasPrim place = true) :
    (stage.modifyPrim place f).prim place = f (stage.prim place) := by
  cases place with
  | root => exact absurd rfl hroot
  | child above name =>
      have hnode : (stage.modifyPrim (.ofPrim (above.child name)) f).node? (above.child name) =
          (stage.node? (above.child name)).map fun node => { node with prim := f node.prim } := by
        change Siblings.node? (stage.tree.editAt above _) (above.child name) =
          (stage.tree.node? (above.child name)).map _
        rw [Siblings.node?_child, Siblings.node?_editAt, Siblings.node?_child, Option.bind_map]
        cases stage.tree.node? above with
        | none => rfl
        | some node => exact Siblings.find?_modify_self _ node.children
      obtain ⟨node, hthere⟩ := Option.isSome_iff_exists.mp hprim
      rw [Stage.prim, Stage.prim, hnode, hthere]
      rfl

/-- What is on a prim after a change of one of them. -/
theorem prim_modifyPrim {path : ScenePath} (hprim : stage.hasPrim path = true)
    (hroot : path ≠ .root) (f : Prim → Prim) (other : ScenePath) :
    (stage.modifyPrim path f).prim other =
      if other = path then f (stage.prim path) else stage.prim other := by
  obtain ⟨held, property, hbare⟩ := path
  cases property with
  | some property => cases hprim
  | none =>
      have hheld : held ≠ .root := fun heq => hroot (by subst heq; rfl)
      by_cases heq : other = ⟨held, none, hbare⟩
      · rw [if_pos heq]
        subst heq
        exact prim_modifyPrim_self hheld hprim
      · rw [if_neg heq]
        obtain ⟨place, property, hbare'⟩ := other
        cases property with
        | some property => rfl
        | none =>
            have hplace : place ≠ held := fun hsame => heq (by subst hsame; rfl)
            exact prim_modifyPrim_of_ne hplace

end Stage

end MaterialBinding
