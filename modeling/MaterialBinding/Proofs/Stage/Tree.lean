import MaterialBinding.Proofs.Metadata
import MaterialBinding.Proofs.Path.Ancestors
import MaterialBinding.Stage.Authoring

/-!
# Well-formed trees

A tree is well formed if no two siblings share a name and what is authored on each prim is well
formed.  Every operation on trees keeps this, as long as the change it makes does.

A path leads to one place at most.  In a well-formed tree each place is also the one that its path
leads to, so the list of all paths has those with a prim and no path twice.
-/

namespace MaterialBinding

/-- What holds of anything that is authored on a prim. -/
structure Prim.WellFormed (prim : Prim) : Prop where
  relationship_names : (prim.relationships.map (·.name)).Nodup
  property_names : ∀ relationship ∈ prim.relationships,
    isPropertyName relationship.name.toList = true
  metadata_keys : ∀ relationship ∈ prim.relationships, relationship.metadata.keys.Nodup
  collection_names : (prim.collections.map (·.name)).Nodup
  address_names : ∀ collection ∈ prim.collections,
    isPropertyName (Collection.nameLead ++ collection.name).toList = true

/-- A bare prim is well formed. -/
theorem Prim.wellFormed_bare : ({} : Prim).WellFormed where
  relationship_names := List.nodup_nil
  property_names := nofun
  metadata_keys := nofun
  collection_names := List.nodup_nil
  address_names := nofun

namespace Siblings

/-- No two siblings share a name, here and below, and every prim is well formed. -/
def WellFormed : Siblings → Prop
  | nil => True
  | cons name prim children rest =>
    name ∉ rest.names ∧ prim.WellFormed ∧ children.WellFormed ∧ rest.WellFormed

end Siblings

/-- A prim is well formed, and so is what is below it. -/
def Node.WellFormed (node : Node) : Prop := node.prim.WellFormed ∧ node.children.WellFormed

namespace Siblings

variable {tree : Siblings} {name : PrimName}

/-! ## The first sibling and the others -/

section

variable {first : PrimName} {prim : Prim} {children rest : Siblings}

/-- The first sibling is found under its name. -/
@[simp] theorem find?_cons_self :
    (cons first prim children rest).find? first = some ⟨prim, children⟩ := if_pos rfl

/-- Another name is looked up behind the first sibling. -/
theorem find?_cons_of_ne (hne : first ≠ name) :
    (cons first prim children rest).find? name = rest.find? name := if_neg hne

/-- The first sibling is changed under its name. -/
@[simp] theorem modify_cons_self (f : Node → Node) :
    (cons first prim children rest).modify first f =
      cons first (f ⟨prim, children⟩).prim (f ⟨prim, children⟩).children rest := if_pos rfl

/-- Under another name the change is made behind the first sibling. -/
theorem modify_cons_of_ne (hne : first ≠ name) (f : Node → Node) :
    (cons first prim children rest).modify name f = cons first prim children (rest.modify name f) :=
  if_neg hne

/-- A name that is there comes in no second time. -/
@[simp] theorem insert_cons_self :
    (cons first prim children rest).insert first = cons first prim children rest := if_pos rfl

/-- Another name comes in behind the first sibling. -/
theorem insert_cons_of_ne (hne : first ≠ name) :
    (cons first prim children rest).insert name = cons first prim children (rest.insert name) :=
  if_neg hne

/-- The first sibling is taken out under its name. -/
@[simp] theorem erase_cons_self :
    (cons first prim children rest).erase first = rest.erase first := if_pos rfl

/-- Another name is taken out behind the first sibling. -/
theorem erase_cons_of_ne (hne : first ≠ name) :
    (cons first prim children rest).erase name = cons first prim children (rest.erase name) :=
  if_neg hne

end

/-! ## The names side by side -/

/-- A name is among the siblings if one is found under it. -/
theorem mem_names_iff : name ∈ tree.names ↔ (tree.find? name).isSome = true := by
  induction tree with
  | nil => simp [names, find?]
  | cons other prim children rest _ ih =>
      by_cases hother : other = name
      · simp [names, find?, hother]
      · have hne : name ≠ other := fun h => hother h.symm
        simp [names, find?, hother, hne, ih]

/-- Changing a sibling leaves the names. -/
@[simp] theorem names_modify (f : Node → Node) : (tree.modify name f).names = tree.names := by
  induction tree with
  | nil => rfl
  | cons other prim children rest _ ih =>
      by_cases hother : other = name
      · subst hother
        rw [modify_cons_self]
        rfl
      · rw [modify_cons_of_ne hother, names, names, ih]

/-- A name comes in behind all others, unless it is there. -/
theorem names_insert :
    (tree.insert name).names = if name ∈ tree.names then tree.names else tree.names ++ [name] := by
  induction tree with
  | nil => rfl
  | cons other prim children rest _ ih =>
      by_cases hother : other = name
      · simp [insert, names, hother]
      · have hne : name ≠ other := fun h => hother h.symm
        simp only [insert, if_neg hother, names, ih, List.mem_cons, hne, false_or]
        split <;> rfl

/-- Taking siblings out takes their name out, and leaves the others in order. -/
theorem names_erase : (tree.erase name).names = tree.names.filter (· ≠ name) := by
  induction tree with
  | nil => rfl
  | cons other prim children rest _ ih =>
      by_cases hother : other = name
      · simp [erase, names, hother, ih]
      · simp [erase, names, hother, ih]

/-! ## What the operations keep -/

/-- A change that keeps one prim well formed keeps the tree well formed. -/
theorem WellFormed.modify {f : Node → Node} (hf : ∀ node, node.WellFormed → (f node).WellFormed)
    (h : tree.WellFormed) : (tree.modify name f).WellFormed := by
  induction tree with
  | nil => exact h
  | cons other prim children rest _ ih =>
      obtain ⟨hname, hprim, hchildren, hrest⟩ := h
      by_cases hother : other = name
      · subst hother
        obtain ⟨hprim', hchildren'⟩ := hf ⟨prim, children⟩ ⟨hprim, hchildren⟩
        rw [modify_cons_self]
        exact ⟨hname, hprim', hchildren', hrest⟩
      · have hapart : other ∉ (rest.modify name f).names := by rwa [names_modify]
        rw [modify_cons_of_ne hother]
        exact ⟨hapart, hprim, hchildren, ih hrest⟩

/-- A new child keeps the tree well formed. -/
theorem WellFormed.insert (h : tree.WellFormed) : (tree.insert name).WellFormed := by
  induction tree with
  | nil => exact ⟨nofun, Prim.wellFormed_bare, trivial, trivial⟩
  | cons other prim children rest _ ih =>
      obtain ⟨hname, hprim, hchildren, hrest⟩ := h
      by_cases hother : other = name
      · subst hother
        rw [insert_cons_self]
        exact ⟨hname, hprim, hchildren, hrest⟩
      · have hapart : other ∉ (rest.insert name).names := by
          rw [names_insert]
          by_cases hthere : name ∈ rest.names
          · rwa [if_pos hthere]
          · rw [if_neg hthere]
            simpa [hname] using hother
        rw [insert_cons_of_ne hother]
        exact ⟨hapart, hprim, hchildren, ih hrest⟩

/-- Taking prims out keeps the tree well formed. -/
theorem WellFormed.erase (h : tree.WellFormed) : (tree.erase name).WellFormed := by
  induction tree with
  | nil => exact h
  | cons other prim children rest _ ih =>
      obtain ⟨hname, hprim, hchildren, hrest⟩ := h
      by_cases hother : other = name
      · subst hother
        rw [erase_cons_self]
        exact ih hrest
      · have hapart : other ∉ (rest.erase name).names := by
          rw [names_erase]
          exact fun hmem => hname (List.mem_filter.mp hmem).1
        rw [erase_cons_of_ne hother]
        exact ⟨hapart, hprim, hchildren, ih hrest⟩

/-- A change of children that keeps them well formed keeps the tree well formed. -/
theorem WellFormed.editAt {f : Siblings → Siblings}
    (hf : ∀ children, children.WellFormed → (f children).WellFormed) {path : PrimPath}
    (h : tree.WellFormed) : (tree.editAt path f).WellFormed := by
  induction path generalizing f with
  | root => exact hf tree h
  | child above name ih =>
      have hnode : ∀ node : Node, node.WellFormed →
          Node.WellFormed { node with children := f node.children } :=
        fun node hnode => ⟨hnode.1, hf node.children hnode.2⟩
      exact ih fun _ hchildren => hchildren.modify hnode

/-- Defining a prim keeps the tree well formed. -/
theorem WellFormed.define {path : PrimPath} (h : tree.WellFormed) :
    (tree.define path).WellFormed := by
  induction path with
  | root => exact h
  | child above name ih => exact ih.editAt fun _ hc => hc.insert

/-! ## Lookups -/

/-- The siblings of a well-formed tree are well formed. -/
theorem WellFormed.find? (h : tree.WellFormed) {node : Node} (hfind : tree.find? name = some node) :
    node.WellFormed := by
  induction tree with
  | nil => simp [Siblings.find?] at hfind
  | cons other prim children rest _ ih =>
      obtain ⟨_, hprim, hchildren, hrest⟩ := h
      by_cases hother : other = name
      · subst hother
        rw [find?_cons_self] at hfind
        obtain rfl := Option.some.inj hfind
        exact ⟨hprim, hchildren⟩
      · rw [find?_cons_of_ne hother] at hfind
        exact ih hrest hfind

/-- A child is looked up among the children of its parent. -/
theorem node?_child (path : PrimPath) :
    tree.node? (path.child name) = (tree.node? path).bind (·.children.find? name) := rfl

/-- What a path leads to in a well-formed tree is well formed. -/
theorem WellFormed.node? (h : tree.WellFormed) {path : PrimPath} {node : Node}
    (hnode : tree.node? path = some node) : node.WellFormed := by
  induction path generalizing node with
  | root =>
      obtain rfl := Option.some.inj hnode
      exact ⟨Prim.wellFormed_bare, h⟩
  | child above name ih =>
      obtain ⟨parent, hparent, hfind⟩ := Option.bind_eq_some_iff.mp hnode
      exact (ih hparent).2.find? hfind

/-- No two siblings of a well-formed tree share a name. -/
theorem WellFormed.nodup_names (h : tree.WellFormed) : tree.names.Nodup := by
  induction tree with
  | nil => exact List.nodup_nil
  | cons name prim children rest _ ih =>
      obtain ⟨hname, _, _, hrest⟩ := h
      exact List.nodup_cons.mpr ⟨hname, ih hrest⟩

/-! ## All paths -/

/-- In `whole`, the names of `part` lead on from `above` to what `part` has under them. -/
def LiesAt (whole : Siblings) (above : PrimPath) (part : Siblings) : Prop :=
  ∀ name ∈ part.names, whole.node? (above.child name) = part.find? name

variable {whole : Siblings} {above : PrimPath}

/-- The whole tree lies at the root. -/
theorem liesAt_root : LiesAt whole .root whole := fun _ _ => rfl

/-- A node lies with its children where its path leads. -/
theorem liesAt_children {node : Node} (hnode : whole.node? above = some node) :
    LiesAt whole above node.children := by
  intro name _
  rw [node?_child, hnode]
  rfl

/-- Of siblings that lie at a place, the first is there, and the others lie there too. -/
theorem LiesAt.cons {prim : Prim} {children rest : Siblings} (hname : name ∉ rest.names)
    (hlies : LiesAt whole above (cons name prim children rest)) :
    whole.node? (above.child name) = some ⟨prim, children⟩ ∧ LiesAt whole above rest := by
  constructor
  · have hfirst := hlies name (List.mem_cons_self ..)
    rwa [find?_cons_self] at hfirst
  · intro other hother
    have hne : name ≠ other := by
      intro heq
      exact hname (heq ▸ hother)
    have hlater := hlies other (List.mem_cons_of_mem _ hother)
    rwa [find?_cons_of_ne hne] at hlater

/-- Each sibling is listed. -/
theorem child_mem_paths (hname : name ∈ tree.names) : above.child name ∈ tree.paths above := by
  induction tree with
  | nil => exact absurd hname nofun
  | cons other prim children rest _ ih =>
      rcases List.mem_cons.mp hname with rfl | hrest
      · exact List.mem_cons_self ..
      · exact List.mem_cons_of_mem _ (List.mem_append_right _ (ih hrest))

/-- A listed path has a prim. -/
theorem node?_of_mem_paths {path : PrimPath} (hwell : tree.WellFormed)
    (hlies : LiesAt whole above tree) (hmem : path ∈ tree.paths above) :
    (whole.node? path).isSome = true := by
  induction tree generalizing above with
  | nil => exact absurd hmem nofun
  | cons name prim children rest ihchildren ihrest =>
      obtain ⟨hname, _, hchildren, hrest⟩ := hwell
      obtain ⟨hfirst, hothers⟩ := hlies.cons hname
      have hbelow : LiesAt whole (above.child name) children := liesAt_children hfirst
      rcases List.mem_cons.mp hmem with rfl | hmem
      · rw [hfirst]
        rfl
      · rcases List.mem_append.mp hmem with hmem | hmem
        · exact ihchildren hchildren hbelow hmem
        · exact ihrest hrest hothers hmem

/-- With a path, the paths of the children of its prim are listed too. -/
theorem child_mem_paths_of_mem_paths {path : PrimPath} {node : Node} (hwell : tree.WellFormed)
    (hlies : LiesAt whole above tree) (hmem : path ∈ tree.paths above)
    (hnode : whole.node? path = some node) (hname : name ∈ node.children.names) :
    path.child name ∈ tree.paths above := by
  induction tree generalizing above with
  | nil => exact absurd hmem nofun
  | cons other prim children rest ihchildren ihrest =>
      obtain ⟨hother, _, hchildren, hrest⟩ := hwell
      obtain ⟨hfirst, hothers⟩ := hlies.cons hother
      have hbelow : LiesAt whole (above.child other) children := liesAt_children hfirst
      refine List.mem_cons_of_mem _ (List.mem_append.mpr ?_)
      rcases List.mem_cons.mp hmem with rfl | hmem
      · rw [hfirst] at hnode
        obtain rfl := Option.some.inj hnode
        exact Or.inl (child_mem_paths hname)
      · rcases List.mem_append.mp hmem with hmem | hmem
        · exact Or.inl (ihchildren hchildren hbelow hmem)
        · exact Or.inr (ihrest hrest hothers hmem)

/-- The root is not listed below itself. -/
theorem ne_root_of_mem_paths {path : PrimPath} (hmem : path ∈ tree.paths above) :
    path ≠ .root := by
  induction tree generalizing above with
  | nil => exact absurd hmem nofun
  | cons name prim children rest ihchildren ihrest =>
      rcases List.mem_cons.mp hmem with rfl | hmem
      · nofun
      · rcases List.mem_append.mp hmem with hmem | hmem
        · exact ihchildren hmem
        · exact ihrest hmem

/-- **The listed paths are those of the prims.** -/
theorem mem_paths_iff {path : PrimPath} (hwell : tree.WellFormed) :
    path ∈ tree.paths .root ↔ path ≠ .root ∧ (tree.node? path).isSome = true := by
  constructor
  · intro hmem
    exact ⟨ne_root_of_mem_paths hmem, node?_of_mem_paths hwell liesAt_root hmem⟩
  · intro hboth
    obtain ⟨hroot, hsome⟩ := hboth
    induction path with
    | root => exact absurd rfl hroot
    | child above name ih =>
        obtain ⟨node, hnode⟩ := Option.isSome_iff_exists.mp hsome
        obtain ⟨parent, hparent, hfind⟩ := Option.bind_eq_some_iff.mp hnode
        have hname : name ∈ parent.children.names :=
          mem_names_iff.mpr (Option.isSome_of_mem hfind)
        by_cases habove : above = .root
        · subst habove
          obtain rfl := Option.some.inj hparent
          exact child_mem_paths hname
        · have hmem : above ∈ tree.paths .root := ih habove (Option.isSome_of_mem hparent)
          exact child_mem_paths_of_mem_paths hwell liesAt_root hmem hparent hname

/-- There are as many paths as prims. -/
theorem length_paths : (tree.paths above).length = tree.size := by
  induction tree generalizing above with
  | nil => rfl
  | cons name prim children rest ihchildren ihrest =>
      rw [paths, List.length_cons, List.length_append, ihchildren, ihrest, size]
      omega

/-- A path below `above` passes through one of its children. -/
theorem exists_child_of_mem_paths {path : PrimPath} (hmem : path ∈ tree.paths above) :
    ∃ name ∈ tree.names, above.child name ∈ path.ancestors := by
  induction tree generalizing above with
  | nil => exact absurd hmem nofun
  | cons name prim children rest ihchildren ihrest =>
      rcases List.mem_cons.mp hmem with rfl | hmem
      · exact ⟨name, List.mem_cons_self .., List.mem_cons_self ..⟩
      · rcases List.mem_append.mp hmem with hmem | hmem
        · obtain ⟨_, _, hbelow⟩ := ihchildren hmem
          exact ⟨name, List.mem_cons_self .., PrimPath.mem_ancestors_of_child hbelow⟩
        · obtain ⟨other, hother, hbelow⟩ := ihrest hmem
          exact ⟨other, List.mem_cons_of_mem _ hother, hbelow⟩

/-- **No path is listed twice.** -/
theorem WellFormed.nodup_paths (h : tree.WellFormed) : (tree.paths above).Nodup := by
  induction tree generalizing above with
  | nil => exact List.nodup_nil
  | cons name prim children rest ihchildren ihrest =>
      obtain ⟨hname, _, hchildren, hrest⟩ := h
      have hbelow : ∀ path ∈ rest.paths above, above.child name ∉ path.ancestors := by
        intro path hmem hfirst
        obtain ⟨other, hother, hsecond⟩ := exists_child_of_mem_paths hmem
        rw [PrimPath.name_eq_of_ancestors hfirst hsecond] at hname
        exact hname hother
      have hitself : above.child name ∉ children.paths (above.child name) := by
        intro hmem
        obtain ⟨below, _, hdeeper⟩ := exists_child_of_mem_paths hmem
        have hdepth := PrimPath.depth_le_of_mem_ancestors hdeeper
        simp only [PrimPath.depth] at hdepth
        omega
      rw [paths, List.nodup_cons, List.mem_append, List.nodup_append]
      refine ⟨?_, ihchildren hchildren, ihrest hrest, ?_⟩
      · intro hmem
        rcases hmem with hmem | hmem
        · exact hitself hmem
        · exact hbelow _ hmem (List.mem_cons_self ..)
      · intro path hinside other hafter heq
        subst heq
        obtain ⟨below, _, hdeeper⟩ := exists_child_of_mem_paths hinside
        exact hbelow path hafter (PrimPath.mem_ancestors_of_child hdeeper)

end Siblings

end MaterialBinding
