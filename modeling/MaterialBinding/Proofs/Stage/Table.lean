import MaterialBinding.Proofs.Path.Prefix
import MaterialBinding.Proofs.Stage.InPlace

/-!
# Stages as tables

A scene can be kept as a table instead of a tree: under the path of each prim there is an entry with
what is authored on it and the names of its children.  Nothing in such a table holds the entries
together.  A prim is defined by a recursion on its path, which writes a name in the entry of the
prim above and then a new entry; it is removed by dropping all entries whose paths it begins, and
its name from the entry of the prim above.

`Stage.table` is the table of a stage.  Defining, removing and changing prims in the tree is the
same as doing it in the table (`table_definePrim`, `table_removePrim`, `table_modifyPrim`), so what
begins a path finds just the entries that are below a prim in the tree.
-/

namespace MaterialBinding

/-- What stands under the path of a prim. -/
@[ext] structure Entry where
  /-- What is authored on the prim. -/
  prim : Prim := {}
  /-- The names of its children, in authored order. -/
  children : List PrimName := []
deriving DecidableEq

namespace Entry

/-- Names one more child. -/
def addChild (name : PrimName) (entry : Entry) : Entry :=
  { entry with children := entry.children ++ [name] }

/-- Drops the children of that name. -/
def dropChild (name : String) (entry : Entry) : Entry :=
  { entry with children := entry.children.filter (·.text ≠ name) }

/-- Changes what is authored on the prim. -/
def changePrim (f : Prim → Prim) (entry : Entry) : Entry := { entry with prim := f entry.prim }

end Entry

/-- A scene with an entry under the path of each prim. -/
abbrev Table : Type := ScenePath → Option Entry

namespace Table

/-- Changes the entry under the path, if there is one. -/
def modify (table : Table) (path : ScenePath) (f : Entry → Entry) : Table :=
  fun other => if other = path then (table path).map f else table other

/-- Writes an entry under the path. -/
def insert (table : Table) (path : ScenePath) (entry : Entry) : Table :=
  fun other => if other = path then some entry else table other

/-- Keeps the entries whose paths pass the test. -/
def retain (table : Table) (test : ScenePath → Bool) : Table :=
  fun path => if test path then table path else none

/-- Makes the missing entries on the way to a prim; each new prim is named in the entry of the one
above. -/
def definePrim : PrimPath → Table → Table
  | .root, table => table
  | .child above name, table =>
    if (table (.ofPrim (.child above name))).isSome then table
    else
      ((table.definePrim above).modify (.ofPrim above) (·.addChild name)).insert
        (.ofPrim (.child above name)) {}

/-- Drops the entry of a prim with all those whose paths it begins, and says whether there was
one. -/
def removePrim (table : Table) (path : ScenePath) : Bool × Table :=
  if path.isRoot || (table path).isNone then (false, table)
  else
    let kept := table.retain fun other => !other.hasPrefix path
    match path.parent with
    | some parent => (true, kept.modify parent (·.dropChild path.name))
    | none => (true, kept)

/-- Changes what is authored on the prim at the path; the root holds nothing. -/
def modifyPrim (table : Table) (path : ScenePath) (f : Prim → Prim) : Table :=
  if path.isRoot then table else table.modify path (·.changePrim f)

/-- A change that does nothing to what stands at the path does nothing to the table. -/
theorem modifyPrim_eq_self {table : Table} {path : ScenePath} {f : Prim → Prim}
    (hsame : ∀ entry, table path = some entry → path ≠ .root → f entry.prim = entry.prim) :
    table.modifyPrim path f = table := by
  rw [modifyPrim]
  by_cases hroot : path.isRoot = true
  · rw [if_pos hroot]
  · rw [if_neg hroot]
    funext other
    by_cases hother : other = path
    · rw [modify, if_pos hother, hother]
      cases hentry : table path with
      | none => rfl
      | some entry =>
          have hprim := hsame entry hentry fun heq => hroot (ScenePath.isRoot_iff.mpr heq)
          exact congrArg some (Entry.ext hprim rfl)
    · rw [modify, if_neg hother]

end Table

/-- The entry of a prim. -/
def Node.entry (node : Node) : Entry := ⟨node.prim, node.children.names⟩

namespace Siblings

variable {tree : Siblings} {name : PrimName} {above path : PrimPath}

/-- The entry of the prim at the path, if there is one. -/
def entryAt? (tree : Siblings) (path : PrimPath) : Option Entry := (tree.node? path).map Node.entry

/-- A change of the children of one prim is seen in its own entry, and in those of prims which it
leads to. -/
theorem entryAt?_editAt_of_ne {f : Siblings → Siblings} (hplace : path ≠ above)
    (hsame : ∀ name, above.child name ∈ path.ancestors → ∀ node, tree.node? above = some node →
      (f node.children).find? name = node.children.find? name) :
    (tree.editAt above f).entryAt? path = tree.entryAt? path := by
  refine map_node?_editAt Node.entry (fun prim children children' hnames => ?_) hsame ?_
  · rw [Node.entry, Node.entry, hnames]
  · exact fun heq => absurd heq hplace

/-- After cutting off a prim the entries at and below it are missing, and the one above does not
name it any more. -/
theorem entryAt?_erase (above : PrimPath) (name : PrimName) (tree : Siblings) :
    (tree.editAt above (erase name)).entryAt? path =
      if above.child name ∈ path.ancestors then none
      else if path = above then (tree.entryAt? path).map (·.dropChild name.text)
      else tree.entryAt? path := by
  by_cases hbelow : above.child name ∈ path.ancestors
  · rw [if_pos hbelow, entryAt?, node?_erase_of_mem hbelow]
    rfl
  · rw [if_neg hbelow]
    by_cases hplace : path = above
    · subst hplace
      rw [if_pos rfl, entryAt?, node?_editAt, entryAt?, Option.map_map, Option.map_map]
      refine Option.map_congr fun node _ => ?_
      have hnames : (node.children.erase name).names =
          node.children.names.filter (·.text ≠ name.text) := by
        rw [names_erase]
        exact List.filter_congr fun other _ => by simp [PrimName.text_inj]
      exact Entry.ext rfl hnames
    · rw [if_neg hplace]
      refine entryAt?_editAt_of_ne hplace fun other hother node _ => ?_
      have hother : other ≠ name := fun heq => hbelow (heq ▸ hother)
      exact find?_erase_of_ne hother node.children

/-- After inserting a new child it has an entry of its own and is named in the one above. -/
theorem entryAt?_insert (hnew : tree.node? (above.child name) = none)
    (habove : (tree.node? above).isSome = true) :
    (tree.editAt above (insert name)).entryAt? path =
      if path = above.child name then some {}
      else if path = above then (tree.entryAt? path).map (·.addChild name)
      else tree.entryAt? path := by
  obtain ⟨parent, hparent⟩ := Option.isSome_iff_exists.mp habove
  have hfind : parent.children.find? name = none := by
    rwa [node?_child, hparent] at hnew
  by_cases hpath : path = above.child name
  · rw [if_pos hpath, hpath, entryAt?, node?_child, node?_editAt, hparent, Option.map_some,
      Option.bind_some, find?_insert_self, hfind]
    rfl
  · rw [if_neg hpath]
    by_cases hplace : path = above
    · have hname : name ∉ parent.children.names := by
        rw [mem_names_iff, hfind]
        nofun
      rw [if_pos hplace, hplace, entryAt?, node?_editAt, entryAt?, hparent]
      refine congrArg some (Entry.ext rfl ?_)
      exact names_insert.trans (if_neg hname)
    · rw [if_neg hplace]
      by_cases hthrough : above.child name ∈ path.ancestors
      · rcases PrimPath.eq_or_exists_child_of_mem_ancestors hthrough with heq | ⟨next, hnext⟩
        · exact absurd heq hpath
        · have hnone := node?_eq_none_of_above hnew hthrough
          rw [entryAt?, entryAt?, hnone, node?_insert_of_below hnew hnext]
      · refine entryAt?_editAt_of_ne hplace fun other hother node _ => ?_
        have hother : other ≠ name := fun heq => hthrough (heq ▸ hother)
        exact find?_insert_of_ne hother node.children

/-- After changing one prim its own entry is changed, and no other. -/
theorem entryAt?_modify (f : Prim → Prim) :
    (tree.editAt above (modify name fun node => { node with prim := f node.prim })).entryAt? path =
      if path = above.child name then (tree.entryAt? path).map (·.changePrim f)
      else tree.entryAt? path := by
  by_cases hplace : path = above.child name
  · rw [if_pos hplace, hplace, entryAt?, entryAt?, node?_child, node?_editAt, node?_child,
      Option.bind_map]
    cases tree.node? above with
    | none => rfl
    | some node =>
        rw [Option.bind_some, Function.comp_apply, find?_modify_self, Option.bind_some,
          Option.map_map, Option.map_map]
        rfl
  · -- The prims are the same everywhere but at the changed place.
    have hpaired : Paired (fun place prim prim' => place ≠ above.child name → prim' = prim) .root
        tree (tree.editAt above (modify name fun node => { node with prim := f node.prim })) := by
      refine Paired.editAt (fun _ _ _ => rfl) (fun children => ?_) tree
      refine Paired.modify (fun _ _ _ => rfl) (fun node => ?_) children
      exact ⟨fun hne => absurd rfl hne, Paired.refl (fun _ _ _ => rfl) node.children⟩
    have hnode := hpaired.node? (fun _ => rfl) path
    rw [if_neg hplace, entryAt?, entryAt?]
    generalize tree.node? path = before at hnode ⊢
    generalize Siblings.node? _ path = after at hnode ⊢
    cases hnode with
    | none => rfl
    | some hboth => exact congrArg some (Entry.ext (hboth.1 hplace) hboth.2.names_eq)

/-! ## Trees as tables -/

/-- The tree as a table. -/
def table (tree : Siblings) : Table :=
  fun path => if path.isProperty then none else tree.entryAt? path.prim

/-- The table has the entry of a prim under its path. -/
theorem table_ofPrim : tree.table (.ofPrim path) = tree.entryAt? path := rfl

/-- A table without properties is compared at the paths of prims. -/
theorem table_eq_of_prims {table : Table}
    (hproperty : ∀ path : ScenePath, path.isProperty = true → table path = none)
    (hprims : ∀ path : PrimPath, tree.entryAt? path = table (.ofPrim path)) :
    tree.table = table := by
  funext path
  cases hplain : path.isProperty with
  | true => rw [Siblings.table, if_pos hplain, hproperty path hplain]
  | false =>
      rw [ScenePath.eq_ofPrim hplain]
      exact hprims path.prim

/-- **Defining a prim in the tree** is defining it in the table. -/
theorem table_define (made : PrimPath) (tree : Siblings) :
    (tree.define made).table = tree.table.definePrim made := by
  induction made with
  | root => rfl
  | child above name ih =>
      rw [Table.definePrim, table_ofPrim, entryAt?, Option.isSome_map]
      cases hthere : tree.node? (above.child name) with
      | some node => rw [Option.isSome_some, if_pos rfl, define_eq_self hthere]
      | none =>
        have hbefore :
            (tree.define above).prim? (above.child name) = tree.prim? (above.child name) :=
          prim?_define_of_not_mem (Or.inl PrimPath.child_not_mem_ancestors)
        have hnew : (tree.define above).node? (above.child name) = none := by
          rw [prim?, prim?, hthere] at hbefore
          exact Option.map_eq_none_iff.mp hbefore
        obtain ⟨parent, hparent⟩ := exists_node?_define above tree
        rw [Option.isSome_none, if_neg Bool.false_ne_true, define, ← ih]
        refine table_eq_of_prims (fun path hproperty => ?_) fun path => ?_
        · have hplain : ∀ place : PrimPath, path ≠ .ofPrim place := by
            rintro place rfl
            cases hproperty
          simp only [Table.insert, Table.modify, if_neg (hplain _), table, if_pos hproperty]
        · rw [entryAt?_insert hnew (by rw [hparent]; rfl)]
          simp only [Table.insert, Table.modify, ScenePath.ofPrim_inj, table_ofPrim]
          by_cases hplace : path = above
          · rw [if_pos hplace, if_pos hplace, hplace]
          · rw [if_neg hplace, if_neg hplace]

/-- **Cutting off a prim in the tree** is dropping from the table what its path begins. -/
theorem table_erase (above : PrimPath) (name : PrimName) (tree : Siblings) :
    (tree.editAt above (erase name)).table =
      (tree.table.retain fun path => !path.hasPrefix (.ofPrim (above.child name))).modify
        (.ofPrim above) (·.dropChild name.text) := by
  have hbegins : ∀ path : PrimPath,
      (ScenePath.ofPrim path).hasPrefix (.ofPrim (above.child name)) =
        decide (above.child name ∈ path.ancestors) := by
    intro path
    rw [Bool.eq_iff_iff, decide_eq_true_iff, ScenePath.hasPrefix_iff_atOrBelow]
    exact ScenePath.atOrBelow_ofPrim_iff PrimPath.child_ne_root
  refine table_eq_of_prims (fun path hproperty => ?_) fun path => ?_
  · have hplain : path ≠ .ofPrim above := by
      rintro rfl
      cases hproperty
    simp only [Table.modify, if_neg hplain, Table.retain, table, if_pos hproperty, ite_self]
  · rw [entryAt?_erase]
    simp only [Table.modify, Table.retain, ScenePath.ofPrim_inj, table_ofPrim, hbegins,
      PrimPath.child_not_mem_ancestors, decide_false, Bool.not_false, if_true]
    by_cases hplace : path = above
    · subst hplace
      rw [if_neg PrimPath.child_not_mem_ancestors, if_pos rfl, if_pos rfl]
    · rw [if_neg hplace, if_neg hplace]
      by_cases hbelow : above.child name ∈ path.ancestors
      · simp [hbelow]
      · simp [hbelow]

end Siblings

namespace Stage

variable {stage : Stage} {path : ScenePath} {place : PrimPath}

/-- The stage as a table. -/
def table (stage : Stage) : Table := stage.tree.table

/-- What can be asked about a path is in its entry. -/
theorem table_eq_map_node? : stage.table path = (stage.node? path).map Node.entry := by
  rw [table, Siblings.table, node?]
  split <;> rfl

/-- There is a prim where the table has an entry. -/
theorem hasPrim_eq_isSome_table : stage.hasPrim path = (stage.table path).isSome := by
  rw [hasPrim, table_eq_map_node?, Option.isSome_map]

/-- What is authored on a prim stands in its entry. -/
theorem prim_eq_table : stage.prim path = ((stage.table path).getD {}).prim := by
  rw [prim, table_eq_map_node?]
  cases stage.node? path <;> rfl

/-- The children of a prim are listed in its entry. -/
theorem children_eq_table :
    stage.children path = ((stage.table path).getD {}).children.map path.prim.child := by
  rw [children, table_eq_map_node?]
  cases stage.node? path <;> rfl

/-- The children of a prim are listed in its entry. -/
theorem children_ofPrim_eq_table :
    stage.children place = ((stage.table place).getD {}).children.map place.child :=
  children_eq_table

/-- **Defining a prim** is defining it in the table. -/
theorem table_definePrim (stage : Stage) (made : PrimPath) :
    (stage.definePrim made).map Stage.table = .ok (stage.table.definePrim made) :=
  congrArg Except.ok (Siblings.table_define made stage.tree)

/-- **Changing a prim** is changing its entry in the table. -/
theorem table_modifyPrim (stage : Stage) (path : ScenePath) (f : Prim → Prim) :
    (stage.modifyPrim path f).table = stage.table.modifyPrim path f := by
  obtain ⟨prim, property, hbare⟩ := path
  cases property with
  | some property =>
      refine (Table.modifyPrim_eq_self fun entry hentry => ?_).symm
      have hnone : none = some entry := hentry
      cases hnone
  | none =>
      cases prim with
      | root => rfl
      | child above name =>
          refine Siblings.table_eq_of_prims (fun other hproperty => ?_) fun other => ?_
          · have hplain : other ≠ .ofPrim (above.child name) := by
              rintro rfl
              cases hproperty
            have hnone : stage.table other = none := if_pos hproperty
            exact (if_neg hplain).trans hnone
          · refine (Siblings.entryAt?_modify f).trans ?_
            refine ite_congr (propext ScenePath.ofPrim_inj.symm) (fun heq => ?_) fun _ => rfl
            obtain rfl : other = above.child name := ScenePath.ofPrim_inj.mp heq
            rfl

/-- **Removing a prim** is removing it from the table, and both say alike whether there was one. -/
theorem table_removePrim (stage : Stage) (cut : ScenePath) :
    (stage.removePrim cut).map id Stage.table = stage.table.removePrim cut := by
  have hthere : stage.hasPrim cut = (stage.table cut).isSome := hasPrim_eq_isSome_table
  rw [removePrim, Table.removePrim, ← Option.not_isSome, ← hthere]
  obtain ⟨prim, property, hbare⟩ := cut
  cases prim with
  | root => rfl
  | child above name =>
      cases property with
      | some property => rfl
      | none =>
          cases hprim : stage.hasPrim ⟨above.child name, none, hbare⟩ with
          | false => rfl
          | true => exact congrArg (Prod.mk true) (Siblings.table_erase above name stage.tree)

end Stage

end MaterialBinding
