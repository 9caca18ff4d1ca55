import MaterialBinding.Proofs.Description.Accepted
import MaterialBinding.Proofs.Stage.InPlace

/-!
# Loading by calls

A description can be loaded by the calls that author a stage: an empty stage gets one prim after the
other, and each prim its relationships, their metadata and its collections.  None of these calls
refuses what is there already.  It would change a prim, a relationship or a collection that was
loaded before, so the loader keeps the names that it has met and refuses the second of two.

`InPlace.load` is this loader.  Each of its calls puts something behind what is there
(`Stage.withChild`), and in the end there is the stage that is built out of the description in one
go (`InPlace.load_eq_ofDescription`).
-/

namespace MaterialBinding

/-! ## Siblings behind others -/

namespace Siblings

variable {tree others : Siblings} {name other : PrimName} {path : PrimPath} {node : Node}

/-- The second siblings behind the first ones. -/
def append : Siblings → Siblings → Siblings
  | nil, others => others
  | cons name prim children rest, others => cons name prim children (rest.append others)

/-- Nothing behind the siblings leaves the siblings. -/
theorem append_nil (tree : Siblings) : tree.append nil = tree := by
  induction tree with
  | nil => rfl
  | cons name prim children rest _ ih => rw [append, ih]

/-- It makes no difference which siblings are put together first. -/
theorem append_assoc (first second third : Siblings) :
    (first.append second).append third = first.append (second.append third) := by
  induction first with
  | nil => rfl
  | cons name prim children rest _ ih => rw [append, append, append, ih]

/-- The names of siblings stand behind one another as the siblings do. -/
theorem names_append (first second : Siblings) :
    (first.append second).names = first.names ++ second.names := by
  induction first with
  | nil => rfl
  | cons name prim children rest _ ih => rw [append, names, names, ih, List.cons_append]

/-- The names were seen, if those before the last one were and it counts as seen too. -/
theorem text_mem_of_append_one {prim : Prim} {below : Siblings} {seen : List String}
    (hseen : ∀ other ∈ tree.names, other.text ∈ seen) :
    ∀ other ∈ (tree.append (cons name prim below nil)).names, other.text ∈ name.text :: seen := by
  intro other hmem
  rw [names_append, List.mem_append] at hmem
  rcases hmem with hmem | hmem
  · exact List.mem_cons_of_mem _ (hseen other hmem)
  · obtain rfl := List.mem_singleton.mp hmem
    exact List.mem_cons_self ..

/-- A new prim comes behind those that are there. -/
theorem insert_of_not_mem (hnew : name ∉ tree.names) :
    tree.insert name = tree.append (cons name {} nil nil) := by
  induction tree with
  | nil => rfl
  | cons first prim children rest _ ih =>
      have hfirst : first ≠ name := (List.ne_of_not_mem_cons hnew).symm
      have hrest : name ∉ rest.names := List.not_mem_of_not_mem_cons hnew
      rw [insert_cons_of_ne hfirst, ih hrest, append]

/-- A name that the first siblings do not have is looked up among the others. -/
theorem find?_append_of_not_mem (hnew : name ∉ tree.names) :
    (tree.append others).find? name = others.find? name := by
  induction tree with
  | nil => rfl
  | cons first prim children rest _ ih =>
      have hfirst : first ≠ name := (List.ne_of_not_mem_cons hnew).symm
      have hrest : name ∉ rest.names := List.not_mem_of_not_mem_cons hnew
      rw [append, find?_cons_of_ne hfirst, ih hrest]

/-- A name that the first siblings do not have is changed among the others. -/
theorem modify_append_of_not_mem (hnew : name ∉ tree.names) (f : Node → Node) :
    (tree.append others).modify name f = tree.append (others.modify name f) := by
  induction tree with
  | nil => rfl
  | cons first prim children rest _ ih =>
      have hfirst : first ≠ name := (List.ne_of_not_mem_cons hnew).symm
      have hrest : name ∉ rest.names := List.not_mem_of_not_mem_cons hnew
      rw [append, modify_cons_of_ne hfirst, ih hrest, append]

end Siblings

/-! ## Growing stages -/

namespace Stage

variable {stage : Stage} {parent : PrimPath} {node : Node} {name : PrimName} {prim : Prim}
  {below others : Siblings}

/-- The stage with more prims behind the children of the prim at the path. -/
def appendAt (stage : Stage) (path : PrimPath) (others : Siblings) : Stage :=
  { stage with tree := stage.tree.editAt path (·.append others) }

/-- The stage with one more child of the prim at the path. -/
def withChild (stage : Stage) (parent : PrimPath) (name : PrimName) (prim : Prim)
    (below : Siblings) : Stage :=
  stage.appendAt parent (.cons name prim below .nil)

/-- Prims that are put below a parent are found behind its children. -/
theorem node?_appendAt (hnode : stage.tree.node? parent = some node) (others : Siblings) :
    (stage.appendAt parent others).tree.node? parent =
      some { node with children := node.children.append others } := by
  rw [appendAt, Siblings.node?_editAt, hnode]
  rfl

/-- Prims that are put behind the last child follow it. -/
theorem appendAt_withChild :
    (stage.withChild parent name prim below).appendAt parent others =
      stage.appendAt parent (.cons name prim below others) := by
  have htwice : (·.append others) ∘ (·.append (.cons name prim below .nil)) =
      fun children : Siblings => children.append (.cons name prim below others) := by
    funext children
    exact Siblings.append_assoc children _ others
  simp only [withChild, appendAt, Siblings.editAt_editAt, htwice]

section

variable (hnode : stage.tree.node? parent = some node) (hnew : name ∉ node.children.names)

include hnode hnew

/-- **A new prim is the last child of the one above.** -/
theorem definePrim_new :
    stage.definePrim (parent.child name) = .ok (stage.withChild parent name {} .nil) := by
  have hdefine : stage.tree.define (parent.child name) =
      stage.tree.editAt parent (·.append (.cons name {} .nil .nil)) := by
    rw [Siblings.define, Siblings.define_eq_self hnode]
    exact Siblings.editAt_congr hnode (Siblings.insert_of_not_mem hnew)
  change Except.ok { stage with tree := stage.tree.define (parent.child name) } = _
  rw [hdefine]
  rfl

/-- The child that was put last is found. -/
theorem node?_withChild :
    (stage.withChild parent name prim below).tree.node? (parent.child name) =
      some ⟨prim, below⟩ := by
  rw [Siblings.node?_child, withChild, node?_appendAt hnode, Option.bind_some,
    Siblings.find?_append_of_not_mem hnew, Siblings.find?, if_pos rfl]

/-- What is done to the last child. -/
theorem editAt_modify_withChild (prim : Prim) (below : Siblings) (f : Node → Node) :
    (stage.withChild parent name prim below).tree.editAt parent (Siblings.modify name f) =
      (stage.withChild parent name (f ⟨prim, below⟩).prim (f ⟨prim, below⟩).children).tree := by
  rw [withChild, appendAt, Siblings.editAt_editAt]
  refine Siblings.editAt_congr hnode ?_
  rw [Function.comp_apply, Siblings.modify_append_of_not_mem hnew, Siblings.modify, if_pos rfl]

/-- A change of the child that was put last is a change of what is put. -/
theorem modifyPrim_withChild (f : Prim → Prim) :
    (stage.withChild parent name prim below).modifyPrim (parent.child name) f =
      stage.withChild parent name (f prim) below := by
  have htree := editAt_modify_withChild hnode hnew prim below
    fun node => { node with prim := f node.prim }
  exact congrArg (fun tree => { stage with tree }) htree

/-- Prims below the child that was put last are a part of what is put. -/
theorem appendAt_child_withChild :
    (stage.withChild parent name prim below).appendAt (parent.child name) others =
      stage.withChild parent name prim (below.append others) := by
  have htree := editAt_modify_withChild hnode hnew prim below
    fun node => { node with children := node.children.append others }
  exact congrArg (fun tree => { stage with tree }) htree

/-- The child that was put last may be written to. -/
theorem requirePrim_withChild :
    (stage.withChild parent name prim below).requirePrim (parent.child name) = .ok () := by
  have hthere : (stage.withChild parent name prim below).hasPrim (parent.child name) = true := by
    have hchild : (stage.withChild parent name prim below).node? (parent.child name) = some _ :=
      node?_withChild hnode hnew
    rw [hasPrim, hchild]
    rfl
  have hroot : (ScenePath.ofPrim (parent.child name)).isRoot = false := rfl
  rw [requirePrim, hroot, hthere]
  rfl

end

end Stage

/-! ## New things on a prim -/

/-- A prim has a child of each prim name. -/
theorem ScenePath.appendChild_of_some (parent : PrimPath) {text : String} {name : PrimName}
    (hname : PrimName.ofString? text = some name) :
    (ofPrim parent).appendChild text = .ok (ofPrim (parent.child name)) := by
  simp only [appendChild, ofPrim, isProperty, hname]
  rfl

/-- What is no prim name is refused with that message. -/
theorem ScenePath.appendChild_of_none (parent : PrimPath) {text : String}
    (hname : PrimName.ofString? text = none) :
    (ofPrim parent).appendChild text = .error (.badPrimName text) := by
  simp only [appendChild, ofPrim, isProperty, hname]
  rfl

/-- A prim below the root has a property of each name that a property may have, and of no other. -/
theorem ScenePath.appendProperty_child (above : PrimPath) (last : PrimName) (name : String) :
    (∃ property, (ofPrim (above.child last)).appendProperty name = .ok property) ∧
        requirePropertyName name = .ok () ∨
      (ofPrim (above.child last)).appendProperty name = .error (.badPropertyName name) ∧
        requirePropertyName name = .error (.invalidPath (.badPropertyName name)) := by
  rw [requirePropertyName]
  by_cases hname : isPropertyName name.toList = true
  · exact Or.inl ⟨appendProperty_ok_iff.mpr ⟨⟨above, last, rfl⟩, hname⟩, if_pos hname⟩
  · refine Or.inr ⟨?_, if_neg hname⟩
    simp [appendProperty, ofPrim, PropertyName.ofString?, hname]

namespace Prim

/-- A relationship with a new name comes in as the last. -/
theorem putRelationshipIn_of_not_mem {name : String} {relationships : List Relationship}
    (hnew : name ∉ relationships.map (·.name)) (f : Relationship → Relationship) :
    putRelationshipIn name f relationships = relationships ++ [f { name }] := by
  induction relationships with
  | nil => rfl
  | cons first rest ih =>
      have hfirst : first.name ≠ name := (List.ne_of_not_mem_cons hnew).symm
      have hrest : name ∉ rest.map (·.name) := List.not_mem_of_not_mem_cons hnew
      rw [putRelationshipIn, if_neg hfirst, ih hrest, List.cons_append]

/-- The relationship that came in as the last is the one that its name changes. -/
theorem modifyRelationshipIn_append {relationship : Relationship}
    {relationships : List Relationship} (hnew : relationship.name ∉ relationships.map (·.name))
    (f : Relationship → Relationship) :
    modifyRelationshipIn relationship.name f (relationships ++ [relationship]) =
      relationships ++ [f relationship] := by
  induction relationships with
  | nil => exact if_pos rfl
  | cons first rest ih =>
      have hfirst : first.name ≠ relationship.name := (List.ne_of_not_mem_cons hnew).symm
      have hrest : relationship.name ∉ rest.map (·.name) := List.not_mem_of_not_mem_cons hnew
      rw [List.cons_append, modifyRelationshipIn, if_neg hfirst, ih hrest, List.cons_append]

/-- A collection with a new name comes in as the last. -/
theorem putCollectionIn_of_not_mem {collection : Collection} {collections : List Collection}
    (hnew : collection.name ∉ collections.map (·.name)) :
    putCollectionIn collection collections = collections ++ [collection] := by
  induction collections with
  | nil => rfl
  | cons first rest ih =>
      have hfirst : first.name ≠ collection.name := (List.ne_of_not_mem_cons hnew).symm
      have hrest : collection.name ∉ rest.map (·.name) := List.not_mem_of_not_mem_cons hnew
      rw [putCollectionIn, if_neg hfirst, ih hrest, List.cons_append]

end Prim

/-! ## Results -/

/-- What is done to the end of two steps is done to the second one. -/
theorem map_bind_eq {ε α β γ : Type} (x : Except ε α) (f : α → Except ε β) (g : β → γ) :
    (x >>= f).map g = x >>= fun a => (f a).map g := by
  cases x <;> rfl

/-- What comes after matters only for a result that there is. -/
theorem bind_congr_of_ok {ε α β : Type} {x : Except ε α} {f g : α → Except ε β}
    (hsame : ∀ a, x = .ok a → f a = g a) : x >>= f = x >>= g := by
  cases x with
  | error error => rfl
  | ok a => exact hsame a rfl

/-! ## The loader -/

namespace InPlace

variable {α β : Type} {stage : Stage}

/-- What a call comes to: its answer with the stage after it, or an error. -/
def outcome (call : InPlace α) (stage : Stage) : Except Error (α × Stage) :=
  match call.attempt stage with
  | (.ok value, after) => .ok (value, after)
  | (.error error, _) => .error error

/-- **One call after another** begins where the first one ends, and is left out if that one fails.
-/
theorem outcome_bind (call : InPlace α) (next : α → InPlace β) :
    (call >>= next).outcome stage =
      call.outcome stage >>= fun done => (next done.1).outcome done.2 := by
  rw [outcome, attempt_bind, outcome]
  rcases call.attempt stage with ⟨error | value, after⟩ <;> rfl

/-- What follows a call that comes to what is made of a result comes to what is made after it. -/
theorem outcome_bind_of_map {γ : Type} {call : InPlace α} {next : α → InPlace β}
    {result : Except Error γ} {answer : γ → α} {after : γ → Stage}
    (hcall : call.outcome stage = result.map fun made => (answer made, after made)) :
    (call >>= next).outcome stage =
      result >>= fun made => (next (answer made)).outcome (after made) := by
  rw [outcome_bind, hcall]
  cases result <;> rfl

/-- A call goes on with what the call before it gave. -/
theorem outcome_bind_of_ok {call : InPlace α} {next : α → InPlace β} {value : α} {after : Stage}
    (hcall : call.outcome stage = .ok (value, after)) :
    (call >>= next).outcome stage = (next value).outcome after := by
  rw [outcome_bind, hcall]
  rfl

/-- A check gives its result and leaves the stage. -/
theorem outcome_check (result : Except Error α) :
    (check result).outcome stage = result.map fun value => (value, stage) := by
  cases result <;> rfl

/-- A call that ends like an operation comes to what the operation gives. -/
theorem outcome_of_ending {call : InPlace α} {result : Except Error (α × Stage)}
    (hends : call.attempt stage = ending stage result) : call.outcome stage = result := by
  rw [outcome, hends]
  cases result <;> rfl

/-- Gives a metadata key of a relationship that was just written a value. -/
def annotate (prim : ScenePath) (name key value : String) : InPlace Unit :=
  modify (·.modifyPrim prim (·.modifyRelationship name (·.setMetadata key value)))

/-- Gives metadata keys their values one after the other. -/
def annotateAll (prim : ScenePath) (name : String) : List (String × String) → InPlace Unit
  | [] => pure ()
  | pair :: rest => do
    annotate prim name pair.1 pair.2
    annotateAll prim name rest

/-- Writes a relationship, then its metadata, and then the strength. -/
def addRelationship (path : PrimPath) (description : RelationshipDescription) : InPlace Unit := do
  let targets ← check (description.targets.mapM (readDescribedPath path))
  createRelationship path description.name targets
  annotateAll path description.name description.metadata
  match description.bindMaterialAs with
  | some token => annotate path description.name Metadata.strengthKey token
  | none => pure ()

/-- Writes a collection. -/
def addCollection (path : PrimPath) (description : CollectionDescription) : InPlace Unit := do
  let includes ← check (description.includes.mapM (readDescribedPath path))
  let excludes ← check (description.excludes.mapM (readDescribedPath path))
  let expansionRule : ExpansionRule :=
    match description.expansionRule with
    | some token => .ofToken token
    | none => .expandPrims
  let includeRoot := description.includeRoot
  let _ ← defineCollection path
    { name := description.name, includes, excludes, expansionRule, includeRoot }

/-- Writes one thing after the other, and refuses the first whose name was seen before. -/
def addApart (name : α → String) (refusal : α → Error) (add : α → InPlace Unit) :
    List String → List α → InPlace Unit
  | _, [] => pure ()
  | seen, first :: rest =>
    if name first ∈ seen then throw (refusal first)
    else do
      add first
      addApart name refusal add (name first :: seen) rest

/-- Writes the relationships of a prim. -/
def addRelationships (path : PrimPath) (descriptions : List RelationshipDescription) :
    InPlace Unit :=
  addApart (·.name) (fun description => .invalidScene (.relationship description.name path))
    (addRelationship path) [] descriptions

/-- Writes the collections of a prim. -/
def addCollections (path : PrimPath) (descriptions : List CollectionDescription) : InPlace Unit :=
  addApart (·.name) (fun description => .invalidScene (.collection description.name path))
    (addCollection path) [] descriptions

/-- Defines the children of the prim at `parent`, each with all that it holds before the next;
`seen` are the names of those before. -/
def addPrims (parent : PrimPath) (seen : List String) : Description → InPlace Unit
  | .nil => pure ()
  | .cons prim children rest =>
    if prim.name ∈ seen then throw (.invalidScene (.prim prim.name parent))
    else do
      let path ← check (((parent : ScenePath).appendChild prim.name).mapError .invalidPath)
      definePrim path
      addRelationships path.prim prim.relationships
      addCollections path.prim prim.collections
      addPrims path.prim [] children
      addPrims parent (prim.name :: seen) rest

/-- Loads a description into an empty stage. -/
def load (description : Description) : Except Error Stage :=
  ((addPrims .root [] description).outcome {}).map Prod.snd

/-! ## What the calls come to -/

/-- **Things are written as they are built**, if each of them is, behind those that are there. -/
theorem outcome_addApart {name : α → String} {refusal : α → Error} {add : α → InPlace Unit}
    {make : α → Except Error β} (named : β → String) (state : List β → Stage)
    (hadd : ∀ done item, name item ∉ done.map named →
      (add item).outcome (state done) = (make item).map fun made => ((), state (done ++ [made])))
    (hname : ∀ item made, make item = .ok made → named made = name item)
    {seen : List String} {done : List β} (hseen : ∀ made ∈ done, named made ∈ seen)
    (items : List α) :
    (addApart name refusal add seen items).outcome (state done) =
      (buildApart name refusal make seen items).map fun made => ((), state (done ++ made)) := by
  induction items generalizing seen done with
  | nil =>
      rw [addApart, buildApart, Except.map, List.append_nil]
      rfl
  | cons first rest ih =>
      rw [addApart, buildApart]
      by_cases hfirst : name first ∈ seen
      · rw [if_pos hfirst, if_pos hfirst]
        rfl
      · rw [if_neg hfirst, if_neg hfirst]
        have hfresh : name first ∉ done.map named := by
          intro hmem
          obtain ⟨made, hmem, heq⟩ := List.mem_map.mp hmem
          exact hfirst (heq ▸ hseen made hmem)
        rw [map_bind_eq]
        refine (outcome_bind_of_map (hadd done first hfresh)).trans
          (bind_congr_of_ok fun made hmade => ?_)
        have hothers : ∀ other ∈ done ++ [made], named other ∈ name first :: seen := by
          intro other hmem
          rcases List.mem_append.mp hmem with hmem | hmem
          · exact List.mem_cons_of_mem _ (hseen other hmem)
          · rw [List.mem_singleton.mp hmem, hname first made hmade]
            exact List.mem_cons_self ..
        rw [ih hothers, map_bind_eq]
        cases buildApart name refusal make (name first :: seen) rest with
        | error error => rfl
        | ok others =>
            rw [Except.map, List.append_assoc]
            rfl

section

variable {parent : PrimPath} {node : Node} {name : PrimName} {relationships : List Relationship}
  {collections : List Collection}

variable (hnode : stage.tree.node? parent = some node) (hnew : name ∉ node.children.names)

include hnode hnew

/-- A new prim is defined as the last child of the one above. -/
theorem outcome_definePrim :
    (definePrim (parent.child name)).outcome stage =
      .ok ((), stage.withChild parent name {} .nil) := by
  rw [outcome_of_ending (attempt_definePrim _), Stage.definePrim_new hnode hnew]
  rfl

/-- Metadata goes to the last relationship of the last child. -/
theorem outcome_annotate {relationship : Relationship}
    (hfresh : relationship.name ∉ relationships.map (·.name)) (key value : String) :
    (annotate (parent.child name) relationship.name key value).outcome
        (stage.withChild parent name ⟨relationships ++ [relationship], collections⟩ .nil) =
      .ok ((), stage.withChild parent name
        ⟨relationships ++ [relationship.setMetadata key value], collections⟩ .nil) := by
  have hprim : (Prim.mk (relationships ++ [relationship]) collections).modifyRelationship
      relationship.name (·.setMetadata key value) =
        ⟨relationships ++ [relationship.setMetadata key value], collections⟩ := by
    rw [Prim.modifyRelationship, Prim.modifyRelationshipIn_append hfresh]
  rw [← hprim]
  exact congrArg (fun after => Except.ok ((), after)) (Stage.modifyPrim_withChild hnode hnew _)

/-- All metadata of a relationship goes to it one by one, while it is the last of the last child. -/
theorem outcome_annotateAll {relationship : Relationship}
    (hfresh : relationship.name ∉ relationships.map (·.name)) (pairs : List (String × String)) :
    (annotateAll (parent.child name) relationship.name pairs).outcome
        (stage.withChild parent name ⟨relationships ++ [relationship], collections⟩ .nil) =
      .ok ((), stage.withChild parent name
        ⟨relationships ++ [{ relationship with metadata := relationship.metadata.setAll pairs }],
          collections⟩ .nil) := by
  induction pairs generalizing relationship with
  | nil => rfl
  | cons pair rest ih =>
      have hset : (relationship.setMetadata pair.1 pair.2).name ∉ relationships.map (·.name) :=
        hfresh
      rw [annotateAll, outcome_bind, outcome_annotate hnode hnew hfresh]
      exact ih hset

/-- A new relationship comes behind the others, if its name is that of a property. -/
theorem outcome_createRelationship {relationship : String} (targets : List ScenePath)
    (hfresh : relationship ∉ relationships.map (·.name)) :
    (createRelationship (parent.child name) relationship targets).outcome
        (stage.withChild parent name ⟨relationships, collections⟩ .nil) =
      (requirePropertyName relationship).map fun _ => ((), stage.withChild parent name
        ⟨relationships ++ [{ name := relationship, targets }], collections⟩ .nil) := by
  have hprim : (Prim.mk relationships collections).putRelationship relationship
      (·.setTargets targets) =
        ⟨relationships ++ [{ name := relationship, targets }], collections⟩ := by
    rw [Prim.putRelationship, Prim.putRelationshipIn_of_not_mem hfresh]
    rfl
  rw [outcome_of_ending (attempt_createRelationship _ _ _), Stage.createRelationship,
    Stage.putRelationship]
  rcases ScenePath.appendProperty_child parent name relationship with
    ⟨⟨property, happend⟩, hname⟩ | ⟨happend, hname⟩
  · simp only [happend, hname, Stage.requirePrim_withChild hnode hnew,
      Stage.modifyPrim_withChild hnode hnew, hprim]
    rfl
  · rw [happend, hname]
    rfl

/-- **A relationship is written as it is built**, behind the others. -/
theorem outcome_addRelationship (description : RelationshipDescription)
    (hfresh : description.name ∉ relationships.map (·.name)) :
    (addRelationship (parent.child name) description).outcome
        (stage.withChild parent name ⟨relationships, collections⟩ .nil) =
      (description.build (parent.child name)).map fun relationship => ((),
        stage.withChild parent name ⟨relationships ++ [relationship], collections⟩ .nil) := by
  rw [addRelationship, RelationshipDescription.build, map_bind_eq]
  refine (outcome_bind_of_map (outcome_check _)).trans (bind_congr fun targets => ?_)
  rw [map_bind_eq]
  refine (outcome_bind_of_map (outcome_createRelationship hnode hnew targets hfresh)).trans
    (bind_congr fun _ => ?_)
  have hnamed : ({ name := description.name, targets } : Relationship).name ∉
      relationships.map (·.name) := hfresh
  refine (outcome_bind_of_ok (outcome_annotateAll hnode hnew hnamed description.metadata)).trans ?_
  cases description.bindMaterialAs with
  | none => rfl
  | some token =>
      have hannotated : ({
          name := description.name
          targets
          metadata := .ofList description.metadata } : Relationship).name ∉
            relationships.map (·.name) := hfresh
      exact outcome_annotate hnode hnew hannotated Metadata.strengthKey token

/-- A new collection comes behind the others, if its address is a property. -/
theorem outcome_defineCollection {collection : Collection}
    (hfresh : collection.name ∉ collections.map (·.name)) :
    (do let _ ← defineCollection (parent.child name) collection).outcome
        (stage.withChild parent name ⟨relationships, collections⟩ .nil) =
      (requirePropertyName (Collection.nameLead ++ collection.name)).map fun _ => ((),
        stage.withChild parent name ⟨relationships, collections ++ [collection]⟩ .nil) := by
  have hprim : (Prim.mk relationships collections).putCollection collection =
      ⟨relationships, collections ++ [collection]⟩ := by
    rw [Prim.putCollection, Prim.putCollectionIn_of_not_mem hfresh]
  rw [outcome_bind, outcome_of_ending (attempt_defineCollection _ _), Stage.defineCollection,
    ScenePath.collection]
  rcases ScenePath.appendProperty_child parent name (Collection.nameLead ++ collection.name) with
    ⟨⟨property, happend⟩, hname⟩ | ⟨happend, hname⟩
  · simp only [happend, hname, Stage.requirePrim_withChild hnode hnew,
      Stage.modifyPrim_withChild hnode hnew, hprim]
    rfl
  · rw [happend, hname]
    rfl

/-- **A collection is written as it is built**, behind the others. -/
theorem outcome_addCollection (description : CollectionDescription)
    (hfresh : description.name ∉ collections.map (·.name)) :
    (addCollection (parent.child name) description).outcome
        (stage.withChild parent name ⟨relationships, collections⟩ .nil) =
      (description.build (parent.child name)).map fun collection => ((),
        stage.withChild parent name ⟨relationships, collections ++ [collection]⟩ .nil) := by
  rw [addCollection, CollectionDescription.build, map_bind_eq]
  refine (outcome_bind_of_map (outcome_check _)).trans (bind_congr fun includes => ?_)
  rw [map_bind_eq]
  refine (outcome_bind_of_map (outcome_check _)).trans (bind_congr fun excludes => ?_)
  rw [map_bind_eq, outcome_defineCollection hnode hnew hfresh]
  cases requirePropertyName (Collection.nameLead ++ description.name) <;> rfl

/-- All relationships of a new prim are written as they are built. -/
theorem outcome_addRelationships (descriptions : List RelationshipDescription) :
    (addRelationships (parent.child name) descriptions).outcome
        (stage.withChild parent name {} .nil) =
      (buildRelationships (parent.child name) [] descriptions).map fun relationships => ((),
        stage.withChild parent name { relationships } .nil) := by
  have hnone : ∀ relationship ∈ ([] : List Relationship), relationship.name ∈ ([] : List String) :=
    nofun
  rw [addRelationships, buildRelationships_eq_buildApart]
  exact outcome_addApart (·.name)
    (fun relationships => stage.withChild parent name { relationships } .nil)
    (fun _ description => outcome_addRelationship hnode hnew description)
    (fun _ _ hbuild => (RelationshipDescription.build_ok hbuild).1) hnone descriptions

/-- So are all its collections. -/
theorem outcome_addCollections (descriptions : List CollectionDescription) :
    (addCollections (parent.child name) descriptions).outcome
        (stage.withChild parent name { relationships } .nil) =
      (buildCollections (parent.child name) [] descriptions).map fun collections => ((),
        stage.withChild parent name { relationships, collections } .nil) := by
  have hnone : ∀ collection ∈ ([] : List Collection), collection.name ∈ ([] : List String) := nofun
  rw [addCollections, buildCollections_eq_buildApart]
  exact outcome_addApart (·.name)
    (fun collections => stage.withChild parent name { relationships, collections } .nil)
    (fun _ description => outcome_addCollection hnode hnew description)
    (fun _ _ hbuild => (CollectionDescription.build_ok hbuild).1) hnone descriptions

end

/-- **Prims are loaded as they are built**, behind the children that are there, if the names of
these were seen. -/
theorem outcome_addPrims (description : Description) {stage : Stage} {parent : PrimPath}
    {node : Node} {seen : List String} (hnode : stage.tree.node? parent = some node)
    (hseen : ∀ name ∈ node.children.names, name.text ∈ seen) :
    (addPrims parent seen description).outcome stage =
      (description.build parent seen).map fun tree => ((), stage.appendAt parent tree) := by
  induction description generalizing stage parent node seen with
  | nil =>
      have hnothing : stage.appendAt parent .nil = stage := by
        rw [Stage.appendAt, Siblings.editAt_eq_self hnode (Siblings.append_nil _)]
      rw [Description.build, Except.map, hnothing]
      rfl
  | cons prim children rest ihchildren ihrest =>
      rw [addPrims, Description.build]
      by_cases hprim : prim.name ∈ seen
      · rw [if_pos hprim, if_pos hprim]
        rfl
      · rw [if_neg hprim, if_neg hprim]
        cases hname : PrimName.ofString? prim.name with
        | none =>
            rw [ScenePath.appendChild_of_none parent hname]
            rfl
        | some name =>
            rw [ScenePath.appendChild_of_some parent hname]
            have htext : name.text = prim.name := PrimName.ofString?_eq_some_iff.mp hname
            have hnew : name ∉ node.children.names := fun hmem => hprim (htext ▸ hseen name hmem)
            have hdefined := outcome_definePrim hnode hnew
            refine (outcome_bind_of_ok rfl).trans ((outcome_bind_of_ok hdefined).trans ?_)
            rw [map_bind_eq]
            have hrelationships := outcome_addRelationships hnode hnew prim.relationships
            refine (outcome_bind_of_map hrelationships).trans (bind_congr fun relationships => ?_)
            rw [map_bind_eq]
            refine (outcome_bind_of_map (outcome_addCollections hnode hnew _)).trans
              (bind_congr fun collections => ?_)
            rw [map_bind_eq]
            -- The children are loaded into a prim without children, and the rest behind that prim.
            have hchild : (stage.withChild parent name
                { relationships, collections } .nil).tree.node? (parent.child name) =
                  some ⟨{ relationships, collections }, .nil⟩ :=
              Stage.node?_withChild hnode hnew
            have hnone : ∀ name ∈ Siblings.nil.names, name.text ∈ ([] : List String) :=
              fun _ hmem => absurd hmem List.not_mem_nil
            have hbelow := ihchildren hchild hnone
            simp only [Stage.appendAt_child_withChild hnode hnew] at hbelow
            refine (outcome_bind_of_map hbelow).trans (bind_congr fun below => ?_)
            have hparent := Stage.node?_appendAt hnode
              (.cons name { relationships, collections } below .nil)
            have hrest := ihrest hparent (htext ▸ Siblings.text_mem_of_append_one hseen)
            rw [map_bind_eq]
            refine hrest.trans ?_
            cases rest.build parent (prim.name :: seen) with
            | error error => rfl
            | ok after =>
                exact congrArg (fun after => Except.ok ((), after)) Stage.appendAt_withChild

/-- **Loading by calls is building in one go.** -/
theorem load_eq_ofDescription (description : Description) :
    load description = Stage.ofDescription description := by
  have hnone : ∀ name ∈ Siblings.nil.names, name.text ∈ ([] : List String) :=
    fun _ hmem => absurd hmem List.not_mem_nil
  have hroot : ({} : Stage).tree.node? .root = some ⟨{}, .nil⟩ := rfl
  rw [load, outcome_addPrims description hroot hnone, Stage.ofDescription]
  cases description.build .root [] <;> rfl

end InPlace

namespace Stage

variable {description : Description}

/-- **The loader accepts the well-formed scenes and builds what they say.**  A text is loaded as the
description that it is read as, and a description as by the calls of `InPlace.load`.  That is done
exactly if the description is accepted, and the stage then holds what it says, and no more. -/
theorem loaded_iff_accepted (description : Description) :
    (∀ text, Json.readText Description.reader text = .ok description →
      ofJson text = ofDescription description) ∧
    InPlace.load description = ofDescription description ∧
    ((∃ stage, ofDescription description = .ok stage) ↔ description.Accepted) ∧
    ∀ stage, ofDescription description = .ok stage → stage.Holds description := by
  refine ⟨fun text hread => ?_, InPlace.load_eq_ofDescription description,
    exists_ofDescription_iff, fun stage => holds_of_ofDescription⟩
  rw [ofJson, hread]

/-- A counter with a till, described with a strength that stands in the metadata too, and with a
rule that there is not. -/
def counterDescription : Description :=
  .cons
    { name := "Counter"
      relationships := [{
        name := "holds"
        targets := ["/Counter/Till", "/Coins.size"]
        bindMaterialAs := some "strongerThanDescendants"
        metadata := [("bindMaterialAs", "weakerThanDescendants"), ("note", "daily")] }]
      collections := [{
        name := "all"
        includes := ["/Counter"]
        expansionRule := some "nearby" }] }
    (.cons { name := "Till" } .nil .nil) .nil

/-- It is loaded with both prims.  The strength is the one that stands apart, and the collection has
the usual rule. -/
theorem counterDescription_loaded :
    let counter : PrimPath := .child .root ⟨"Counter", by decide⟩
    counterDescription.Accepted ∧
    ∃ stage, ofDescription counterDescription = .ok stage ∧ stage.Holds counterDescription ∧
      stage.traverse.map PrimPath.text = ["/Counter", "/Counter/Till"] ∧
      (stage.relationships counter).map (·.metadata.get? Metadata.strengthKey) =
        [some "strongerThanDescendants"] ∧
      (stage.collections counter).map (·.expansionRule) = [.expandPrims] := by
  intro counter
  obtain ⟨_, _, haccepted, hholds⟩ := loaded_iff_accepted counterDescription
  have hloaded : ((ofDescription counterDescription).toOption.map fun stage =>
      ((stage.relationships counter).map (·.metadata.get? Metadata.strengthKey),
        (stage.collections counter).map (·.expansionRule))) =
      some ([some "strongerThanDescendants"], [.expandPrims]) := by decide
  cases hstage : ofDescription counterDescription with
  | error error =>
      rw [hstage] at hloaded
      cases hloaded
  | ok stage =>
      rw [hstage] at hloaded
      obtain ⟨hstrength, hrule⟩ := Prod.mk.inj (Option.some.inj hloaded)
      have hheld := hholds stage hstage
      refine ⟨haccepted.mp ⟨stage, hstage⟩, stage, rfl, hheld, ?_, hstrength, hrule⟩
      rw [hheld.paths_eq]
      decide

end Stage

end MaterialBinding
