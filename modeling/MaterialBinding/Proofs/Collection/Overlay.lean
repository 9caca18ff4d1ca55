import Mathlib.Logic.Relation
import MaterialBinding.Proofs.Collection.Precedence
import MaterialBinding.Proofs.Collection.Recursion

/-!
# Collections in layers

What a collection says of each path is a map.  The map of a collection is made of layers, the later
on top of the earlier: its own entry for the root, one layer for each include, its excludes.  The
layer of an include that addresses another collection is the map of that collection, as it is on its
own.

Flattening in place does not make these maps one by one.  All levels write their rules into one map
and keep to one stack of addresses.  `Gathers` says what such an action comes to, from any map and
inside of any collections, and `gathers_flattenInto` proves that it is what `entriesOf` gives.  So a
nested collection puts the same layer on whatever has been gathered before (`compute_composes`).
-/

namespace MaterialBinding

open Relation

/-- What is said of each path. -/
abbrev RuleMap := ScenePath → Option Rule

namespace RuleMap

/-- Nothing is said. -/
def empty : RuleMap := fun _ => none

/-- One path has a rule. -/
def single (path : ScenePath) (rule : Rule) : RuleMap :=
  fun other => if other = path then some rule else none

/-- One map on top of another: where both have a rule, that of the upper one counts. -/
def overlay (lower upper : RuleMap) : RuleMap := fun path => (upper path).or (lower path)

/-- Many maps on top of each other, the lowest first. -/
def pile (layers : List RuleMap) : RuleMap := layers.foldl overlay empty

variable {lower upper top : RuleMap} {layers others : List RuleMap}

/-- Nothing laid over a map leaves the map. -/
@[simp] theorem overlay_empty (lower : RuleMap) : lower.overlay empty = lower := rfl

/-- What is laid over nothing stays alone. -/
@[simp] theorem empty_overlay (upper : RuleMap) : empty.overlay upper = upper :=
  funext fun _ => Option.or_none

/-- It makes no difference which of three maps are laid together first. -/
theorem overlay_assoc : (lower.overlay upper).overlay top = lower.overlay (upper.overlay top) :=
  funext fun _ => Option.or_assoc.symm

/-- Laying maps over one another one by one makes their pile. -/
theorem foldl_overlay (layers : List RuleMap) (lower : RuleMap) :
    layers.foldl overlay lower = lower.overlay (pile layers) := by
  induction layers generalizing lower with
  | nil => rfl
  | cons layer layers ih =>
      rw [pile, List.foldl_cons, List.foldl_cons, ih, ih, empty_overlay, overlay_assoc]

@[simp] theorem pile_nil : pile [] = empty := rfl

/-- The first layer of a pile lies below all others. -/
theorem pile_cons (layer : RuleMap) (layers : List RuleMap) :
    pile (layer :: layers) = layer.overlay (pile layers) := by
  rw [pile, List.foldl_cons, empty_overlay, foldl_overlay]

/-- Two piles that are put on one another are one pile. -/
theorem pile_append : pile (layers ++ others) = (pile layers).overlay (pile others) := by
  rw [pile, List.foldl_append, foldl_overlay, ← pile]

end RuleMap

namespace MemberRules

open RuleMap

/-- Rules that were written one after the other lie on top of each other. -/
theorem rule?_append_eq_overlay (first second : List (ScenePath × Rule)) :
    rule? ⟨first ++ second⟩ = overlay (rule? ⟨first⟩) (rule? ⟨second⟩) :=
  funext fun path => rule?_append first second path

/-- One entry is one rule. -/
theorem rule?_singleton_eq_single (path : ScenePath) (rule : Rule) :
    rule? ⟨[(path, rule)]⟩ = single path rule :=
  funext fun other => rule?_singleton path rule other

/-- Parts that follow one another lie over one another. -/
theorem rule?_flatten (parts : List (List (ScenePath × Rule))) :
    rule? ⟨parts.flatten⟩ = pile (parts.map fun part => rule? ⟨part⟩) := by
  induction parts with
  | nil => rfl
  | cons part parts ih =>
      rw [List.flatten_cons, rule?_append_eq_overlay, ih, List.map_cons, pile_cons]

/-- Entries with one rule lie over one another as single rules. -/
theorem rule?_map_eq_pile (rule : Rule) (paths : List ScenePath) :
    rule? ⟨paths.map fun path => (path, rule)⟩ = pile (paths.map fun path => single path rule) := by
  induction paths with
  | nil => rfl
  | cons path paths ih =>
      rw [List.map_cons, ← List.singleton_append, rule?_append_eq_overlay, ih,
        rule?_singleton_eq_single, List.map_cons, pile_cons]

/-! ## Flattening in place -/

/-- What flattening in place works on. -/
structure Gathering where
  /-- The rules gathered so far, by all levels. -/
  rules : RuleMap
  /-- The addresses of the collections that flattening is inside of, innermost first. -/
  inside : List ScenePath

/-- An action on what is gathered, which may fail. -/
abbrev Gather := StateT Gathering (Except Error)

/-- Writes one rule, over any that its path has. -/
def write (path : ScenePath) (rule : Rule) : Gather Unit :=
  modify fun gathering => { gathering with rules := gathering.rules.overlay (single path rule) }

/-- Goes into a collection, unless it is inside of it. -/
def enter (address : ScenePath) : Gather Unit := fun gathering =>
  if address ∈ gathering.inside then .error (.collectionCycle address)
  else .ok ((), { gathering with inside := address :: gathering.inside })

/-- Goes out of the innermost collection. -/
def leave : Gather Unit :=
  modify fun gathering => { gathering with inside := gathering.inside.tail }

/-- Writes the rules of one collection; `intoItem` is told of its includes that address other
collections. -/
def fill (intoItem : ScenePath → Gather Unit) (collection : Collection) : Gather Unit := do
  let rule := Rule.included collection.expansionRule
  if collection.includeRoot then
    write .root rule
  collection.includes.forM fun item =>
    if item.asCollection?.isNone then write item rule else intoItem item
  collection.excludes.forM fun item => write item .excluded

/-- Flattens the collection with that address into what is gathered. -/
def flattenInto (stage : Stage) : Nat → ScenePath → Collection → Gather Unit
  | 0, address, _ => throw (.collectionCycle address)
  | depth + 1, address, collection => do
    enter address
    fill (fun item =>
      match stage.collectionAt? item with
      | some nested => flattenInto stage depth item nested
      | none => pure ()) collection
    leave

/-- Inside of these collections the action puts the entries on top of whatever has been gathered,
or fails as they do. -/
def Gathers (action : Gather Unit) (inside : List ScenePath)
    (entries : Except Error (List (ScenePath × Rule))) : Prop :=
  ∀ gathered : RuleMap, action ⟨gathered, inside⟩ =
    entries.map fun entries => ((), ⟨gathered.overlay (rule? ⟨entries⟩), inside⟩)

section Gathers

variable {inside : List ScenePath} {action next : Gather Unit}
  {result following : Except Error (List (ScenePath × Rule))}

/-- A step that does nothing writes nothing. -/
theorem gathers_pure (inside : List ScenePath) : Gathers (pure ()) inside (.ok []) :=
  fun _ => rfl

/-- A step that writes one entry writes this one. -/
theorem gathers_write (inside : List ScenePath) (path : ScenePath) (rule : Rule) :
    Gathers (write path rule) inside (.ok [(path, rule)]) := by
  intro gathered
  rw [Except.map, rule?_singleton_eq_single]
  rfl

/-- One action after the other gathers what both gather. -/
theorem Gathers.bind (haction : Gathers action inside result)
    (hnext : Gathers next inside following) :
    Gathers (action >>= fun _ => next) inside
      (result >>= fun entries => following.map (entries ++ ·)) := by
  intro gathered
  -- Run by hand, so that what the first action leaves can be named before the second one.
  change (action ⟨gathered, inside⟩ >>= fun done => next done.2) = _
  rw [haction gathered]
  cases result with
  | error error => rfl
  | ok entries =>
      change next ⟨gathered.overlay (rule? ⟨entries⟩), inside⟩ = _
      rw [hnext]
      cases following with
      | error error => rfl
      | ok others =>
          simp only [Except.map, bind, Except.bind, overlay_assoc, rule?_append_eq_overlay]

/-- **Steps for several items** write what each of them writes, one after another, and fail where
the first of them fails. -/
theorem gathers_forM {step : ScenePath → Gather Unit}
    {entriesFor : ScenePath → Except Error (List (ScenePath × Rule))}
    (hstep : ∀ item, Gathers (step item) inside (entriesFor item)) (items : List ScenePath) :
    Gathers (items.forM step) inside ((items.mapM entriesFor).map List.flatten) := by
  induction items with
  | nil => exact gathers_pure inside
  | cons item items ih =>
      have hboth := (hstep item).bind ih
      rw [List.mapM_cons]
      cases hitem : entriesFor item with
      | error error => rwa [hitem] at hboth
      | ok entries =>
          rw [hitem] at hboth
          cases hitems : items.mapM entriesFor with
          | error error => rwa [hitems] at hboth
          | ok others => rwa [hitems] at hboth

/-- Writing one rule for several paths writes the entries in their order. -/
theorem gathers_writes (inside : List ScenePath) (rule : Rule) (items : List ScenePath) :
    Gathers (items.forM fun item => write item rule) inside
      (.ok (items.map fun item => (item, rule))) := by
  induction items with
  | nil => exact gathers_pure inside
  | cons item items ih => exact (gathers_write inside item rule).bind ih

end Gathers

variable {stage : Stage} {depth : Nat} {inside : List ScenePath} {address item owner : ScenePath}
  {collection nested : Collection} {entries : List (ScenePath × Rule)} {rules : MemberRules}

/-- **What a collection fills in** is its entry for the root, then what its includes give, then its
excludes. -/
theorem gathers_fill {intoItem : ScenePath → Gather Unit}
    (hitem : ∀ item, item.asCollection?.isNone = false → Gathers (intoItem item) inside
      (includedEntries stage depth inside (.included collection.expansionRule) item)) :
    Gathers (fill intoItem collection) inside
      (collection.includes.mapM (includedEntries stage depth inside
          (.included collection.expansionRule)) >>= fun included =>
        .ok (rootEntries collection ++ included.flatten ++ excludedEntries collection)) := by
  have hstep : ∀ item, Gathers
      (if item.asCollection?.isNone then write item (.included collection.expansionRule)
        else intoItem item) inside
      (includedEntries stage depth inside (.included collection.expansionRule) item) := by
    intro item
    cases haddress : item.asCollection?.isNone with
    | true =>
        rw [includedEntries, haddress]
        exact gathers_write inside item _
    | false => exact hitem item haddress
  have hrest := (gathers_forM hstep collection.includes).bind
    (gathers_writes inside .excluded collection.excludes)
  rw [fill, rootEntries]
  -- The rule for the root is written first, or the action begins with the includes.
  generalize collection.includes.mapM (includedEntries stage depth inside _) = included at hrest ⊢
  cases included with
  | error error =>
      cases collection.includeRoot with
      | false => exact hrest
      | true => exact (gathers_write inside .root _).bind hrest
  | ok parts =>
      cases collection.includeRoot with
      | false => exact hrest
      | true => exact (gathers_write inside .root _).bind hrest

/-- Inside of a collection that is entered, and back out of it. -/
theorem Gathers.entered {action : Gather Unit} {result : Except Error (List (ScenePath × Rule))}
    (haction : Gathers action (address :: inside) result) :
    Gathers (do enter address; action; leave) inside
      (if address ∈ inside then .error (.collectionCycle address) else result) := by
  intro gathered
  change (enter address ⟨gathered, inside⟩ >>= fun done => (do action; leave) done.2) = _
  rw [enter]
  by_cases hinside : address ∈ inside
  · rw [if_pos hinside, if_pos hinside]
    rfl
  · rw [if_neg hinside, if_neg hinside]
    change (action ⟨gathered, address :: inside⟩ >>= fun done => leave done.2) = _
    rw [haction]
    cases result with
    | error error => rfl
    | ok entries => rfl

/-- **Flattening in place is flattening.**  Whatever has been gathered and whatever it is inside of,
it fails as flattening fails, or puts the entries on top and leaves the stack as it was. -/
theorem gathers_flattenInto :
    Gathers (flattenInto stage depth address collection) inside
      (entriesOf stage depth inside address collection) := by
  induction depth generalizing inside address collection with
  | zero => exact fun _ => rfl
  | succ depth ih =>
      rw [flattenInto, entriesOf_succ]
      refine Gathers.entered (gathers_fill fun item haddress => ?_)
      rw [includedEntries, haddress]
      cases stage.collectionAt? item with
      | some nested => exact ih
      | none => exact gathers_pure _

/-! ## Inside of others and on its own -/

/-- What is flattened inside of some collections is flattened alike inside of fewer. -/
theorem entriesOf_of_subset {fewer : List ScenePath} (hfewer : fewer ⊆ inside)
    (hentries : entriesOf stage depth inside address collection = .ok entries) :
    entriesOf stage depth fewer address collection = .ok entries := by
  induction depth generalizing fewer inside address collection entries with
  | zero => cases hentries
  | succ depth ih =>
      obtain ⟨hinside, parts, hparts, hwhole⟩ := entriesOf_eq_ok_iff.mp hentries
      have hnot : address ∉ fewer := fun hmem => hinside (hfewer hmem)
      refine entriesOf_eq_ok_iff.mpr ⟨hnot, parts, ?_, hwhole⟩
      refine hparts.imp fun item part hpart => ?_
      cases hat : stage.collectionAt? item with
      | some nested =>
          rw [includedEntries_of_collectionAt? hat] at hpart ⊢
          exact ih (List.cons_subset_cons address hfewer) hpart
      | none =>
          rw [includedEntries, hat] at hpart ⊢
          exact hpart

/-- A collection that the stage has is addressed by its owner and its name. -/
theorem collection_of_collectionAt? (hat : stage.collectionAt? item = some nested) :
    ScenePath.collection item.prim nested.name = .ok item := by
  obtain ⟨owner, name, haddress, hfind⟩ := Stage.collectionAt?_eq_some_iff.mp hat
  have hname : nested.name = name := by simpa using List.find?_some hfind
  obtain ⟨_, property, hproperty, htext⟩ := ScenePath.property_of_asCollection? haddress
  rw [ScenePath.collection, hname, ← htext]
  exact ScenePath.appendProperty_of_property hproperty

/-- What the collection with an address is flattened into, inside of others, is its membership. -/
theorem compute_of_entriesOf
    (haddress : ScenePath.collection address.prim collection.name = .ok address)
    (hentries : entriesOf stage stage.nestingLimit inside address collection = .ok entries) :
    compute stage address.prim collection = .ok ⟨entries⟩ :=
  compute_eq_ok_iff.mpr ⟨address, haddress, entriesOf_of_subset (List.nil_subset _) hentries⟩

/-- A turn of the flattening that has an end: its collection goes by its address. -/
structure Turn.Ends (stage : Stage) (turn : Turn) : Prop where
  address_eq : ScenePath.collection turn.address.prim turn.collection.name = .ok turn.address
  entries : ∃ entries,
    entriesOf stage stage.nestingLimit turn.inside turn.address turn.collection = .ok entries

/-- If a turn ends, so does each that it calls for. -/
theorem Turn.Ends.of_calls {turn called : Turn} (h : turn.Ends stage)
    (hcall : Turn.Calls stage called turn) : called.Ends stage := by
  cases hcall with
  | intro _ hmem hat =>
      obtain ⟨entries, hentries⟩ := h.entries
      obtain ⟨_, hnested⟩ := exists_entries_of_ok hentries
      exact ⟨collection_of_collectionAt? hat, hnested _ hmem _ hat⟩

/-- So all turns end that are reached from one that does. -/
theorem Turn.Ends.of_reaches {turn called : Turn} (h : turn.Ends stage)
    (hreaches : ReflTransGen (Turn.Calls stage) called turn) : called.Ends stage := by
  induction hreaches using ReflTransGen.head_induction_on with
  | refl => exact h
  | head hcall _ ih => exact ih.of_calls hcall

/-- **One turn in place** is the membership of its collection, put on top. -/
theorem Turn.Ends.flattenInto_eq {turn : Turn} (h : turn.Ends stage) :
    ∃ inner, compute stage turn.address.prim turn.collection = .ok inner ∧
      ∀ gathered, flattenInto stage stage.nestingLimit turn.address turn.collection
        ⟨gathered, turn.inside⟩ = .ok ((), ⟨gathered.overlay inner.rule?, turn.inside⟩) := by
  obtain ⟨entries, hentries⟩ := h.entries
  refine ⟨⟨entries⟩, compute_of_entriesOf h.address_eq hentries, fun gathered => ?_⟩
  rw [gathers_flattenInto gathered, hentries]
  rfl

/-! ## Layers -/

/-- What an include of a collection with that expansion rule puts on top: the rule for its path; or
the rules of the collection that it addresses, under its own owner; or nothing, if that is
missing. -/
inductive Layer (stage : Stage) (expansion : ExpansionRule) : ScenePath → RuleMap → Prop
  | path {item : ScenePath} (hplain : item.asCollection? = none) :
      Layer stage expansion item (single item (.included expansion))
  | nested {item : ScenePath} {nested : Collection} {inner : MemberRules}
      (hat : stage.collectionAt? item = some nested)
      (hinner : compute stage item.prim nested = .ok inner) :
      Layer stage expansion item inner.rule?
  | missing {item : ScenePath} (haddress : item.asCollection?.isSome = true)
      (hat : stage.collectionAt? item = none) : Layer stage expansion item empty

/-- What an include is flattened into is one layer. -/
theorem layer_of_includedEntries {expansion : ExpansionRule} {part : List (ScenePath × Rule)}
    (hpart : includedEntries stage stage.nestingLimit inside (.included expansion) item =
      .ok part) : Layer stage expansion item (rule? ⟨part⟩) := by
  cases hat : stage.collectionAt? item with
  | some nested =>
      rw [includedEntries_of_collectionAt? hat] at hpart
      exact .nested hat (compute_of_entriesOf (collection_of_collectionAt? hat) hpart)
  | none =>
      rw [includedEntries, hat] at hpart
      cases haddress : item.asCollection? with
      | none =>
          rw [haddress] at hpart
          obtain rfl := Except.ok.inj hpart
          rw [rule?_singleton_eq_single]
          exact .path haddress
      | some place =>
          have hsome : item.asCollection?.isSome = true := by
            rw [haddress]
            rfl
          rw [haddress] at hpart
          obtain rfl := Except.ok.inj hpart
          exact .missing hsome hat

/-- The layers of a collection: those of its includes between its entry for the root and its
excludes. -/
def layersWith (collection : Collection) (included : List RuleMap) : List RuleMap :=
  (if collection.includeRoot then [single .root (.included collection.expansionRule)] else []) ++
    included ++ collection.excludes.map fun path => single path .excluded

/-- The entries of a collection lie over one another in the order of its layers. -/
theorem rule?_eq_pile (parts : List (List (ScenePath × Rule))) :
    rule? ⟨rootEntries collection ++ parts.flatten ++ excludedEntries collection⟩ =
      pile (layersWith collection (parts.map fun part => rule? ⟨part⟩)) := by
  have hroot : rule? ⟨rootEntries collection⟩ = pile (if collection.includeRoot then
      [single .root (.included collection.expansionRule)] else []) := by
    rw [rootEntries]
    split
    · rw [rule?_singleton_eq_single, pile_cons, pile_nil, overlay_empty]
    · rfl
  rw [rule?_append_eq_overlay, rule?_append_eq_overlay, hroot, rule?_flatten, excludedEntries,
    rule?_map_eq_pile, layersWith, pile_append, pile_append]

/-- A collection that can be flattened has a layer for each of its includes. -/
theorem exists_layers
    (hentries : entriesOf stage stage.nestingLimit inside address collection = .ok entries) :
    ∃ included, List.Forall₂ (Layer stage collection.expansionRule) collection.includes included ∧
      rule? ⟨entries⟩ = pile (layersWith collection included) := by
  rw [entriesOf_nestingLimit] at hentries
  split at hentries
  · cases hentries
  · obtain ⟨parts, hwalk, hwhole⟩ := bind_eq_ok.mp hentries
    obtain rfl := Except.ok.inj hwhole
    have hlayers : List.Forall₂ (fun item part =>
        Layer stage collection.expansionRule item (rule? ⟨part⟩)) collection.includes parts :=
      (mapM_eq_ok_iff.mp hwalk).imp fun _ _ hpart => layer_of_includedEntries hpart
    exact ⟨parts.map fun part => rule? ⟨part⟩, List.forall₂_map_right_iff.mpr hlayers,
      rule?_eq_pile parts⟩

/-- The flattening of a collection with a membership is a turn that ends. -/
theorem Turn.ends_of_compute (hcompute : compute stage owner collection = .ok rules)
    (haddress : owner.collection collection.name = .ok address) :
    Turn.Ends stage ⟨[], address, collection⟩ := by
  obtain ⟨same, hsame, hentries⟩ := compute_eq_ok_iff.mp hcompute
  obtain rfl := Except.ok.inj (haddress.symm.trans hsame)
  obtain ⟨howner, _, hprim, _⟩ := ScenePath.fields_of_appendProperty haddress
  have hown : ScenePath.collection address.prim collection.name = .ok address := by
    rw [hprim, ← howner, haddress]
  exact ⟨hown, _, hentries⟩

/-- **Collections compose.**  If a collection has a membership, so has each collection that it
includes, under the owner of that.  Its rules are layers, the later over the earlier: its entry for
the root; for each include in order the rule for its path, or the rules that the included collection
has on its own; its excludes.

While it is flattened in place, each collection that is come to puts on top what it is on its own,
whatever has been gathered before and whichever way has led there. -/
theorem compute_composes (hcompute : compute stage owner collection = .ok rules) :
    (∀ item ∈ collection.includes, ∀ nested, stage.collectionAt? item = some nested →
      ∃ inner, compute stage item.prim nested = .ok inner) ∧
    (∃ included, List.Forall₂ (Layer stage collection.expansionRule) collection.includes included ∧
      rules.rule? = pile (layersWith collection included)) ∧
    ∀ address, owner.collection collection.name = .ok address →
      ∀ turn, ReflTransGen (Turn.Calls stage) turn ⟨[], address, collection⟩ →
        ∃ inner, compute stage turn.address.prim turn.collection = .ok inner ∧
          ∀ gathered, flattenInto stage stage.nestingLimit turn.address turn.collection
            ⟨gathered, turn.inside⟩ = .ok ((), ⟨gathered.overlay inner.rule?, turn.inside⟩) := by
  obtain ⟨address, haddress, hentries⟩ := compute_eq_ok_iff.mp hcompute
  have hends : ∀ start, owner.collection collection.name = .ok start →
      Turn.Ends stage ⟨[], start, collection⟩ := fun _ => Turn.ends_of_compute hcompute
  refine ⟨?_, exists_layers hentries, ?_⟩
  · intro item hmem nested hat
    have hcall : Turn.Calls stage ⟨[address], item, nested⟩ ⟨[], address, collection⟩ :=
      .intro List.not_mem_nil hmem hat
    obtain ⟨inner, hinner, _⟩ := ((hends address haddress).of_calls hcall).flattenInto_eq
    exact ⟨inner, hinner⟩
  · intro start hstart turn hreaches
    exact ((hends start hstart).of_reaches hreaches).flattenInto_eq

end MemberRules

namespace Stage

/-- An orchard with a pear; its collection `fruit` includes the pear alone. -/
def orchardHistory : List Edit :=
  let orchard : PrimPath := .child .root ⟨"Orchard", by decide⟩
  [.definePrim (orchard.child ⟨"Pear", by decide⟩),
    .defineCollection orchard
      { name := "fruit", includes := [orchard.child ⟨"Pear", by decide⟩],
        expansionRule := .explicitOnly }]

/-- A harvest of all in the orchard but the pear.  On the way through the harvest the fruit are what
they are on their own, with their own expansion rule. -/
theorem harvest_composes :
    let orchard : PrimPath := .child .root ⟨"Orchard", by decide⟩
    let pear : PrimPath := orchard.child ⟨"Pear", by decide⟩
    let fruit : ScenePath :=
      .ofProperty .root ⟨"Orchard", by decide⟩ ⟨"collection:fruit", by decide⟩
    let harvest : ScenePath :=
      .ofProperty .root ⟨"Orchard", by decide⟩ ⟨"collection:harvest", by decide⟩
    let stage := orchardHistory.foldl Edit.run {}
    let fruits : Collection :=
      { name := "fruit", includes := [pear], expansionRule := .explicitOnly }
    let harvested : Collection :=
      { name := "harvest", includes := [orchard, fruit], excludes := [pear] }
    ∃ rules inner, MemberRules.compute stage orchard harvested = .ok rules ∧
      MemberRules.compute stage orchard fruits = .ok inner ∧
      (∃ included, List.Forall₂ (MemberRules.Layer stage .expandPrims) [orchard, fruit] included ∧
        rules.rule? = RuleMap.pile (MemberRules.layersWith harvested included)) ∧
      ∀ gathered, MemberRules.flattenInto stage stage.nestingLimit fruit fruits
        ⟨gathered, [harvest]⟩ = .ok ((), ⟨gathered.overlay inner.rule?, [harvest]⟩) := by
  intro orchard pear fruit harvest stage fruits harvested
  have hcompute : MemberRules.compute stage orchard harvested =
      .ok ⟨[(orchard, .included .expandPrims), (pear, .included .explicitOnly),
        (pear, .excluded)]⟩ := by decide
  have hat : stage.collectionAt? fruit = some fruits := by decide
  have hcall : MemberRules.Turn.Calls stage ⟨[harvest], fruit, fruits⟩ ⟨[], harvest, harvested⟩ :=
    .intro List.not_mem_nil (by decide) hat
  obtain ⟨_, hlayers, hturns⟩ := MemberRules.compute_composes hcompute
  obtain ⟨inner, hinner, hflatten⟩ := hturns harvest (by decide) _ (.single hcall)
  exact ⟨_, inner, hcompute, hinner, hlayers, hflatten⟩

end Stage

end MaterialBinding
