import MaterialBinding.Collection.Membership
import MaterialBinding.Proofs.Stage.Tree

/-!
# Stages place by place

Two trees are paired if they have the same names in the same places and their prims are related
place by place.  A relation that each prim has to itself pairs every tree with what becomes of it
when one prim is changed to a related one (`Paired.modify`, `Paired.editAt`); this is how a change
at one place is told from everything it leaves alone.

Whatever is asked about paired stages has paired answers (`Stage.Paired.hasPrim_eq`,
`Stage.Paired.children_eq`, `Stage.Paired.prim`).
-/

namespace MaterialBinding

/-- Trees of one shape whose prims are related place by place; both stand below `above`. -/
inductive Siblings.Paired (related : PrimPath → Prim → Prim → Prop) :
    PrimPath → Siblings → Siblings → Prop
  | nil {above : PrimPath} : Paired related above .nil .nil
  | cons {above : PrimPath} {name : PrimName} {prim prim' : Prim}
      {children children' rest rest' : Siblings}
      (hprim : related (above.child name) prim prim')
      (hchildren : Paired related (above.child name) children children')
      (hrest : Paired related above rest rest') :
      Paired related above (.cons name prim children rest) (.cons name prim' children' rest')

/-- Prims at one place that are related and have paired trees below. -/
def Node.Paired (related : PrimPath → Prim → Prim → Prop) (place : PrimPath)
    (node other : Node) : Prop :=
  related place node.prim other.prim ∧ Siblings.Paired related place node.children other.children

/-- Stages whose trees are paired. -/
def Stage.Paired (related : PrimPath → Prim → Prim → Prop) (stage other : Stage) : Prop :=
  Siblings.Paired related .root stage.tree other.tree

variable {related : PrimPath → Prim → Prim → Prop}

namespace Siblings.Paired

variable {above : PrimPath} {tree other : Siblings} {name : PrimName}

/-- A tree is paired with itself if each prim is related to itself. -/
theorem refl (hrefl : ∀ place prim, related place prim prim) (tree : Siblings) :
    Paired related above tree tree := by
  induction tree generalizing above with
  | nil => exact .nil
  | cons name prim children rest ihchildren ihrest =>
      exact .cons (hrefl _ prim) ihchildren ihrest

/-! ## Lookups -/

/-- Paired siblings are found under the same names. -/
theorem find? (h : Paired related above tree other) (name : PrimName) :
    Option.Rel (Node.Paired related (above.child name)) (tree.find? name) (other.find? name) := by
  induction h with
  | nil => exact .none
  | @cons above first prim prim' children children' rest rest' hprim hchildren _ _ ih =>
      rw [Siblings.find?, Siblings.find?]
      by_cases hname : first = name
      · subst hname
        rw [if_pos rfl, if_pos rfl]
        exact .some ⟨hprim, hchildren⟩
      · rw [if_neg hname, if_neg hname]
        exact ih

/-- One path leads to paired places. -/
theorem node? (hbare : related .root {} {}) (h : Paired related .root tree other)
    (path : PrimPath) :
    Option.Rel (Node.Paired related path) (tree.node? path) (other.node? path) := by
  induction path with
  | root => exact .some ⟨hbare, h⟩
  | child above name ih =>
      rw [node?_child, node?_child]
      generalize tree.node? above = one at ih ⊢
      generalize other.node? above = two at ih ⊢
      cases ih with
      | none => exact .none
      | some hboth => exact hboth.2.find? name

/-- Paired siblings have the same names. -/
theorem names_eq (h : Paired related above tree other) : other.names = tree.names := by
  induction h with
  | nil => rfl
  | cons _ _ _ _ ih => rw [names, names, ih]

/-- Paired trees have as many collections, if paired prims have. -/
theorem collectionCount_eq (h : Paired related above tree other)
    (hcollections : ∀ {place prim prim'}, related place prim prim' →
      prim'.collections = prim.collections) :
    other.collectionCount = tree.collectionCount := by
  induction h with
  | nil => rfl
  | cons hprim _ _ ihchildren ihrest =>
      rw [collectionCount, collectionCount, hcollections hprim, ihchildren, ihrest]

/-! ## Changes -/

/-- A change of one sibling to a related one. -/
theorem modify (hrefl : ∀ place prim, related place prim prim) {f : Node → Node}
    (hf : ∀ node, Node.Paired related (above.child name) node (f node)) (tree : Siblings) :
    Paired related above tree (tree.modify name f) := by
  induction tree with
  | nil => exact .nil
  | cons first prim children rest _ ih =>
      by_cases hname : first = name
      · subst hname
        obtain ⟨hprim, hchildren⟩ := hf ⟨prim, children⟩
        rw [modify_cons_self]
        exact .cons hprim hchildren (refl hrefl rest)
      · rw [modify_cons_of_ne hname]
        exact .cons (hrefl _ prim) (refl hrefl children) ih

/-- A change below one place to a paired tree. -/
theorem editAt (hrefl : ∀ place prim, related place prim prim) {path : PrimPath}
    {f : Siblings → Siblings} (hf : ∀ children, Paired related path children (f children))
    (tree : Siblings) : Paired related .root tree (tree.editAt path f) := by
  induction path generalizing f with
  | root => exact hf tree
  | child above name ih =>
      have hnode : ∀ node : Node, Node.Paired related (above.child name) node
          { node with children := f node.children } :=
        fun node => ⟨hrefl _ node.prim, hf node.children⟩
      exact ih fun children => modify hrefl hnode children

end Siblings.Paired

namespace Stage

variable {stage other : Stage}

/-- Changing one prim to a related one. -/
theorem paired_modifyPrim (hrefl : ∀ place prim, related place prim prim) {f : Prim → Prim}
    (path : ScenePath) (hf : ∀ prim, related path.prim prim (f prim)) :
    stage.Paired related (stage.modifyPrim path f) := by
  obtain ⟨place, property, hbare⟩ := path
  cases property with
  | some property => exact Siblings.Paired.refl hrefl stage.tree
  | none =>
      cases place with
      | root => exact Siblings.Paired.refl hrefl stage.tree
      | child above name =>
          have hnode : ∀ node : Node, Node.Paired related (above.child name) node
              { node with prim := f node.prim } :=
            fun node => ⟨hf node.prim, Siblings.Paired.refl hrefl node.children⟩
          refine Siblings.Paired.editAt hrefl (fun children => ?_) stage.tree
          exact Siblings.Paired.modify hrefl hnode children

namespace Paired

variable (hbare : ∀ place, related place {} {})

include hbare

/-- Paired places are found at the same paths. -/
theorem node? (h : stage.Paired related other) (path : ScenePath) :
    Option.Rel (Node.Paired related path.prim) (stage.node? path) (other.node? path) := by
  rw [Stage.node?, Stage.node?]
  split
  · exact .none
  · exact Siblings.Paired.node? (hbare .root) h path.prim

/-- Paired stages have the same prims. -/
theorem hasPrim_eq (h : stage.Paired related other) (path : ScenePath) :
    other.hasPrim path = stage.hasPrim path := by
  have hnode := h.node? hbare path
  rw [hasPrim, hasPrim]
  generalize stage.node? path = one at hnode ⊢
  generalize other.node? path = two at hnode ⊢
  cases hnode <;> rfl

/-- Paired stages have the same children. -/
theorem children_eq (h : stage.Paired related other) (path : ScenePath) :
    other.children path = stage.children path := by
  have hnode := h.node? hbare path
  rw [children, children]
  generalize stage.node? path = one at hnode ⊢
  generalize other.node? path = two at hnode ⊢
  cases hnode with
  | none => rfl
  | some hboth => simp only [hboth.2.names_eq]

/-- What is authored at a path is related to what is authored there on the other stage. -/
theorem prim (h : stage.Paired related other) (path : ScenePath) :
    related path.prim (stage.prim path) (other.prim path) := by
  have hnode := h.node? hbare path
  rw [Stage.prim, Stage.prim]
  generalize stage.node? path = one at hnode ⊢
  generalize other.node? path = two at hnode ⊢
  cases hnode with
  | none => exact hbare path.prim
  | some hboth => exact hboth.1

end Paired

/-- The collections of paired stages nest equally deep, if related prims have the same ones. -/
theorem Paired.nestingLimit_eq (h : stage.Paired related other)
    (hcollections : ∀ {place prim prim'}, related place prim prim' →
      prim'.collections = prim.collections) :
    other.nestingLimit = stage.nestingLimit := by
  rw [nestingLimit, nestingLimit, h.collectionCount_eq hcollections]

end Stage

end MaterialBinding
