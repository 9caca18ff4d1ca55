import MaterialBinding.Description.Basic

/-!
# The objects of a description

A description is a document, and `Description.objects` lists the prims that are described in it in
document order, each under the text of its path.

What a tree is described as has the paths of the tree in that order (`objects_describe`).
-/

namespace MaterialBinding

/-- What is written before the names of the children of a prim, up to their slash. -/
def PrimPath.lead (path : PrimPath) : String := String.ofList path.chars

/-- The lead of a child goes on after that of its parent. -/
theorem PrimPath.lead_child (above : PrimPath) (name : PrimName) :
    (above.child name).lead = above.lead ++ "/" ++ name.text := by
  rw [← String.toList_inj]
  simp [lead, chars]

/-- Below the root the lead is the text. -/
theorem PrimPath.text_eq_lead (above : PrimPath) (name : PrimName) :
    (above.child name).text = (above.child name).lead := rfl

/-- The described prims in document order, each under the text of its path; `lead` is what is
written before the slash of those side by side. -/
def Description.objects (lead : String) : Description → List (String × PrimDescription)
  | nil => []
  | cons prim children rest =>
    (lead ++ "/" ++ prim.name, prim) ::
      (children.objects (lead ++ "/" ++ prim.name) ++ rest.objects lead)

/-- **A tree is described in the order of its paths.** -/
theorem Siblings.objects_describe (tree : Siblings) (above : PrimPath) :
    (tree.describe.objects above.lead).map Prod.fst = (tree.paths above).map PrimPath.text := by
  induction tree generalizing above with
  | nil => rfl
  | cons name prim children rest ihchildren ihrest =>
      have hbelow := ihchildren (above.child name)
      rw [PrimPath.lead_child] at hbelow
      rw [describe, Description.objects, paths, List.map_cons, List.map_cons, List.map_append,
        List.map_append, hbelow, ihrest, PrimPath.text_eq_lead, PrimPath.lead_child]

end MaterialBinding
