import MaterialBinding.Proofs.Path.Grammar

/-!
# Extending a path and going back

`appendChild` and `appendProperty` put one name behind a path, and `parent` and `name` take it off
again.  Both ways round nothing is lost: what was made by extending is taken apart into the path and
the name (`parent_of_appendChild`, `parent_of_appendProperty`), and what was taken apart is made
again by extending (`appendChild_parent`, `appendProperty_of_property`).

Extending fails for two reasons only, an owner that holds no such thing and a text that is no name;
the owner is looked at first (`appendChild_eq_error_iff`, `appendProperty_eq_error_iff`).
-/

namespace MaterialBinding.ScenePath

variable {path child property : ScenePath} {name : String} {cause : PathError}

/-! ## Children -/

/-- A child is made of the prim and a name that is spelt as the text. -/
theorem appendChild_eq_ok_iff :
    path.appendChild name = .ok child ↔
      path.isProperty = false ∧
        ∃ last : PrimName, last.text = name ∧ child = ofPrim (path.prim.child last) := by
  rw [appendChild]
  by_cases hproperty : path.isProperty = true
  · simp [hproperty]
  · have hplain : path.isProperty = false := Bool.eq_false_iff.mpr hproperty
    rw [if_neg hproperty]
    cases hname : PrimName.ofString? name with
    | none =>
        have hnone : ∀ last : PrimName, last.text ≠ name := by
          intro last htext
          rw [PrimName.ofString?_eq_some_iff.mpr htext] at hname
          cases hname
        simp [hnone]
    | some last =>
        have htext := PrimName.ofString?_eq_some_iff.mp hname
        constructor
        · intro hok
          obtain rfl := Except.ok.inj hok
          exact ⟨hplain, last, htext, rfl⟩
        · intro hmade
          obtain ⟨_, other, hother, rfl⟩ := hmade
          have hsame : other = last := PrimName.text_inj.mp (hother.trans htext.symm)
          rw [hsame]

/-- **Taking a child apart** gives the prim and the name. -/
theorem parent_of_appendChild (happend : path.appendChild name = .ok child) :
    child.parent = some path ∧ child.name = name ∧ child ≠ .root ∧ child.isProperty = false := by
  obtain ⟨hplain, last, htext, rfl⟩ := appendChild_eq_ok_iff.mp happend
  refine ⟨?_, htext, nofun, rfl⟩
  exact congrArg some (eq_ofPrim hplain).symm

/-- **And putting them together** gives the child. -/
theorem appendChild_parent (hroot : path ≠ .root) (hplain : path.isProperty = false) :
    ∃ above, path.parent = some above ∧ above.appendChild path.name = .ok path := by
  induction path using byKind with
  | root => exact absurd rfl hroot
  | child above last =>
      exact ⟨ofPrim above, rfl, appendChild_eq_ok_iff.mpr ⟨rfl, last, rfl, rfl⟩⟩
  | property above last property => cases hplain

/-- **When there is no child**: the path names a property, or the name is no run of prim name
characters; in this order, each with its own message. -/
theorem appendChild_eq_error_iff :
    path.appendChild name = .error cause ↔
      (path.isProperty = true ∧ cause = .childOfProperty path) ∨
      (path.isProperty = false ∧ ¬ IsRun isPrimNameChar name.toList ∧
        cause = .badPrimName name) := by
  rw [appendChild, ← isPrimName_iff, PrimName.ofString?]
  by_cases hproperty : path.isProperty = true
  · simp [hproperty, @eq_comm _ cause]
  · by_cases hname : isPrimName name.toList = true
    · simp [hproperty, hname]
    · simp [hproperty, hname, @eq_comm _ cause]

/-! ## Properties -/

/-- **Taking a property apart** gives its prim and its name. -/
theorem parent_of_appendProperty (happend : path.appendProperty name = .ok property) :
    ofPrim property.prim = path ∧ property.parent = some path ∧
      property.property.map PropertyName.text = some name ∧ property.name = name := by
  obtain ⟨hpath, hroot, hprim, found, hfound, htext⟩ := fields_of_appendProperty happend
  have howner : ofPrim property.prim = path := by rw [hprim, ← hpath]
  refine ⟨howner, ?_, ?_, ?_⟩
  · rw [parent, hfound, ← howner]
  · rw [hfound, Option.map_some, htext]
  · rw [ScenePath.name, hfound]
    exact htext

/-- **When there is no property**: the path is the root or names a property already, or the name is
no property name; in this order, each with its own message. -/
theorem appendProperty_eq_error_iff :
    path.appendProperty name = .error cause ↔
      ((path = .root ∨ path.isProperty = true) ∧ cause = .propertyOf path) ∨
      (path ≠ .root ∧ path.isProperty = false ∧ ¬ PropertyText name.toList ∧
        cause = .badPropertyName name) := by
  rw [← isPropertyName_iff]
  induction path using byKind with
  | root =>
      have hrefused : root.appendProperty name = .error (.propertyOf root) := rfl
      simp [hrefused, @eq_comm _ cause]
  | child above last =>
      have hbelow : ofPrim (above.child last) ≠ .root := nofun
      have hplain : (ofPrim (above.child last)).isProperty = false := rfl
      by_cases hname : isPropertyName name.toList = true
      · simp [appendProperty_of_isName hname, hname, hbelow, hplain]
      · simp [appendProperty_of_not_isName hname, hname, hbelow, hplain, @eq_comm _ cause]
  | property above last property =>
      have hproperty : (ofProperty above last property).isProperty = true := rfl
      have hrefused : (ofProperty above last property).appendProperty name =
          .error (.propertyOf (ofProperty above last property)) := rfl
      simp [hrefused, hproperty, @eq_comm _ cause]

/-- **Extending and going back are inverse.**  A child and a property are taken apart into what they
were made of, and every path but the root is made of what it is taken apart into.  Extending fails
exactly if the owner holds no such thing or the text is no name.  All this is done on the text as
well, by cutting it and writing on it. -/
theorem extending_is_undone (path : ScenePath) (name : String) :
    (∀ other : ScenePath, PathText.Describes other.chars other) ∧
    (∀ child, path.appendChild name = .ok child →
      child.parent = some path ∧ child.name = name ∧ child ≠ .root ∧ child.isProperty = false) ∧
    (∀ property, path.appendProperty name = .ok property →
      ofPrim property.prim = path ∧ property.parent = some path ∧
        property.property.map PropertyName.text = some name ∧ property.name = name) ∧
    (path ≠ .root → path.isProperty = false →
      ∃ above, path.parent = some above ∧ above.appendChild path.name = .ok path) ∧
    (∀ property, path.property = some property →
      (ofPrim path.prim).appendProperty property.text = .ok path) ∧
    (∀ cause, path.appendChild name = .error cause ↔
      (path.isProperty = true ∧ cause = .childOfProperty path) ∨
      (path.isProperty = false ∧ ¬ IsRun isPrimNameChar name.toList ∧
        cause = .badPrimName name)) ∧
    ∀ cause, path.appendProperty name = .error cause ↔
      ((path = .root ∨ path.isProperty = true) ∧ cause = .propertyOf path) ∨
      (path ≠ .root ∧ path.isProperty = false ∧ ¬ PropertyText name.toList ∧
        cause = .badPropertyName name) :=
  ⟨PathText.describes_chars, fun _ => parent_of_appendChild, fun _ => parent_of_appendProperty,
    appendChild_parent, fun _ => appendProperty_of_property, fun _ => appendChild_eq_error_iff,
    fun _ => appendProperty_eq_error_iff⟩

end MaterialBinding.ScenePath
