import MaterialBinding.Collection.Basic

/-!
# Written paths are read back

No name has a separator in it, so cutting a written path at its slashes and at its dot gives back
the names that it was put together from (`parse_text`).

`appendProperty_ok_iff` says which paths have a property of a given name.
-/

namespace MaterialBinding

open Text

/-- A prim name is read back from its spelling. -/
@[simp] theorem PrimName.ofString?_text (name : PrimName) :
    PrimName.ofString? name.text = some name :=
  PrimName.ofString?_eq_some_iff.mpr rfl

/-- A property name is read back from its spelling. -/
@[simp] theorem PropertyName.ofString?_text (name : PropertyName) :
    PropertyName.ofString? name.text = some name :=
  PropertyName.ofString?_eq_some_iff.mpr rfl

/-- Only some characters stand in a prim name. -/
theorem not_mem_primName_text {c : Char} (hc : isPrimNameChar c = false) (name : PrimName) :
    c ∉ name.text.toList := by
  intro hmem
  have hall : ∀ d ∈ name.text.toList, isPrimNameChar d = true := by
    have hwell := name.well_formed
    simp only [isPrimName, Bool.and_eq_true, List.all_eq_true] at hwell
    exact hwell.2
  rw [hall c hmem] at hc
  cases hc

/-- The separators of a path are no characters of a prim name. -/
theorem not_mem_primName {c : Char} (hc : c = '/' ∨ c = '.') (name : PrimName) :
    c ∉ name.text.toList := by
  refine not_mem_primName_text ?_ name
  rcases hc with rfl | rfl <;> simp [isPrimNameChar, isAlphanumeric_separator]

/-- A prim name is not empty. -/
theorem primName_ne_nil (name : PrimName) : name.text.toList ≠ [] := by
  have hwell := name.well_formed
  simp only [isPrimName, Bool.and_eq_true, Bool.not_eq_true', List.isEmpty_eq_false_iff] at hwell
  exact hwell.1

/-- Two names joined by a colon are a name if both are. -/
theorem isPropertyName_append_colon (lead name : List Char) :
    isPropertyName (lead ++ ':' :: name) = (isPropertyName lead && isPropertyName name) := by
  simp only [isPropertyName, List.splitOn_append_cons_self, List.all_append]

namespace PrimPath

/-- The names on the way down, character by character. -/
def components : PrimPath → List (List Char)
  | root => []
  | child parent name => parent.components ++ [name.text.toList]

/-- The text of a prim is cut at its slashes into its names. -/
theorem splitOn_chars (path : PrimPath) : path.chars.splitOn '/' = [] :: path.components := by
  induction path with
  | root => rfl
  | child parent name ih =>
      have hname : '/' ∉ name.text.toList := not_mem_primName (Or.inl rfl) name
      rw [chars, List.splitOn_append_cons_self, ih, List.splitOn_eq_singleton hname]
      rfl

/-- Going down by the names of a prim leads to it. -/
theorem parse_components (text : String) (path : PrimPath) :
    PrimPath.parse text path.components = .ok path := by
  induction path with
  | root => rfl
  | child parent name ih =>
      unfold PrimPath.parse at ih ⊢
      rw [components, List.foldlM_append, ih]
      simp [bind, Except.bind, pure, Except.pure]

theorem text_child (above : PrimPath) (name : PrimName) :
    (above.child name).text = String.ofList (above.child name).chars := rfl

/-- Below the root a path begins with a slash and goes on after it. -/
theorem chars_child (above : PrimPath) (name : PrimName) :
    ∃ first rest, (above.child name).chars = '/' :: first :: rest := by
  induction above generalizing name with
  | root =>
      obtain ⟨first, rest, hname⟩ := List.exists_cons_of_ne_nil (primName_ne_nil name)
      exact ⟨first, rest, by simp [chars, hname]⟩
  | child parent above ih =>
      obtain ⟨first, rest, hchars⟩ := ih above
      exact ⟨first, rest ++ '/' :: name.text.toList, by rw [chars, hchars]; rfl⟩

/-- Besides the slashes there are only characters of names. -/
theorem not_mem_chars {c : Char} (hslash : c ≠ '/') (hc : isPrimNameChar c = false)
    (path : PrimPath) : c ∉ path.chars := by
  induction path with
  | root => simp [chars]
  | child parent name ih => simp [chars, ih, hslash, not_mem_primName_text hc]

/-- No name of a prim has a dot. -/
theorem dot_not_mem_chars (path : PrimPath) : '.' ∉ path.chars :=
  path.not_mem_chars (by decide) (by decide)

/-- Besides slashes the text of a prim has characters of prim names only. -/
theorem not_mem_text {c : Char} (hslash : c ≠ '/') (hc : isPrimNameChar c = false)
    (path : PrimPath) : c ∉ path.text.toList := by
  cases path with
  | root => simpa [text] using hslash
  | child above name =>
      rw [text_child, String.toList_ofList]
      exact not_mem_chars hslash hc _

end PrimPath

namespace ScenePath

/-- The text of a path is its characters. -/
theorem toList_text (path : ScenePath) : path.text.toList = path.chars := by
  rw [text, String.toList_ofList]

/-- **A written path is read back.** -/
theorem parse_text (path : ScenePath) : ScenePath.parse path.text = .ok path := by
  obtain ⟨prim, property, hbare⟩ := path
  cases prim with
  | root =>
      obtain rfl := hbare rfl
      have hchars : (⟨.root, none, hbare⟩ : ScenePath).chars = ['/'] := by
        simp [chars, propertyChars, PrimPath.text]
      rw [parse, toList_text, hchars]
      rfl
  | child above name =>
      obtain ⟨first, rest, hchars⟩ := PrimPath.chars_child above name
      have hdot : ∀ c ∈ first :: rest, decide (c ≠ '.') = true := by
        intro c hc
        have hnot := PrimPath.dot_not_mem_chars (above.child name)
        rw [hchars] at hnot
        rw [decide_eq_true_eq]
        intro heq
        subst heq
        exact hnot (List.mem_cons_of_mem _ hc)
      have htake : ∀ tail, (first :: (rest ++ tail)).takeWhile (fun c => decide (c ≠ '.')) =
          first :: rest ++ tail.takeWhile (fun c => decide (c ≠ '.')) :=
        fun tail => List.takeWhile_append_of_pos hdot
      have hdrop : ∀ tail, (first :: (rest ++ tail)).dropWhile (fun c => decide (c ≠ '.')) =
          tail.dropWhile (fun c => decide (c ≠ '.')) :=
        fun tail => List.dropWhile_append_of_pos hdot
      have hprim : ∀ text, PrimPath.parse text ((first :: rest).splitOn '/') =
          .ok (above.child name) := by
        intro text
        have hsplit := PrimPath.splitOn_chars (above.child name)
        rw [hchars, List.splitOn_cons_eq_if_modifyHead] at hsplit
        have hcomponents : (first :: rest).splitOn '/' = (above.child name).components := by
          simpa using hsplit
        rw [hcomponents, PrimPath.parse_components]
      have htext : (⟨above.child name, property, hbare⟩ : ScenePath).text.toList =
          '/' :: (first :: rest ++
            (⟨above.child name, property, hbare⟩ : ScenePath).propertyChars) := by
        rw [toList_text, ScenePath.chars, PrimPath.text_child, String.toList_ofList, hchars]
        rfl
      rw [parse, htext]
      simp only [List.cons_append, htake, hdrop]
      cases property with
      | none => simp [propertyChars, bind, Except.bind, hprim, ofPrim]
      | some property =>
          simp [propertyChars, bind, Except.bind, hprim, appendProperty, ofPrim, ofProperty]

/-- A property stands on its prim, under the name that it was given. -/
theorem fields_of_appendProperty {path result : ScenePath} {name : String}
    (happend : path.appendProperty name = .ok result) :
    path = ofPrim path.prim ∧ path.prim ≠ .root ∧ result.prim = path.prim ∧
      ∃ property, result.property = some property ∧ property.text = name := by
  obtain ⟨prim, property, hbare⟩ := path
  cases property with
  | some property => cases prim <;> simp [appendProperty] at happend
  | none =>
      cases prim with
      | root => simp [appendProperty] at happend
      | child above prim =>
          cases hname : PropertyName.ofString? name with
          | none => simp [appendProperty, hname] at happend
          | some property =>
              have hresult : result = ofProperty above prim property := by
                simpa [appendProperty, hname, eq_comm] using happend
              rw [hresult]
              exact ⟨rfl, nofun, rfl, property, rfl, PropertyName.ofString?_eq_some_iff.mp hname⟩

/-- And a property is that of its prim under its name. -/
theorem appendProperty_of_property {path : ScenePath} {property : PropertyName}
    (hproperty : path.property = some property) :
    (ofPrim path.prim).appendProperty property.text = .ok path := by
  obtain ⟨prim, _, hbare⟩ := path
  subst hproperty
  cases prim with
  | root => cases hbare rfl
  | child above name =>
      simp [appendProperty, ofPrim, ofProperty]

/-- Exactly the prims below the root have properties, and exactly under property names. -/
theorem appendProperty_ok_iff {path : ScenePath} {name : String} :
    (∃ property, path.appendProperty name = .ok property) ↔
      (∃ above prim, path = ofPrim (.child above prim)) ∧ isPropertyName name.toList = true := by
  obtain ⟨prim, property, hbare⟩ := path
  constructor
  · intro hexists
    obtain ⟨result, happend⟩ := hexists
    cases property with
    | some property => cases prim <;> simp [appendProperty] at happend
    | none =>
        cases prim with
        | root => simp [appendProperty] at happend
        | child above prim =>
            refine ⟨⟨above, prim, rfl⟩, ?_⟩
            cases hname : PropertyName.ofString? name with
            | none => simp [appendProperty, hname] at happend
            | some property =>
                rw [← PropertyName.ofString?_eq_some_iff.mp hname]
                exact property.well_formed
  · intro hexists
    obtain ⟨⟨above, prim, hpath⟩, hname⟩ := hexists
    rw [hpath]
    exact ⟨ofProperty above prim ⟨name, hname⟩, by
      simp [appendProperty, ofPrim, PropertyName.ofString?, hname]⟩

end ScenePath

end MaterialBinding
