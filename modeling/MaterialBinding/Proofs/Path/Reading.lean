import MaterialBinding.Proofs.Path.Prefix

/-!
# Reading is the inverse of writing

A written path is read back (`parse_text`), and nothing else is read: a text that is cut at its
slashes and its dot is put together again by writing what was read (`text_of_parse`).  So a text is
a path exactly if it is the written form of one, and of one only (`parse_eq_ok_iff`).
-/

namespace MaterialBinding

namespace PrimPath

/-- Going down one component at a time goes down by all of them. -/
theorem components_of_foldlM {down : PrimPath → List Char → Except PathError PrimPath}
    (hdown : ∀ path component next, down path component = .ok next →
      next.components = path.components ++ [component])
    {components : List (List Char)} {start path : PrimPath}
    (hfold : components.foldlM down start = .ok path) :
    path.components = start.components ++ components := by
  induction components generalizing start with
  | nil =>
      obtain rfl := Except.ok.inj hfold
      rw [List.append_nil]
  | cons component rest ih =>
      rw [List.foldlM_cons] at hfold
      cases hnext : down start component with
      | error cause =>
          rw [hnext] at hfold
          cases hfold
      | ok next =>
          rw [hnext] at hfold
          rw [ih hfold, hdown start component next hnext, List.append_assoc]
          rfl

/-- Going down by some components makes a path with these components. -/
theorem components_of_parse {text : String} {components : List (List Char)} {path : PrimPath}
    (hparse : PrimPath.parse text components = .ok path) : path.components = components := by
  refine components_of_foldlM (fun path component next hnext => ?_) hparse
  cases hname : PrimName.ofString? (String.ofList component) with
  | none =>
      simp only [hname] at hnext
      cases hnext
  | some name =>
      simp only [hname] at hnext
      obtain rfl := Except.ok.inj hnext
      have hchars : name.text.toList = component := by
        rw [PrimName.ofString?_eq_some_iff.mp hname, String.toList_ofList]
      rw [PrimPath.components, hchars]

/-- What is read from a text between its slashes is written as a slash before that text. -/
theorem chars_of_parse {text : String} {chars : List Char} {path : PrimPath}
    (hparse : PrimPath.parse text (chars.splitOn '/') = .ok path) : path.chars = '/' :: chars := by
  have hslash : ('/' :: chars).splitOn '/' = [] :: chars.splitOn '/' :=
    List.splitOn_append_cons_self [] chars
  have hsame : path.chars.splitOn '/' = ('/' :: chars).splitOn '/' := by
    rw [splitOn_chars, components_of_parse hparse, hslash]
  calc path.chars
      = ['/'].intercalate (path.chars.splitOn '/') := (List.intercalate_splitOn '/').symm
    _ = ['/'].intercalate (('/' :: chars).splitOn '/') := by rw [hsame]
    _ = '/' :: chars := List.intercalate_splitOn '/'

end PrimPath

namespace ScenePath

/-- A property is written as its prim, a dot and its name. -/
theorem chars_of_appendProperty {above : PrimPath} {name : String} {path : ScenePath}
    (happend : (ofPrim above).appendProperty name = .ok path) :
    path.chars = above.chars ++ '.' :: name.toList := by
  obtain ⟨_, hroot, hprim, property, hproperty, rfl⟩ := fields_of_appendProperty happend
  have hbelow : path ≠ .root := by
    rintro rfl
    exact hroot hprim.symm
  rw [chars_eq hbelow, hprim, propertyChars, hproperty]
  rfl

/-- What a text has from its first dot on is nothing, or the dot and what follows it. -/
theorem dropWhile_dot (rest : List Char) :
    rest.dropWhile (· ≠ '.') = [] ∨
      ∃ property, rest.dropWhile (· ≠ '.') = '.' :: property := by
  cases hdrop : rest.dropWhile (· ≠ '.') with
  | nil => exact .inl rfl
  | cons dot property =>
      have hhead := List.head?_dropWhile_not (fun c => decide (c ≠ '.')) rest
      rw [hdrop] at hhead
      have hdot : dot = '.' := by simpa using hhead
      exact .inr ⟨property, by rw [hdot]⟩

/-- A prim whose written form is not empty is written alike as a path. -/
theorem chars_ofPrim_of_ne_nil {prim : PrimPath} (hchars : prim.chars ≠ []) :
    (ofPrim prim).chars = prim.chars := by
  cases prim with
  | root => exact absurd rfl hchars
  | child above name => exact chars_child above name

/-- **What is read as a path is its written form.** -/
theorem text_of_parse {text : String} {path : ScenePath}
    (hparse : ScenePath.parse text = .ok path) : path.text = text := by
  suffices hchars : path.chars = text.toList by
    rw [ScenePath.text, hchars, String.ofList_toList]
  unfold ScenePath.parse at hparse
  split at hparse
  next => cases hparse
  next hroot =>
    obtain rfl := Except.ok.inj hparse
    rw [hroot]
    rfl
  next rest _ htext =>
    cases hprim : PrimPath.parse text ((rest.takeWhile (· ≠ '.')).splitOn '/') with
    | error cause =>
        rw [hprim] at hparse
        cases hparse
    | ok prim =>
        have hbefore : prim.chars = '/' :: rest.takeWhile (· ≠ '.') := PrimPath.chars_of_parse hprim
        have hrest : rest.takeWhile (· ≠ '.') ++ rest.dropWhile (· ≠ '.') = rest :=
          List.takeWhile_append_dropWhile
        simp only [hprim, bind, Except.bind] at hparse
        rcases dropWhile_dot rest with hnone | ⟨property, hdot⟩
        · simp only [hnone] at hparse
          obtain rfl := Except.ok.inj hparse
          have hplain : (ofPrim prim).chars = prim.chars := by
            apply chars_ofPrim_of_ne_nil
            rw [hbefore]
            exact List.cons_ne_nil _ _
          rw [hnone, List.append_nil] at hrest
          rw [hplain, hbefore, hrest, htext]
        · simp only [hdot] at hparse
          cases happend : (ofPrim prim).appendProperty (String.ofList property) with
          | error cause =>
              rw [happend] at hparse
              cases hparse
          | ok found =>
              rw [happend] at hparse
              obtain rfl := Except.ok.inj hparse
              rw [hdot] at hrest
              rw [chars_of_appendProperty happend, hbefore, String.toList_ofList, htext,
                List.cons_append, hrest]
  next => cases hparse

/-- A text is read as a path exactly if it is the written form of that path. -/
theorem parse_eq_ok_iff {text : String} {path : ScenePath} :
    ScenePath.parse text = .ok path ↔ path.text = text := by
  constructor
  · exact text_of_parse
  · rintro rfl
    exact parse_text path

end ScenePath

end MaterialBinding
