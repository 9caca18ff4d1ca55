import Mathlib.Data.List.Basic
import MaterialBinding.Proofs.Path.Reading

/-!
# Paths as texts

A path may be kept as its text and nothing else.  What is asked of it is then found by cutting the
text, at the first dot or at the last slash (`cutFirst?`, `cutLast?`), and a longer path is made by
writing a separator and a name behind it.  The root ends with a slash of its own, so each way
treats it apart.  `PathText` has these readings of a text.

Read off the text of a path they give what is found on the path (`PathText.describes_chars`).  No
name has a separator in it, so a cut falls where the last name or the property was written.
-/

namespace MaterialBinding

variable {separator : Char} {before behind text : List Char}

/-- What stands before the first such character, and what stands behind it. -/
def cutFirst? (separator : Char) : List Char → Option (List Char × List Char)
  | [] => none
  | c :: rest =>
    if c = separator then some ([], rest)
    else (cutFirst? separator rest).map (Prod.map (c :: ·) id)

/-- What stands before the last such character, and what stands behind it. -/
def cutLast? (separator : Char) (text : List Char) : Option (List Char × List Char) :=
  (cutFirst? separator text.reverse).map fun cut => (cut.2.reverse, cut.1.reverse)

/-- A text is cut at the first separator. -/
theorem cutFirst?_append (hbefore : separator ∉ before) (behind : List Char) :
    cutFirst? separator (before ++ separator :: behind) = some (before, behind) := by
  induction before with
  | nil => simp [cutFirst?]
  | cons c rest ih =>
      rw [List.mem_cons, not_or] at hbefore
      obtain ⟨hc, hrest⟩ := hbefore
      rw [List.cons_append, cutFirst?, if_neg (Ne.symm hc), ih hrest]
      rfl

/-- A text without the separator is not cut. -/
theorem cutFirst?_eq_none (hnone : separator ∉ text) : cutFirst? separator text = none := by
  induction text with
  | nil => rfl
  | cons c rest ih =>
      rw [List.mem_cons, not_or] at hnone
      obtain ⟨hc, hrest⟩ := hnone
      rw [cutFirst?, if_neg (Ne.symm hc), ih hrest]
      rfl

/-- A text is cut at the last separator. -/
theorem cutLast?_append (before : List Char) (hbehind : separator ∉ behind) :
    cutLast? separator (before ++ separator :: behind) = some (before, behind) := by
  have hreverse : (before ++ separator :: behind).reverse =
      behind.reverse ++ separator :: before.reverse := by simp
  have hnone : separator ∉ behind.reverse := by simpa using hbehind
  rw [cutLast?, hreverse, cutFirst?_append hnone, Option.map_some, List.reverse_reverse,
    List.reverse_reverse]

namespace PathText

/-- The text of the root. -/
def root : List Char := ['/']

/-- There is a dot in the text, and so it names a property. -/
def isProperty (text : List Char) : Bool := text.contains '.'

/-- What stands before the first dot, and the whole text if there is no dot. -/
def prim (text : List Char) : List Char :=
  match cutFirst? '.' text with
  | some (prim, _) => prim
  | none => text

/-- What stands behind the first dot. -/
def property? (text : List Char) : Option (List Char) := (cutFirst? '.' text).map Prod.snd

/-- The property, or else what stands behind the last slash. -/
def name (text : List Char) : List Char :=
  match property? text with
  | some property => property
  | none =>
    match cutLast? '/' text with
    | some (_, name) => name
    | none => []

/-- One step up: to the prim of a property, or else to what stands before the last slash. -/
def parent? (text : List Char) : Option (List Char) :=
  if text = root then none
  else if isProperty text then some (prim text)
  else
    match cutLast? '/' text with
    | none => none
    | some (above, _) => some (if above = [] then root else above)

/-- What an iteration gives when it is asked for the `n`-th time: the prim part at first, and then
what is one step above the last answer.  It gives nothing from the root on. -/
def ancestor? (text : List Char) : Nat → Option (List Char)
  | 0 => if prim text = root then none else some (prim text)
  | n + 1 => (ancestor? text n).bind fun below => (parent? below).filter (· ≠ root)

/-- What is left of the text without `lead` is nothing, or begins with a separator. -/
def hasPrefix (text lead : List Char) : Bool :=
  if lead = root then true
  else
    match lead.isPrefixOf? text with
    | none => false
    | some [] => true
    | some (c :: _) => !isProperty lead && (c == '/' || c == '.')

/-- Writes the name of a child behind the text. -/
def child? (text : List Char) (name : String) : Option (List Char) :=
  if isProperty text then none
  else if isPrimName name.toList then
    some (if text = root then '/' :: name.toList else text ++ '/' :: name.toList)
  else none

/-- Writes the name of a property behind the text. -/
def withProperty? (text : List Char) (name : String) : Option (List Char) :=
  if isProperty text then none
  else if text = root then none
  else if isPropertyName name.toList then some (text ++ '.' :: name.toList)
  else none

/-- Writes the name of a collection behind the text, with its namespace. -/
def collection? (text : List Char) (name : String) : Option (List Char) :=
  withProperty? text (Collection.nameLead ++ name)

/-- The prim part and the name of the collection, which stands behind the namespace and a colon. -/
def asCollection? (text : List Char) : Option (List Char × List Char) :=
  match property? text with
  | none => none
  | some property =>
    match ("collection".toList.isPrefixOf? property).bind [':'].isPrefixOf? with
    | none | some [] => none
    | some name => some (prim text, name)

end PathText

/-! ## Steps from path to path -/

/-- The ways to come from a path to another one. -/
inductive PathStep where
  | parent
  | prim
  /-- To what the iteration over the path and those above it gives at that index. -/
  | ancestor (index : Nat)
  | child (name : String)
  | property (name : String)
  | collection (name : String)

namespace PathStep

/-- Where the step leads from a path. -/
def path? (path : ScenePath) : PathStep → Option ScenePath
  | parent => path.parent
  | prim => some (.ofPrim path.prim)
  | ancestor index => path.ancestors[index]?.map .ofPrim
  | child name => (path.appendChild name).toOption
  | property name => (path.appendProperty name).toOption
  | collection name => (path.collection name).toOption

/-- Where it leads from a text, which is cut or written on. -/
def text? (text : List Char) : PathStep → Option (List Char)
  | parent => PathText.parent? text
  | prim => some (PathText.prim text)
  | ancestor index => PathText.ancestor? text index
  | child name => PathText.child? text name
  | property name => PathText.withProperty? text name
  | collection name => PathText.collection? text name

end PathStep

/-- What is asked of the path is read off the text. -/
structure PathText.Describes (text : List Char) (path : ScenePath) : Prop where
  isRoot_eq : path.isRoot = decide (text = PathText.root)
  isProperty_eq : path.isProperty = PathText.isProperty text
  property_eq : path.property.map (·.text.toList) = PathText.property? text
  name_eq : path.name.toList = PathText.name text
  asCollection_eq : path.asCollection?.map
    (fun found => ((ScenePath.ofPrim found.1).chars, found.2.toList)) = PathText.asCollection? text
  hasPrefix_eq : ∀ lead : ScenePath, path.hasPrefix lead = PathText.hasPrefix text lead.chars
  step_eq : ∀ step : PathStep, (step.path? path).map ScenePath.chars = step.text? text

/-! ## The text of a path -/

namespace ScenePath

variable {path lead : ScenePath} {above : PrimPath} {name : PrimName} {property : PropertyName}

/-- A path is the root, or it is that of a prim below the root or of a property of one. -/
@[elab_as_elim]
theorem byKind {motive : ScenePath → Prop} (root : motive .root)
    (child : ∀ above name, motive (ofPrim (.child above name)))
    (property : ∀ above name property, motive (ofProperty above name property))
    (path : ScenePath) : motive path := by
  obtain ⟨prim, found, hbare⟩ := path
  cases prim with
  | root =>
      obtain rfl : found = none := hbare rfl
      exact root
  | child above name =>
      cases found with
      | none => exact child above name
      | some found => exact property above name found

/-- Only the root is written as a slash alone. -/
theorem chars_eq_root_iff : path.chars = PathText.root ↔ path = .root := by
  constructor
  · exact fun hchars => chars_inj hchars
  · intro hroot
    rw [hroot]
    rfl

/-- A child is not written as the root is. -/
theorem chars_child_ne_root : (ofPrim (above.child name)).chars ≠ PathText.root := by
  rw [Ne, chars_eq_root_iff]
  nofun

/-- A child is written after its parent and a slash. -/
theorem chars_ofPrim_child :
    (ofPrim (above.child name)).chars = above.chars ++ '/' :: name.text.toList :=
  chars_child above name

/-- A property is written after its prim and a dot. -/
theorem chars_ofProperty :
    (ofProperty above name property).chars =
      (above.child name).chars ++ '.' :: property.text.toList :=
  @chars_eq (ofProperty above name property) nofun

/-- The text of a prim is what stands before a slash, but that of the root is a slash. -/
theorem chars_ofPrim (prim : PrimPath) :
    (ofPrim prim).chars = if prim.chars = [] then PathText.root else prim.chars := by
  cases prim with
  | root => rfl
  | child above name =>
      have hsome : (above.child name).chars ≠ [] := by simp [PrimPath.chars]
      rw [if_neg hsome, chars_child]

/-- The text of a child goes on from that of the prim, whose slash it shares if it is the root. -/
theorem chars_below (prim : PrimPath) (name : PrimName) :
    (ofPrim (prim.child name)).chars =
      if (ofPrim prim).chars = PathText.root then '/' :: name.text.toList
      else (ofPrim prim).chars ++ '/' :: name.text.toList := by
  rw [chars_ofPrim_child]
  cases prim with
  | root => rfl
  | child above last =>
      rw [if_neg chars_child_ne_root, chars_child]

/-- A prim is written without dots. -/
theorem dot_not_mem_chars_ofPrim (prim : PrimPath) : '.' ∉ (ofPrim prim).chars := by
  rw [chars_ofPrim]
  split
  · decide
  · exact prim.dot_not_mem_chars

/-- The first dot is the one before the property. -/
theorem cutFirst?_chars_ofProperty :
    cutFirst? '.' (ofProperty above name property).chars =
      some ((ofPrim (above.child name)).chars, property.text.toList) := by
  rw [chars_ofProperty, chars_child]
  exact cutFirst?_append (above.child name).dot_not_mem_chars _

/-- The text of a prim is not cut at a dot. -/
theorem cutFirst?_chars_ofPrim (prim : PrimPath) : cutFirst? '.' (ofPrim prim).chars = none :=
  cutFirst?_eq_none (dot_not_mem_chars_ofPrim prim)

/-- The last slash is the one before the last name. -/
theorem cutLast?_chars_ofPrim_child :
    cutLast? '/' (ofPrim (above.child name)).chars = some (above.chars, name.text.toList) := by
  rw [chars_ofPrim_child]
  exact cutLast?_append above.chars (not_mem_primName (Or.inl rfl) name)

/-! ## Reading it off -/

/-- The text alone says whether the path is the root. -/
theorem isRoot_eq_text (path : ScenePath) : path.isRoot = decide (path.chars = PathText.root) := by
  rw [Bool.eq_iff_iff, isRoot_iff, decide_eq_true_iff, chars_eq_root_iff]

/-- The text alone says whether the path names a property. -/
theorem isProperty_eq_text (path : ScenePath) :
    path.isProperty = PathText.isProperty path.chars := by
  rw [PathText.isProperty]
  induction path using byKind with
  | root => rfl
  | child above name =>
      have hnone := dot_not_mem_chars_ofPrim (above.child name)
      rw [List.contains_eq_mem, decide_eq_false hnone]
      rfl
  | property above name property =>
      have hdot : '.' ∈ (ofProperty above name property).chars := by simp [chars_ofProperty]
      rw [List.contains_eq_mem, decide_eq_true hdot]
      rfl

/-- The text of the prim part is cut from the text of the path. -/
theorem prim_eq_text (path : ScenePath) :
    (ofPrim path.prim).chars = PathText.prim path.chars := by
  induction path using byKind with
  | root => rfl
  | child above name =>
      rw [PathText.prim, cutFirst?_chars_ofPrim]
      rfl
  | property above name property =>
      rw [PathText.prim, cutFirst?_chars_ofProperty]
      rfl

/-- The text of the property is cut from the text of the path. -/
theorem property_eq_text (path : ScenePath) :
    path.property.map (·.text.toList) = PathText.property? path.chars := by
  induction path using byKind with
  | root => rfl
  | child above name =>
      rw [PathText.property?, cutFirst?_chars_ofPrim]
      rfl
  | property above name property =>
      rw [PathText.property?, cutFirst?_chars_ofProperty]
      rfl

/-- The name is cut from the text of the path. -/
theorem name_eq_text (path : ScenePath) : path.name.toList = PathText.name path.chars := by
  rw [PathText.name, ← property_eq_text]
  induction path using byKind with
  | root => rfl
  | child above name =>
      have hproperty : (ofPrim (above.child name)).property = none := rfl
      rw [hproperty, Option.map_none, cutLast?_chars_ofPrim_child]
      rfl
  | property above name property => rfl

/-- The text of the parent is cut from the text of the path. -/
theorem parent_eq_text (path : ScenePath) :
    path.parent.map chars = PathText.parent? path.chars := by
  rw [PathText.parent?, ← isProperty_eq_text, ← prim_eq_text]
  induction path using byKind with
  | root => rfl
  | child above name =>
      have hplain : ¬ (ofPrim (above.child name)).isProperty = true := nofun
      rw [if_neg chars_child_ne_root, if_neg hplain, cutLast?_chars_ofPrim_child]
      exact congrArg some (chars_ofPrim above)
  | property above name property =>
      have hroot : (ofProperty above name property).chars ≠ PathText.root := by
        rw [Ne, chars_eq_root_iff]
        nofun
      rw [if_neg hroot]
      rfl

/-- On the way up each prim is followed by the one above it, up to the root. -/
theorem ancestors_getElem?_succ (prim : PrimPath) (n : Nat) :
    (prim.ancestors[n + 1]?).map ofPrim =
      ((prim.ancestors[n]?).map ofPrim).bind fun below => below.parent.filter (· ≠ root) := by
  induction prim generalizing n with
  | root => rfl
  | child above name ih =>
      rw [PrimPath.ancestors, List.getElem?_cons_succ]
      cases n with
      | zero => cases above <;> rfl
      | succ n =>
          rw [List.getElem?_cons_succ]
          exact ih n

/-- The texts of the ancestors are cut from the text of the path. -/
theorem ancestor_eq_text (path : ScenePath) (n : Nat) :
    ((path.ancestors[n]?).map ofPrim).map chars = PathText.ancestor? path.chars n := by
  induction n with
  | zero =>
      rw [PathText.ancestor?, ← prim_eq_text, ancestors]
      cases hprim : path.prim with
      | root => rfl
      | child above name =>
          rw [if_neg chars_child_ne_root]
          rfl
  | succ n ih =>
      rw [PathText.ancestor?, ← ih, ancestors, ancestors_getElem?_succ]
      cases (path.prim.ancestors[n]?).map ofPrim with
      | none => rfl
      | some below =>
          rw [Option.map_some, Option.bind_some, Option.bind_some, ← parent_eq_text]
          cases below.parent with
          | none => rfl
          | some next => simp [Option.filter, chars_eq_root_iff, apply_ite (Option.map chars)]

/-- **Prefixes are a matter of texts**: the test on paths is the one on their texts. -/
theorem hasPrefix_eq_text (path lead : ScenePath) :
    path.hasPrefix lead = PathText.hasPrefix path.chars lead.chars := by
  rw [hasPrefix, PathText.hasPrefix, ← isProperty_eq_text, isRoot_eq_text]
  by_cases hroot : lead.chars = PathText.root
  · rw [if_pos hroot, decide_eq_true hroot, Bool.true_or]
  · rw [if_neg hroot, decide_eq_false hroot, Bool.false_or]
    cases hrest : lead.chars.isPrefixOf? path.chars with
    | none =>
        have hapart : lead.chars.isPrefixOf path.chars = false := by
          rw [Bool.eq_false_iff, Ne, List.isPrefixOf_iff_prefix]
          intro hprefix
          obtain ⟨rest, hchars⟩ := hprefix
          have hsome := List.isPrefixOf?_eq_some_iff_append_eq.mpr hchars
          rw [hrest] at hsome
          cases hsome
        rw [hapart, Bool.false_and]
    | some rest =>
        have hchars := List.isPrefixOf?_eq_some_iff_append_eq.mp hrest
        have hbegins : lead.chars.isPrefixOf path.chars = true := by
          rw [List.isPrefixOf_iff_prefix]
          exact ⟨rest, hchars⟩
        rw [hbegins, Bool.true_and, ← hchars, List.drop_left]
        cases rest <;> rfl

/-- The text of a child is made of the text of the path and the name. -/
theorem child_eq_text (path : ScenePath) (name : String) :
    (path.appendChild name).toOption.map chars = PathText.child? path.chars name := by
  rw [PathText.child?, ← isProperty_eq_text, appendChild]
  by_cases hproperty : path.isProperty = true
  · rw [if_pos hproperty, if_pos hproperty]
    rfl
  · have hplain : path = ofPrim path.prim := eq_ofPrim (Bool.eq_false_iff.mpr hproperty)
    rw [if_neg hproperty, if_neg hproperty, PrimName.ofString?]
    by_cases hname : isPrimName name.toList = true
    · rw [dif_pos hname, if_pos hname]
      change some (ofPrim (path.prim.child ⟨name, hname⟩)).chars = _
      rw [chars_below, ← hplain]
    · rw [dif_neg hname, if_neg hname]
      rfl

/-- A prim below the root has a property of every well-formed name. -/
theorem appendProperty_of_isName {text : String} (hname : isPropertyName text.toList = true) :
    (ofPrim (above.child name)).appendProperty text =
      .ok (ofProperty above name ⟨text, hname⟩) := by
  have hread : PropertyName.ofString? text = some ⟨text, hname⟩ := dif_pos hname
  rw [appendProperty, ofPrim, hread]

/-- What is no property name is refused with that message. -/
theorem appendProperty_of_not_isName {text : String} (hname : ¬ isPropertyName text.toList = true) :
    (ofPrim (above.child name)).appendProperty text = .error (.badPropertyName text) := by
  have hread : PropertyName.ofString? text = none := dif_neg hname
  rw [appendProperty, ofPrim, hread]

/-- The text of a property is made of the text of the path and the name. -/
theorem withProperty_eq_text (path : ScenePath) (name : String) :
    (path.appendProperty name).toOption.map chars = PathText.withProperty? path.chars name := by
  rw [PathText.withProperty?, ← isProperty_eq_text]
  induction path using byKind with
  | root => rfl
  | child above last =>
      have hplain : ¬ (ofPrim (above.child last)).isProperty = true := nofun
      rw [if_neg hplain, if_neg chars_child_ne_root]
      by_cases hname : isPropertyName name.toList = true
      · rw [appendProperty_of_isName hname, if_pos hname]
        change some (ofProperty above last ⟨name, hname⟩).chars = _
        rw [chars_ofProperty, chars_child]
      · rw [appendProperty_of_not_isName hname, if_neg hname]
        rfl
  | property above last property => rfl

/-- Two leads are taken off one after the other. -/
theorem isPrefixOf?_append (lead more text : List Char) :
    (lead ++ more).isPrefixOf? text = (lead.isPrefixOf? text).bind more.isPrefixOf? := by
  induction lead generalizing text with
  | nil => cases text <;> rfl
  | cons c lead ih =>
      cases text with
      | nil => rfl
      | cons d text =>
          rw [List.cons_append, List.isPrefixOf?, List.isPrefixOf?]
          split
          · exact ih text
          · rfl

/-- The owner and the name of an addressed collection are cut from the text of the path. -/
theorem asCollection_eq_text (path : ScenePath) :
    path.asCollection?.map (fun found => ((ofPrim found.1).chars, found.2.toList)) =
      PathText.asCollection? path.chars := by
  have hlead : Collection.nameLead.toList = "collection".toList ++ [':'] := by decide
  rw [PathText.asCollection?, ← property_eq_text, ← prim_eq_text, asCollection?, hlead]
  cases path.property with
  | none => rfl
  | some property =>
      simp only [Option.map_some, isPrefixOf?_append]
      generalize ("collection".toList.isPrefixOf? property.text.toList).bind [':'].isPrefixOf? =
        found
      rcases found with _ | _ | ⟨c, rest⟩
      · rfl
      · rfl
      · rw [Option.map_some, String.toList_ofList]

end ScenePath

namespace PathText

/-- **Read off its text, a path is what it is.** -/
theorem describes_chars (path : ScenePath) : Describes path.chars path where
  isRoot_eq := path.isRoot_eq_text
  isProperty_eq := path.isProperty_eq_text
  property_eq := path.property_eq_text
  name_eq := path.name_eq_text
  asCollection_eq := path.asCollection_eq_text
  hasPrefix_eq := path.hasPrefix_eq_text
  step_eq := by
    intro step
    cases step with
    | parent => exact path.parent_eq_text
    | prim => exact congrArg some path.prim_eq_text
    | ancestor index => exact path.ancestor_eq_text index
    | child name => exact path.child_eq_text name
    | property name => exact path.withProperty_eq_text name
    | collection name => exact path.withProperty_eq_text (Collection.nameLead ++ name)

end PathText

end MaterialBinding
