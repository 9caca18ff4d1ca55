import MaterialBinding.Proofs.Path.Cuts

/-!
# The grammar of paths

A path is written as a slash, or as names with a slash before each of them and perhaps a property
behind a dot (`PathText.WellFormed`).  A name is a run of letters, digits, underscores and hyphens,
and a property is one or more runs without hyphens, joined by single colons (`PropertyText`).

Reading accepts just these texts (`PathText.accepted_iff_wellFormed`).  Going on from a path by
cutting its text or writing on it, in any number of steps, leads to such texts again, so no step has
to read what it has made.
-/

namespace MaterialBinding

/-! ## Names -/

/-- At least one character, and all of one kind. -/
def IsRun (kind : Char → Bool) (text : List Char) : Prop :=
  text ≠ [] ∧ ∀ c ∈ text, kind c = true

/-- Runs joined by single colons. -/
inductive PropertyText : List Char → Prop
  | run {run : List Char} (hrun : IsRun isPropertyNameChar run) : PropertyText run
  | joined {run rest : List Char} (hrun : IsRun isPropertyNameChar run)
      (hrest : PropertyText rest) : PropertyText (run ++ ':' :: rest)

/-- What can be checked of the text of a property without cutting it: where it has no colons, and
which characters it has. -/
structure PropertyText.Checked (text : List Char) : Prop where
  ne_nil : text ≠ []
  head_ne : text.head? ≠ some ':'
  last_ne : text.getLast? ≠ some ':'
  single : ¬ [':', ':'] <:+: text
  kind : ∀ c ∈ text, isPropertyNameChar c = true ∨ c = ':'

variable {text run rest : List Char}

/-- Prim names are checked by their grammar. -/
theorem isPrimName_iff : isPrimName text = true ↔ IsRun isPrimNameChar text := by
  simp [isPrimName, IsRun]

/-- There is no colon in a run. -/
theorem IsRun.colon_not_mem (hrun : IsRun isPropertyNameChar run) : ':' ∉ run := by
  intro hmem
  have hcolon := hrun.2 ':' hmem
  have hkind : isPropertyNameChar ':' = false := by decide
  rw [hkind] at hcolon
  cases hcolon

/-- A single run is a property name. -/
theorem isPropertyName_of_run (hrun : IsRun isPropertyNameChar run) :
    isPropertyName run = true := by
  rw [isPropertyName, List.splitOn_eq_singleton hrun.colon_not_mem]
  simpa [IsRun] using hrun

namespace PropertyText

/-- Two colons side by side are behind the first colon, or they begin there. -/
theorem not_colons_infix (hcolon : ':' ∉ run) (hhead : rest.head? ≠ some ':')
    (hsingle : ¬ [':', ':'] <:+: rest) : ¬ [':', ':'] <:+: run ++ ':' :: rest := by
  induction run with
  | nil =>
      rw [List.nil_append, List.infix_cons_iff]
      intro hcolons
      rcases hcolons with ⟨tail, htail⟩ | hinside
      · have hrest : rest = ':' :: tail := by simpa using htail.symm
        exact hhead (hrest ▸ rfl)
      · exact hsingle hinside
  | cons c run ih =>
      rw [List.mem_cons, not_or] at hcolon
      obtain ⟨hc, hcolon⟩ := hcolon
      rw [List.cons_append, List.infix_cons_iff]
      intro hcolons
      rcases hcolons with ⟨tail, htail⟩ | hinside
      · exact hc (List.cons.inj htail).1
      · exact ih hcolon hinside

/-- Behind a run and a single colon the checks go on with the rest. -/
theorem Checked.joined (hrun : IsRun isPropertyNameChar run) (hrest : Checked rest) :
    Checked (run ++ ':' :: rest) where
  ne_nil := by simp
  head_ne := by
    intro hhead
    rw [List.head?_append_of_ne_nil _ hrun.1] at hhead
    exact hrun.colon_not_mem (List.mem_of_head? hhead)
  last_ne := by
    intro hlast
    have hbehind : run ++ ':' :: rest = (run ++ [':']) ++ rest := by simp
    rw [hbehind, List.getLast?_append_of_ne_nil _ hrest.ne_nil] at hlast
    exact hrest.last_ne hlast
  single := not_colons_infix hrun.colon_not_mem hrest.head_ne hrest.single
  kind := by
    intro c hmem
    rcases List.mem_append.mp hmem with hmem | hmem
    · exact Or.inl (hrun.2 c hmem)
    · rcases List.mem_cons.mp hmem with hc | hmem
      · exact Or.inr hc
      · exact hrest.kind c hmem

/-- There is no colon in a run, so there is nothing to check about colons. -/
theorem Checked.of_run (hrun : IsRun isPropertyNameChar run) : Checked run where
  ne_nil := hrun.1
  head_ne := fun hhead => hrun.colon_not_mem (List.mem_of_head? hhead)
  last_ne := fun hlast => hrun.colon_not_mem (List.mem_of_getLast? hlast)
  single := fun hinside => hrun.colon_not_mem (hinside.subset (List.mem_cons_self ..))
  kind := fun c hmem => Or.inl (hrun.2 c hmem)

/-- Runs joined by single colons pass the checks. -/
theorem checked (hproperty : PropertyText text) : Checked text := by
  induction hproperty with
  | run hrun => exact .of_run hrun
  | joined hrun _ ih => exact ih.joined hrun

/-- What passes the checks up to its first colon goes on behind it with what passes them. -/
theorem Checked.of_joined (hcolon : ':' ∉ run) (hchecked : Checked (run ++ ':' :: rest)) :
    IsRun isPropertyNameChar run ∧ Checked rest := by
  have hsome : run ≠ [] := by
    intro hnil
    subst hnil
    exact hchecked.head_ne rfl
  have hrest : rest ≠ [] := by
    intro hnil
    subst hnil
    exact hchecked.last_ne List.getLast?_concat
  have hbehind : run ++ ':' :: rest = (run ++ [':']) ++ rest := by simp
  refine ⟨⟨hsome, ?run⟩, ⟨hrest, ?head, ?last, ?single, ?kind⟩⟩
  case run =>
    intro c hmem
    rcases hchecked.kind c (List.mem_append_left _ hmem) with hkind | heq
    · exact hkind
    · exact absurd (heq ▸ hmem) hcolon
  case head =>
    intro hhead
    obtain ⟨tail, rfl⟩ := List.head?_eq_some_iff.mp hhead
    exact hchecked.single ⟨run, tail, by simp⟩
  case last =>
    have hlast := hchecked.last_ne
    rwa [hbehind, List.getLast?_append_of_ne_nil _ hrest] at hlast
  case single =>
    intro hinside
    have hsuffix : rest <:+ run ++ ':' :: rest := hbehind ▸ List.suffix_append _ _
    exact hchecked.single (hinside.trans hsuffix.isInfix)
  case kind =>
    intro c hmem
    exact hchecked.kind c (List.mem_append_right _ (List.mem_cons_of_mem _ hmem))

/-- And what passes the checks is cut into runs at its colons. -/
theorem of_checked (hchecked : Checked text) : PropertyText text := by
  induction hlength : text.length using Nat.strongRecOn generalizing text with
  | ind n ih =>
      by_cases hcolon : ':' ∈ text
      · obtain ⟨run, rest, rfl, hfirst⟩ := List.eq_append_cons_of_mem hcolon
        obtain ⟨hrun, hrest⟩ := hchecked.of_joined hfirst
        have hshorter : rest.length < n := by
          rw [← hlength, List.length_append, List.length_cons]
          omega
        exact .joined hrun (ih _ hshorter hrest rfl)
      · refine .run ⟨hchecked.ne_nil, fun c hmem => ?_⟩
        rcases hchecked.kind c hmem with hkind | heq
        · exact hkind
        · exact absurd (heq ▸ hmem) hcolon

/-- The check of property names finds their grammar. -/
theorem checked_iff : Checked text ↔ PropertyText text := ⟨of_checked, checked⟩

/-- Runs joined by single colons are a name of a property. -/
theorem isName (hproperty : PropertyText text) : isPropertyName text = true := by
  induction hproperty with
  | run hrun => exact isPropertyName_of_run hrun
  | joined hrun _ ih => rw [isPropertyName_append_colon, isPropertyName_of_run hrun, ih]; rfl

/-- Joining runs makes such a text. -/
theorem of_runs {runs : List (List Char)} (hsome : runs ≠ [])
    (hruns : ∀ run ∈ runs, IsRun isPropertyNameChar run) :
    PropertyText ([':'].intercalate runs) := by
  induction runs with
  | nil => exact absurd rfl hsome
  | cons run rest ih =>
      obtain ⟨hrun, hrest⟩ := List.forall_mem_cons.mp hruns
      cases rest with
      | nil => simpa using PropertyText.run hrun
      | cons next rest =>
          rw [List.intercalate_cons_cons, List.append_assoc]
          exact .joined hrun (ih nofun hrest)

end PropertyText

/-- The names of properties are runs joined by single colons. -/
theorem isPropertyName_iff : isPropertyName text = true ↔ PropertyText text := by
  constructor
  · intro hname
    have hjoined : [':'].intercalate (text.splitOn ':') = text := List.intercalate_splitOn ':'
    rw [← hjoined]
    apply PropertyText.of_runs (List.splitOn_ne_nil ':' text)
    simpa [isPropertyName, IsRun] using hname
  · exact PropertyText.isName

/-! ## Paths -/

/-- Names, each behind a slash. -/
inductive PrimText : List Char → Prop
  | first {name : List Char} (hname : IsRun isPrimNameChar name) : PrimText ('/' :: name)
  | child {above name : List Char} (habove : PrimText above)
      (hname : IsRun isPrimNameChar name) : PrimText (above ++ '/' :: name)

/-- The text of a path: a slash, or names each behind a slash and perhaps a property behind a
dot. -/
inductive PathText.WellFormed : List Char → Prop
  | root : WellFormed PathText.root
  | prim {text : List Char} (hprim : PrimText text) : WellFormed text
  | property {prim property : List Char} (hprim : PrimText prim)
      (hproperty : PropertyText property) : WellFormed (prim ++ '.' :: property)

/-- A prim name is a run of prim name characters. -/
theorem PrimName.isRun (name : PrimName) : IsRun isPrimNameChar name.text.toList :=
  isPrimName_iff.mp name.well_formed

/-- The texts of prims below the root. -/
theorem primText_iff : PrimText text ↔ ∃ above name, (PrimPath.child above name).chars = text := by
  constructor
  · intro htext
    induction htext with
    | @first name hname =>
        refine ⟨.root, ⟨String.ofList name, ?_⟩, ?_⟩
        · rwa [String.toList_ofList, isPrimName_iff]
        · simp [PrimPath.chars]
    | @child above name _ hname ih =>
        obtain ⟨parent, last, rfl⟩ := ih
        refine ⟨parent.child last, ⟨String.ofList name, ?_⟩, ?_⟩
        · rwa [String.toList_ofList, isPrimName_iff]
        · rw [PrimPath.chars, String.toList_ofList]
  · intro hprim
    obtain ⟨above, name, rfl⟩ := hprim
    induction above generalizing name with
    | root => exact .first name.isRun
    | child parent last ih => exact .child (ih last) name.isRun

namespace PathText

/-- **The texts of paths are those of the grammar.** -/
theorem wellFormed_iff : WellFormed text ↔ ∃ path : ScenePath, path.chars = text := by
  constructor
  · intro htext
    cases htext with
    | root => exact ⟨.root, rfl⟩
    | prim hprim =>
        obtain ⟨above, name, rfl⟩ := primText_iff.mp hprim
        exact ⟨.ofPrim (above.child name), ScenePath.chars_child above name⟩
    | @property prim property hprim hproperty =>
        obtain ⟨above, name, rfl⟩ := primText_iff.mp hprim
        refine ⟨.ofProperty above name ⟨String.ofList property, ?_⟩, ?_⟩
        · rwa [String.toList_ofList, isPropertyName_iff]
        · rw [ScenePath.chars_ofProperty, String.toList_ofList]
  · intro hpath
    obtain ⟨path, rfl⟩ := hpath
    induction path using ScenePath.byKind with
    | root => exact .root
    | child above name =>
        rw [ScenePath.chars_child]
        exact .prim (primText_iff.mpr ⟨above, name, rfl⟩)
    | property above name property =>
        rw [ScenePath.chars_ofProperty]
        have hproperty := isPropertyName_iff.mp property.well_formed
        exact .property (primText_iff.mpr ⟨above, name, rfl⟩) hproperty

/-- **A text is read as a path exactly if it is well formed.** -/
theorem exists_parse_iff {text : String} :
    (∃ path, ScenePath.parse text = .ok path) ↔ WellFormed text.toList := by
  rw [wellFormed_iff]
  refine exists_congr fun path => ?_
  rw [ScenePath.parse_eq_ok_iff, ← ScenePath.toList_text, String.toList_inj]

instance (text : List Char) : Decidable (WellFormed text) :=
  decidable_of_iff ((ScenePath.parse (String.ofList text)).toOption.isSome = true) <| by
    have hparse := @exists_parse_iff (String.ofList text)
    rw [String.toList_ofList] at hparse
    rw [← hparse]
    cases ScenePath.parse (String.ofList text) <;> simp [Except.toOption]

/-- What is no path: a dot ends the names, and colons stand between runs only. -/
example : ∀ text ∈ ["", "A/B", "/A//B", "/A/", "/.b", "/A.", "/A.b.c", "/A.b:", "/A.b::c", "/A B"],
    ¬ WellFormed text.toList := by
  decide

end PathText

/-! ## Going on from a path -/

namespace PathStep

/-- Where the steps lead from a path, one after the other. -/
def paths? (path : ScenePath) (steps : List PathStep) : Option ScenePath :=
  steps.foldlM path? path

/-- Where they lead from a text. -/
def texts? (text : List Char) (steps : List PathStep) : Option (List Char) :=
  steps.foldlM text? text

/-- **All steps together.**  On texts they lead where they lead on paths. -/
theorem map_paths? (path : ScenePath) (steps : List PathStep) :
    (paths? path steps).map ScenePath.chars = texts? path.chars steps := by
  induction steps generalizing path with
  | nil => rfl
  | cons step rest ih =>
      have hstep := (PathText.describes_chars path).step_eq step
      rw [paths?, texts?, List.foldlM_cons, List.foldlM_cons, ← hstep]
      cases step.path? path with
      | none => rfl
      | some next => exact ih next

end PathStep

/-- **Reading accepts the grammar**, and the path that is read has the text.  What the path tells
of itself is found by cutting the text, and each step from it, by cutting or by writing on, leads to
a text that is read as itself.  Of the letters and digits it matters only that no separator is one
(`isAlphanumeric_separator`). -/
theorem PathText.accepted_iff_wellFormed (text : String) :
    ((∃ path, ScenePath.parse text = .ok path) ↔ WellFormed text.toList) ∧
    (∀ name : List Char, isPropertyName name = true ↔ PropertyText.Checked name) ∧
    ∀ path, ScenePath.parse text = .ok path →
      path.text = text ∧ Describes text.toList path ∧
      ∀ steps : List PathStep,
        (PathStep.paths? path steps).map ScenePath.chars = PathStep.texts? text.toList steps ∧
        ∀ made, PathStep.texts? text.toList steps = some made →
          ∃ next, ScenePath.parse (String.ofList made) = .ok next ∧ next.chars = made := by
  refine ⟨exists_parse_iff, fun name => ?_, fun path hparse => ?_⟩
  · rw [isPropertyName_iff, PropertyText.checked_iff]
  · obtain rfl := ScenePath.text_of_parse hparse
    rw [ScenePath.toList_text]
    refine ⟨rfl, describes_chars path, fun steps => ⟨PathStep.map_paths? path steps, ?_⟩⟩
    intro made hmade
    rw [← PathStep.map_paths?, Option.map_eq_some_iff] at hmade
    obtain ⟨next, _, rfl⟩ := hmade
    exact ⟨next, ScenePath.parse_text next, rfl⟩

end MaterialBinding
