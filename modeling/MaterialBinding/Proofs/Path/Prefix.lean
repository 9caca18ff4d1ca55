import Mathlib.Logic.Relation
import MaterialBinding.Proofs.Path.Text

/-!
# What begins a path

`hasPrefix` compares texts, and the walk from a path to the root takes constructors off.  Both find
the same: no name has a separator in it, so a text that ends where a name ends is the text of the
path itself or of a prim above it (`hasPrefix_iff_mem_upward`).

Going up shortens the text (`eq_or_length_lt_of_hasPrefix`).  So of several paths that begin a path
the longest is the one that is met first.
-/

namespace MaterialBinding

namespace PrimPath

variable {one other above path : PrimPath} {rest : List Char}

/-- A child is not the root. -/
theorem child_ne_root {name : PrimName} : path.child name ≠ .root := by
  intro heq
  cases heq

/-- A prim is known by the names on the way down to it. -/
theorem components_inj (hsame : one.components = other.components) : one = other := by
  have hone := parse_components "" one
  rw [hsame, parse_components] at hone
  exact (Except.ok.inj hone).symm

/-- The way down to a prim begins with the ways to the prims above it. -/
theorem components_prefix_iff :
    above.components <+: path.components ↔ above = .root ∨ above ∈ path.ancestors := by
  induction path with
  | root =>
      rw [components, List.prefix_nil, ancestors]
      constructor
      · intro hempty
        exact Or.inl (components_inj hempty)
      · rintro (rfl | hmem)
        · rfl
        · cases hmem
  | child parent name ih =>
      have hwhole : above.components = parent.components ++ [name.text.toList] ↔
          above = parent.child name :=
        ⟨fun hsame => components_inj hsame, fun heq => heq ▸ rfl⟩
      rw [components, List.prefix_concat_iff, hwhole, ih, ancestors, List.mem_cons]
      exact or_left_comm

/-- What stands before a slash in the text of a prim is the text of a prim above it. -/
theorem eq_root_or_mem_ancestors (hchars : path.chars = above.chars ++ '/' :: rest) :
    above = .root ∨ above ∈ path.ancestors := by
  rw [← components_prefix_iff]
  have hsplit := splitOn_chars path
  rw [hchars, List.splitOn_append_cons_self, splitOn_chars, List.cons_append] at hsplit
  exact ⟨rest.splitOn '/', (List.cons.inj hsplit).2⟩

/-- Prims are told apart by their texts. -/
theorem chars_inj (hsame : one.chars = other.chars) : one = other := by
  have hsplit := splitOn_chars one
  rw [hsame, splitOn_chars] at hsplit
  exact components_inj (List.cons.inj hsplit).2.symm

/-- A text is cut at its first dot, which is none of a prim. -/
theorem takeWhile_chars_append (path : PrimPath) (rest : List Char) :
    (path.chars ++ rest).takeWhile (fun c => decide (c ≠ '.')) =
      path.chars ++ rest.takeWhile (fun c => decide (c ≠ '.')) := by
  refine List.takeWhile_append_of_pos fun c hc => ?_
  rw [decide_eq_true_eq]
  rintro rfl
  exact path.dot_not_mem_chars hc

/-- The text of a prim goes on from that of each prim above it with a slash. -/
theorem exists_chars_eq_append (hmem : above ∈ path.ancestors) :
    above = path ∨ ∃ rest, path.chars = above.chars ++ '/' :: rest := by
  induction path with
  | root => exact absurd hmem nofun
  | child parent name ih =>
      rcases List.mem_cons.mp hmem with rfl | hmem
      · exact Or.inl rfl
      · right
        rcases ih hmem with rfl | ⟨rest, hrest⟩
        · exact ⟨name.text.toList, rfl⟩
        · refine ⟨rest ++ '/' :: name.text.toList, ?_⟩
          rw [chars, hrest, List.append_assoc, List.cons_append]

end PrimPath

namespace ScenePath

variable {path lead one other : ScenePath}

/-- The test for the root finds the root only. -/
theorem isRoot_iff : path.isRoot = true ↔ path = .root := by
  rw [isRoot, beq_iff_eq]
  constructor
  · intro hroot
    exact ScenePath.ext hroot (path.root_bare hroot)
  · rintro rfl
    rfl

/-- A path that names no property is that of its prim. -/
theorem eq_ofPrim (hplain : path.isProperty = false) : path = ofPrim path.prim :=
  ScenePath.ext rfl (Option.isNone_iff_eq_none.mp (by simpa [isProperty] using hplain))

/-- The path of a prim is known by the prim. -/
theorem ofPrim_inj {one other : PrimPath} : ofPrim one = ofPrim other ↔ one = other :=
  ⟨fun heq => congrArg ScenePath.prim heq, fun heq => congrArg ofPrim heq⟩

/-- What is above a path is a prim. -/
theorem parent_eq_ofPrim (hparent : path.parent = some lead) : lead = ofPrim lead.prim := by
  obtain ⟨prim, property, hbare⟩ := path
  cases property with
  | some property =>
      obtain rfl := Option.some.inj hparent
      rfl
  | none =>
      cases prim with
      | root => cases hparent
      | child above name =>
          obtain rfl := Option.some.inj hparent
          rfl

/-- A path is known by its text. -/
theorem chars_inj (hsame : one.chars = other.chars) : one = other := by
  have hone := parse_text one
  have htext : one.text = other.text := congrArg String.ofList hsame
  rw [htext, parse_text] at hone
  exact (Except.ok.inj hone).symm

/-- The written form below the root. -/
theorem chars_eq (hroot : path ≠ .root) : path.chars = path.prim.chars ++ path.propertyChars := by
  rw [chars]
  cases hprim : path.prim with
  | root => exact absurd (ScenePath.ext hprim (path.root_bare hprim)) hroot
  | child above name => rw [PrimPath.text_child, String.toList_ofList]

/-- A prim below the root is written by its names alone. -/
theorem chars_eq_of_plain (hroot : path ≠ .root) (hplain : path.isProperty = false) :
    path.chars = path.prim.chars := by
  have hnone : path.propertyChars = [] := by
    rw [eq_ofPrim hplain]
    rfl
  rw [chars_eq hroot, hnone, List.append_nil]

/-- Below the root the path of a prim is written by its names. -/
theorem chars_child (above : PrimPath) (name : PrimName) :
    (ofPrim (above.child name)).chars = (above.child name).chars :=
  chars_eq_of_plain nofun rfl

/-- The text before the dot is that of the prim. -/
theorem takeWhile_chars (hroot : path ≠ .root) :
    path.chars.takeWhile (fun c => decide (c ≠ '.')) = path.prim.chars := by
  rw [chars_eq hroot, PrimPath.takeWhile_chars_append]
  cases hproperty : path.property <;> simp [propertyChars, hproperty]

/-! ## The way up -/

/-- The path and what is above it, nearest first, up to the root. -/
def upward (path : ScenePath) : List ScenePath :=
  (if path.isProperty then [path] else []) ++ (path.ancestors.map ofPrim ++ [root])

/-- From a property the way up goes on at its prim. -/
theorem upward_property (hproperty : path.isProperty = true) :
    path.upward = path :: (ofPrim path.prim).upward := by
  rw [upward, if_pos hproperty]
  rfl

/-- **One step up.**  The way up begins with the path and goes on from its parent. -/
theorem upward_eq_cons :
    path.upward = path :: match path.parent with
      | some above => above.upward
      | none => [] := by
  obtain ⟨prim, property, hbare⟩ := path
  cases property with
  | some property => exact upward_property rfl
  | none => cases prim <;> rfl

/-- Going up from a path leads through the path, the prims above it and the root. -/
theorem mem_upward_iff :
    lead ∈ path.upward ↔
      lead = path ∨ lead = root ∨ ∃ above ∈ path.prim.ancestors, lead = ofPrim above := by
  have habove : lead ∈ path.ancestors.map ofPrim ++ [root] ↔
      lead = root ∨ ∃ above ∈ path.prim.ancestors, lead = ofPrim above := by
    rw [List.mem_append, List.mem_singleton, List.mem_map, or_comm]
    simp only [ancestors, eq_comm]
  rw [upward, List.mem_append, habove]
  cases hproperty : path.isProperty with
  | true => simp
  | false =>
      constructor
      · rintro (hmem | hmem)
        · cases hmem
        · exact Or.inr hmem
      · rintro (rfl | hmem)
        · right
          rw [eq_ofPrim hproperty]
          cases lead.prim with
          | root => exact Or.inl rfl
          | child above name => exact Or.inr ⟨_, List.mem_cons_self .., rfl⟩
        · exact Or.inr hmem

/-- Going up begins with the path. -/
theorem self_mem_upward : path ∈ path.upward := mem_upward_iff.mpr (Or.inl rfl)

/-- Going up ends at the root. -/
theorem root_mem_upward : root ∈ path.upward := mem_upward_iff.mpr (Or.inr (Or.inl rfl))

/-- The text of the path of a prim is at most one slash longer than its names. -/
theorem length_chars_ofPrim_le (prim : PrimPath) :
    (ofPrim prim).chars.length ≤ prim.chars.length + 1 := by
  cases prim with
  | root => exact Nat.le_refl _
  | child above name =>
      rw [chars_child]
      exact Nat.le_succ _

/-- Going up shortens the text. -/
theorem length_chars_parent_lt (hparent : path.parent = some lead) :
    lead.chars.length < path.chars.length := by
  obtain ⟨prim, property, hbare⟩ := path
  cases property with
  | some property =>
      obtain rfl := Option.some.inj hparent
      simp [chars, propertyChars, ofPrim]
  | none =>
      cases prim with
      | root => cases hparent
      | child above name =>
          obtain rfl := Option.some.inj hparent
          have habove := length_chars_ofPrim_le above
          have hname := List.length_pos_iff.mpr (primName_ne_nil name)
          change _ < (ofPrim (above.child name)).chars.length
          rw [chars_child, PrimPath.chars, List.length_append, List.length_cons]
          omega

/-- Every path is reached from the root, one step after the other. -/
@[elab_as_elim]
theorem climb {motive : ScenePath → Prop} (root : motive .root)
    (step : ∀ {path above : ScenePath}, path.parent = some above → motive above → motive path)
    (path : ScenePath) : motive path := by
  have hprim : ∀ prim : PrimPath, motive (ofPrim prim) := by
    intro prim
    induction prim with
    | root => exact root
    | child above name ih => exact step rfl ih
  obtain ⟨prim, property, hbare⟩ := path
  cases property with
  | some property => exact step rfl (hprim prim)
  | none => exact hprim prim

/-- Texts do not get longer on the way up. -/
theorem length_chars_le_of_mem_upward (hmem : lead ∈ path.upward) :
    lead.chars.length ≤ path.chars.length := by
  induction path using climb with
  | root =>
      obtain rfl := List.mem_singleton.mp hmem
      exact Nat.le_refl _
  | step hparent ih =>
      rw [upward_eq_cons, hparent] at hmem
      rcases List.mem_cons.mp hmem with rfl | hmem
      · exact Nat.le_refl _
      · exact Nat.le_of_lt (Nat.lt_of_le_of_lt (ih hmem) (length_chars_parent_lt hparent))

/-- The text of the root is the shortest. -/
theorem length_root_lt (hroot : path ≠ .root) : root.chars.length < path.chars.length := by
  induction path using climb with
  | root => exact absurd rfl hroot
  | step hparent _ =>
      exact Nat.lt_of_le_of_lt (length_chars_le_of_mem_upward root_mem_upward)
        (length_chars_parent_lt hparent)

/-! ## Texts that begin a text -/

/-- A text begins another one as a path if it ends there where a name ends. -/
theorem hasPrefix_iff_chars :
    path.hasPrefix lead = true ↔
      lead = .root ∨ path.chars = lead.chars ∨
        (lead.isProperty = false ∧ ∃ rest, path.chars = lead.chars ++ '/' :: rest ∨
          path.chars = lead.chars ++ '.' :: rest) := by
  rw [hasPrefix, Bool.or_eq_true, isRoot_iff, Bool.and_eq_true, List.isPrefixOf_iff_prefix]
  refine or_congr_right ?_
  constructor
  · rintro ⟨⟨rest, hrest⟩, hend⟩
    rw [← hrest, List.drop_left] at hend
    cases rest with
    | nil => exact Or.inl (by rw [← hrest, List.append_nil])
    | cons c rest =>
        right
        simp only [Bool.and_eq_true, Bool.not_eq_true', Bool.or_eq_true, beq_iff_eq] at hend
        obtain ⟨hplain, rfl | rfl⟩ := hend
        · exact ⟨hplain, rest, Or.inl hrest.symm⟩
        · exact ⟨hplain, rest, Or.inr hrest.symm⟩
  · rintro (hsame | ⟨hplain, rest, hrest | hrest⟩)
    · rw [hsame]
      exact ⟨List.prefix_refl _, by rw [List.drop_length]⟩
    · rw [hrest, List.drop_left, hplain]
      exact ⟨List.prefix_append _ _, rfl⟩
    · rw [hrest, List.drop_left, hplain]
      exact ⟨List.prefix_append _ _, rfl⟩

/-- What stands before a slash or the dot in the text of a path is above it. -/
theorem mem_upward_of_chars (hlead : lead ≠ .root) (hplain : lead.isProperty = false)
    {rest : List Char}
    (hchars : path.chars = lead.chars ++ '/' :: rest ∨ path.chars = lead.chars ++ '.' :: rest) :
    lead ∈ path.upward := by
  have hroot : path ≠ .root := by
    rintro rfl
    have hlength := length_root_lt hlead
    rcases hchars with hchars | hchars <;>
      · rw [hchars, List.length_append] at hlength
        omega
  have hprim := chars_eq_of_plain hlead hplain
  have htake := takeWhile_chars hroot
  refine mem_upward_iff.mpr (Or.inr ?_)
  rw [eq_ofPrim hplain] at hlead ⊢
  -- Cut at their first dot, both texts are those of prims: at a slash that of `lead` goes on, and
  -- at the dot it ends.
  rcases hchars with hslash | hdot
  · rw [hslash, hprim, PrimPath.takeWhile_chars_append,
      List.takeWhile_cons_of_pos (by decide)] at htake
    rcases PrimPath.eq_root_or_mem_ancestors htake.symm with hnone | hmem
    · exact absurd (congrArg ofPrim hnone) hlead
    · exact Or.inr ⟨lead.prim, hmem, rfl⟩
  · rw [hdot, hprim, PrimPath.takeWhile_chars_append,
      List.takeWhile_cons_of_neg (by decide), List.append_nil] at htake
    rw [PrimPath.chars_inj htake]
    cases path.prim with
    | root => exact Or.inl rfl
    | child above name => exact Or.inr ⟨_, List.mem_cons_self .., rfl⟩

/-- The text of a path goes on from that of each path above it with a slash or the dot. -/
theorem exists_chars_of_mem_upward (hlead : lead ≠ .root) (hmem : lead ∈ path.upward) :
    lead = path ∨ (lead.isProperty = false ∧ ∃ rest,
      path.chars = lead.chars ++ '/' :: rest ∨ path.chars = lead.chars ++ '.' :: rest) := by
  rcases mem_upward_iff.mp hmem with heq | heq | ⟨above, habove, rfl⟩
  · exact Or.inl heq
  · exact absurd heq hlead
  · have hroot : path ≠ .root := by
      rintro rfl
      cases habove
    have hprim : (ofPrim above).chars = above.chars := chars_eq_of_plain hlead rfl
    rw [chars_eq hroot, hprim]
    rcases PrimPath.exists_chars_eq_append habove with rfl | ⟨rest, hrest⟩
    · cases hproperty : path.property with
      | none =>
          refine Or.inl (eq_ofPrim ?_).symm
          rw [isProperty, hproperty]
          rfl
      | some property =>
          refine Or.inr ⟨rfl, property.text.toList, Or.inr ?_⟩
          rw [propertyChars, hproperty]
    · refine Or.inr ⟨rfl, rest ++ path.propertyChars, Or.inl ?_⟩
      rw [hrest, List.append_assoc, List.cons_append]

/-- **What begins a path is what is met on the way up from it.** -/
theorem hasPrefix_iff_mem_upward : path.hasPrefix lead = true ↔ lead ∈ path.upward := by
  rw [hasPrefix_iff_chars]
  constructor
  · rintro (rfl | hsame | ⟨hplain, rest, hchars⟩)
    · exact root_mem_upward
    · exact chars_inj hsame ▸ self_mem_upward
    · by_cases hlead : lead = .root
      · rw [hlead]
        exact root_mem_upward
      · exact mem_upward_of_chars hlead hplain hchars
  · intro hmem
    by_cases hlead : lead = .root
    · exact Or.inl hlead
    · right
      rcases exists_chars_of_mem_upward hlead hmem with rfl | habove
      · exact Or.inl rfl
      · exact Or.inr habove

/-- **One step up.**  What begins a path is the path itself or begins its parent. -/
theorem hasPrefix_iff_eq_or_parent :
    path.hasPrefix lead = true ↔
      lead = path ∨ ∃ above, path.parent = some above ∧ above.hasPrefix lead = true := by
  simp only [hasPrefix_iff_mem_upward]
  rw [upward_eq_cons, List.mem_cons]
  cases path.parent with
  | none => simp
  | some above => simp

/-- Going up from the path, by no step or by several, one comes to `above`. -/
def AtOrBelow (path above : ScenePath) : Prop :=
  Relation.ReflTransGen (fun one next => one.parent = some next) path above

/-- **One step up.**  A path is at or below what its parent is at or below, and at itself. -/
theorem atOrBelow_iff_eq_or_parent :
    path.AtOrBelow lead ↔
      path = lead ∨ ∃ above, path.parent = some above ∧ above.AtOrBelow lead :=
  Relation.ReflTransGen.cases_head_iff

/-- **What begins a path is what it is at or below.** -/
theorem hasPrefix_iff_atOrBelow : path.hasPrefix lead = true ↔ path.AtOrBelow lead := by
  induction path using climb with
  | root =>
      have hparent : root.parent = none := rfl
      rw [hasPrefix_iff_eq_or_parent, atOrBelow_iff_eq_or_parent, hparent, eq_comm]
      simp
  | step hparent ih =>
      rw [hasPrefix_iff_eq_or_parent, atOrBelow_iff_eq_or_parent, hparent, eq_comm]
      simp [ih]

instance (path above : ScenePath) : Decidable (path.AtOrBelow above) :=
  decidable_of_iff _ hasPrefix_iff_atOrBelow

/-- A prim is at or below the root and those on the way to it. -/
theorem ofPrim_atOrBelow_iff {prim : PrimPath} :
    (ofPrim prim).AtOrBelow lead ↔ lead = root ∨ ∃ above ∈ prim.ancestors, lead = ofPrim above := by
  rw [← hasPrefix_iff_atOrBelow, hasPrefix_iff_mem_upward, mem_upward_iff]
  constructor
  · rintro (rfl | hmem)
    · cases prim with
      | root => exact Or.inl rfl
      | child above name => exact Or.inr ⟨_, List.mem_cons_self .., rfl⟩
    · exact hmem
  · exact Or.inr

/-- A prim is at or below another one exactly if its way down leads through it. -/
theorem atOrBelow_ofPrim_iff {prim above : PrimPath} (habove : above ≠ .root) :
    (ofPrim prim).AtOrBelow (ofPrim above) ↔ above ∈ prim.ancestors := by
  rw [ofPrim_atOrBelow_iff]
  constructor
  · rintro (heq | ⟨place, hmem, heq⟩)
    · exact absurd (ofPrim_inj.mp heq) habove
    · exact ofPrim_inj.mp heq ▸ hmem
  · exact fun hmem => Or.inr ⟨above, hmem, rfl⟩

/-- What begins a path, other than the path itself, begins its parent. -/
theorem hasPrefix_iff_of_parent {above : ScenePath} (hparent : path.parent = some above)
    (hne : lead ≠ path) : path.hasPrefix lead = true ↔ above.hasPrefix lead = true := by
  rw [hasPrefix_iff_eq_or_parent]
  simp [hne, hparent]

/-- What begins a path is shorter, unless it is the path itself. -/
theorem eq_or_length_lt_of_hasPrefix (hlead : path.hasPrefix lead = true) :
    lead = path ∨ lead.chars.length < path.chars.length := by
  rcases hasPrefix_iff_eq_or_parent.mp hlead with heq | ⟨above, hparent, habove⟩
  · exact Or.inl heq
  · have hle := length_chars_le_of_mem_upward (hasPrefix_iff_mem_upward.mp habove)
    exact Or.inr (Nat.lt_of_le_of_lt hle (length_chars_parent_lt hparent))

/-- Of the paths that begin a path, no two are of one length. -/
theorem eq_of_hasPrefix_of_length_eq (hone : path.hasPrefix one = true)
    (hother : path.hasPrefix other = true) (hlength : one.chars.length = other.chars.length) :
    one = other := by
  induction path using climb with
  | root =>
      rw [hasPrefix_iff_mem_upward] at hone hother
      rw [List.mem_singleton.mp hone, List.mem_singleton.mp hother]
  | step hparent ih =>
      rcases eq_or_length_lt_of_hasPrefix hone with rfl | hshorter
      · rcases eq_or_length_lt_of_hasPrefix hother with rfl | hshorter
        · rfl
        · omega
      · rcases eq_or_length_lt_of_hasPrefix hother with rfl | hshorter'
        · omega
        · have hne : ∀ {lead path : ScenePath}, lead.chars.length < path.chars.length →
              lead ≠ path :=
            fun hlt heq => Nat.ne_of_lt hlt (congrArg (fun path => path.chars.length) heq)
          have habove := (hasPrefix_iff_of_parent hparent (hne hshorter)).mp hone
          have habove' := (hasPrefix_iff_of_parent hparent (hne hshorter')).mp hother
          exact ih habove habove'

end ScenePath

end MaterialBinding
