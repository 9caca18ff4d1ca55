import MaterialBinding.Text.Alphanumeric

/-!
# Names of prims and properties

A prim name is a nonempty run of letters, digits, underscores and hyphens.  A property name is one
or more nonempty runs of letters, digits and underscores, joined by single colons: `rel`,
`material:binding`, `collection:Erasers`.  The two types carry their grammar, so a name that
exists is well formed.
-/

namespace MaterialBinding

open Text

/-- The characters of a prim name. -/
def isPrimNameChar (c : Char) : Bool := isAlphanumeric c || c = '_' || c = '-'

/-- The characters of one run of a property name. -/
def isPropertyNameChar (c : Char) : Bool := isAlphanumeric c || c = '_'

/-- A nonempty run of prim name characters. -/
def isPrimName (s : List Char) : Bool := !s.isEmpty && s.all isPrimNameChar

/-- Nonempty runs of property name characters, joined by single colons. -/
def isPropertyName (s : List Char) : Bool :=
  (s.splitOn ':').all fun run => !run.isEmpty && run.all isPropertyNameChar

/-- The name of a prim among its siblings. -/
structure PrimName where
  text : String
  well_formed : isPrimName text.toList = true
deriving DecidableEq

/-- The name of a property of a prim. -/
structure PropertyName where
  text : String
  well_formed : isPropertyName text.toList = true
deriving DecidableEq

/-- Reads a prim name. -/
def PrimName.ofString? (text : String) : Option PrimName :=
  if h : isPrimName text.toList = true then some ⟨text, h⟩ else none

/-- Reads a property name. -/
def PropertyName.ofString? (text : String) : Option PropertyName :=
  if h : isPropertyName text.toList = true then some ⟨text, h⟩ else none

/-- Reading a prim name gives the name that is spelled so, if there is one. -/
theorem PrimName.ofString?_eq_some_iff {text : String} {n : PrimName} :
    PrimName.ofString? text = some n ↔ n.text = text := by
  constructor
  · intro h
    unfold PrimName.ofString? at h
    split at h
    · exact Option.some.inj h ▸ rfl
    · exact absurd h nofun
  · rintro rfl
    simp [PrimName.ofString?, n.well_formed]

/-- Reading a property name gives the name that is spelled so, if there is one. -/
theorem PropertyName.ofString?_eq_some_iff {text : String} {n : PropertyName} :
    PropertyName.ofString? text = some n ↔ n.text = text := by
  constructor
  · intro h
    unfold PropertyName.ofString? at h
    split at h
    · exact Option.some.inj h ▸ rfl
    · exact absurd h nofun
  · rintro rfl
    simp [PropertyName.ofString?, n.well_formed]

/-- A name is known by its spelling. -/
theorem PrimName.text_inj {m n : PrimName} : m.text = n.text ↔ m = n := by
  cases m; cases n; simp

/-- A name is known by its spelling. -/
theorem PropertyName.text_inj {m n : PropertyName} : m.text = n.text ↔ m = n := by
  cases m; cases n; simp

end MaterialBinding
