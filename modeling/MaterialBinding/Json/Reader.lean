import MaterialBinding.Json.Skip

/-!
# Reading values of a wanted kind

A `Reader` takes a value of one kind off the front of a text.  Readers are made of readers: of a
list from one of its items (`readList`), of a record from those of its fields (`readRecord`), of a
map from one of its values (`readMap`).  Since the text is read from left to right, the first
thing that is wrong with it decides what is reported; `mismatch` says what that is when the value
is of another kind.

Wanted values may be nested only so deep.  A reader of lists, records or maps is told how many
brackets may still be opened, and `nestingLimit` is the number for a whole text.

A record is an object with the fields as members, in any order and among others, which are passed
over.  It may also be an array of the fields in their order, and fields at its end may be missing.
-/

namespace MaterialBinding.Json

/-- Takes a value off the front of a text. -/
abbrev Reader (α : Type) := List Char → Except Problem (α × List Char)

/-- The number of brackets that may be open at once in a text. -/
def nestingLimit : Nat := 127

/-- Why the text does not begin with a value of the wanted kind.  A value of another kind is read
as far as is needed to know that it is one. -/
def mismatch : List Char → Problem
  | [] => .cutShort
  | 'n' :: s => afterWord (readWord ['u', 'l', 'l'] s)
  | 't' :: s => afterWord (readWord ['r', 'u', 'e'] s)
  | 'f' :: s => afterWord (readWord ['a', 'l', 's', 'e'] s)
  | '"' :: s =>
    match decode .used s with
    | .ok _ => .wrongKind
    | .error problem => problem
  | '[' :: _ => .wrongKind
  | '\x7b' :: _ => .wrongKind
  | c :: s => if c = '-' || c.isDigit then checkNumber (c :: s) else .malformed
where
  /-- A word that is complete is of the wrong kind. -/
  afterWord : Except Problem (List Char) → Problem
    | .ok _ => .wrongKind
    | .error problem => problem

/-- Turns what a reader takes into something else, or refuses it. -/
def Reader.refine {α β : Type} (reader : Reader α) (f : α → Except Problem β) : Reader β :=
  fun s =>
    match reader s with
    | .error problem => .error problem
    | .ok (value, rest) =>
      match f value with
      | .error problem => .error problem
      | .ok value => .ok (value, rest)

/-- Reads a text. -/
def readString : Reader String := fun s =>
  match skipBlank s with
  | '"' :: rest =>
    match decode .used rest with
    | .ok (text, rest) => .ok (String.ofList text, rest)
    | .error problem => .error problem
  | s => .error (mismatch s)

/-- Reads a truth value. -/
def readBool : Reader Bool := fun s =>
  match skipBlank s with
  | 't' :: rest => (readWord ['r', 'u', 'e'] rest).map (true, ·)
  | 'f' :: rest => (readWord ['a', 'l', 's', 'e'] rest).map (false, ·)
  | s => .error (mismatch s)

/-- Reads a value that may be null. -/
def readOption {α : Type} (item : Reader α) : Reader (Option α) := fun s =>
  match skipBlank s with
  | 'n' :: rest => (readWord ['u', 'l', 'l'] rest).map (none, ·)
  | s =>
    match item s with
    | .ok (value, rest) => .ok (some value, rest)
    | .error problem => .error problem

/-- Reads the items of a list up to its end, in at most so many steps. -/
def readItemsIn {α : Type} (item : Reader α) : Nat → Reader (List α)
  | 0, _ => .error .cutShort
  | steps + 1, s =>
    match item s with
    | .error problem => .error problem
    | .ok (value, rest) =>
      match skipBlank rest with
      | [] => .error .cutShort
      | ']' :: rest => .ok ([value], rest)
      | ',' :: rest =>
        match readItemsIn item steps rest with
        | .ok (values, rest) => .ok (value :: values, rest)
        | .error problem => .error problem
      | _ => .error .malformed

/-- Reads a list inside of which `limit - 1` more brackets may be opened. -/
def readList {α : Type} (limit : Nat) (item : Reader α) : Reader (List α) := fun s =>
  match skipBlank s with
  | '[' :: rest =>
    if limit = 0 then .error .malformed
    else
      match skipBlank rest with
      | ']' :: rest => .ok ([], rest)
      | rest => readItemsIn item (rest.length + 1) rest
  | s => .error (mismatch s)

/-- Reads the members of an object from the first to its end, in at most so many steps.  The state
holds what the members so far have made of it. -/
def readMembersIn {σ : Type} (member : String → σ → Reader σ) : Nat → σ → Reader σ
  | 0, _, _ => .error .cutShort
  | steps + 1, state, s =>
    match skipBlank s with
    | [] => .error .cutShort
    | '"' :: rest =>
      match decode .used rest with
      | .error problem => .error problem
      | .ok (name, rest) =>
        match member (String.ofList name) state rest with
        | .error problem => .error problem
        | .ok (state, rest) =>
          match skipBlank rest with
          | [] => .error .cutShort
          | '\x7d' :: rest => .ok (state, rest)
          | ',' :: rest => readMembersIn member steps state rest
          | _ => .error .malformed
    | _ => .error .malformed

/-- Reads the members of an object of which the bracket has been read.  `member` reads what
follows the name of a member. -/
def readMembers {σ : Type} (member : String → σ → Reader σ) (state : σ) : Reader σ := fun s =>
  match skipBlank s with
  | '\x7d' :: rest => .ok (state, rest)
  | rest => readMembersIn member (rest.length + 1) state rest

/-- Reads an object as a list of names with values, in their order. -/
def readMap {α : Type} (limit : Nat) (item : Reader α) : Reader (List (String × α)) := fun s =>
  match skipBlank s with
  | '\x7b' :: rest =>
    if limit = 0 then .error .malformed
    else
      let member (name : String) (pairs : List (String × α)) : Reader (List (String × α)) :=
        fun s =>
          match (readColon s).bind item with
          | .ok (value, rest) => .ok (pairs ++ [(name, value)], rest)
          | .error problem => .error problem
      readMembers member [] rest
  | s => .error (mismatch s)

/-- A field of a record of type `ρ`. -/
structure RecordField (ρ : Type) where
  /-- The name. -/
  name : String
  /-- The field must be there. -/
  required : Bool
  /-- Reads the value of the field and puts it into the record. -/
  read : ρ → Reader ρ

/-- A field that must be there. -/
def RecordField.mandatory {ρ α : Type} (name : String) (reader : Reader α) (put : ρ → α → ρ) :
    RecordField ρ :=
  ⟨name, true, fun record => reader.refine fun value => .ok (put record value)⟩

/-- A field that may be missing. -/
def RecordField.optional {ρ α : Type} (name : String) (reader : Reader α) (put : ρ → α → ρ) :
    RecordField ρ :=
  ⟨name, false, fun record => reader.refine fun value => .ok (put record value)⟩

/-- Reads what follows the name of a member of a record: its value, if it is a field that has not
been seen.  The state holds the names of the fields seen and the record so far. -/
def readMember {ρ : Type} (fields : List (RecordField ρ)) (name : String)
    (state : List String × ρ) : Reader (List String × ρ) := fun s =>
  match fields.find? (·.name = name) with
  | none =>
    match (readColon s).bind skipValue with
    | .ok rest => .ok (state, rest)
    | .error problem => .error problem
  | some field =>
    if name ∈ state.1 then .error (.duplicateField name)
    else
      match (readColon s).bind (field.read state.2) with
      | .ok (record, rest) => .ok ((name :: state.1, record), rest)
      | .error problem => .error problem

/-- Reads the fields of a record one after the other out of an array, from the second item on. -/
def readFieldsFrom {ρ : Type} : List (RecordField ρ) → ρ → Reader ρ
  | [], record, s =>
    match skipBlank s with
    | [] => .error .cutShort
    | ']' :: rest => .ok (record, rest)
    | _ => .error .malformed
  | field :: fields, record, s =>
    match skipBlank s with
    | [] => .error .cutShort
    | ']' :: rest =>
      if (field :: fields).any (·.required) then .error .wrongKind else .ok (record, rest)
    | ',' :: rest =>
      match field.read record rest with
      | .ok (record, rest) => readFieldsFrom fields record rest
      | .error problem => .error problem
    | _ => .error .malformed

/-- Reads the fields of a record out of an array of which the bracket has been read. -/
def readFields {ρ : Type} : List (RecordField ρ) → ρ → Reader ρ
  | [], record, s => readFieldsFrom [] record s
  | field :: fields, record, s =>
    match skipBlank s with
    | [] => .error .cutShort
    | ']' :: rest =>
      if (field :: fields).any (·.required) then .error .wrongKind else .ok (record, rest)
    | rest =>
      match field.read record rest with
      | .ok (record, rest) => readFieldsFrom fields record rest
      | .error problem => .error problem

/-- Reads a record; `blank` is one in which all fields are missing. -/
def readRecord {ρ : Type} (limit : Nat) (fields : List (RecordField ρ)) (blank : ρ) :
    Reader ρ := fun s =>
  match skipBlank s with
  | '\x7b' :: rest =>
    if limit = 0 then .error .malformed
    else
      match readMembers (readMember fields) ([], blank) rest with
      | .error problem => .error problem
      | .ok ((seen, record), rest) =>
        match fields.find? fun field => field.required && field.name ∉ seen with
        | some field => .error (.missingField field.name)
        | none => .ok (record, rest)
  | '[' :: rest => if limit = 0 then .error .malformed else readFields fields blank rest
  | s => .error (mismatch s)

/-- Reads a whole text, of which only blanks may remain. -/
def readText {α : Type} (reader : Reader α) (text : String) : Except Problem α :=
  match reader text.toList with
  | .error problem => .error problem
  | .ok (value, rest) =>
    match skipBlank rest with
    | [] => .ok value
    | _ => .error .malformed

end MaterialBinding.Json
