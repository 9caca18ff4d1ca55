import MaterialBinding.Text.Quoted

/-!
# Metadata

`Metadata` is a list of keys with values, in the order in which the keys were first set.  Setting
a key that is present changes its value in place; removing a key and setting it again moves it to
the end.
-/

namespace MaterialBinding

/-- Keys with their values, in the order in which the keys were first set. -/
structure Metadata where
  entries : List (String × String) := []
deriving DecidableEq

namespace Metadata

instance : Inhabited Metadata := ⟨{}⟩

/-- Changes the first entry with the key, or appends one. -/
def setEntry (key value : String) : List (String × String) → List (String × String)
  | [] => [(key, value)]
  | (k, v) :: rest => if k = key then (k, value) :: rest else (k, v) :: setEntry key value rest

/-- Takes out the first entry with the key. -/
def eraseEntry (key : String) : List (String × String) → List (String × String)
  | [] => []
  | (k, v) :: rest => if k = key then rest else (k, v) :: eraseEntry key rest

/-- Gives the key that value. -/
def set (data : Metadata) (key value : String) : Metadata := ⟨setEntry key value data.entries⟩

/-- The value of the key. -/
def get? (data : Metadata) (key : String) : Option String := data.entries.lookup key

/-- Drops the key. -/
def erase (data : Metadata) (key : String) : Metadata := ⟨eraseEntry key data.entries⟩

/-- The number of keys. -/
def size (data : Metadata) : Nat := data.entries.length

/-- There are no keys. -/
def isEmpty (data : Metadata) : Bool := data.entries.isEmpty

/-- Sets the pairs one after the other, starting from `data`. -/
def setAll (data : Metadata) (pairs : List (String × String)) : Metadata :=
  pairs.foldl (fun data pair => data.set pair.1 pair.2) data

/-- Sets the pairs one after the other; the last value of a repeated key stays, in the place of
the first. -/
def ofList (pairs : List (String × String)) : Metadata := setAll {} pairs

/-- The key that holds the strength of a binding. -/
def strengthKey : String := "bindMaterialAs"

/-- The entries between braces, for debugging output. -/
def shown (data : Metadata) : String :=
  "\x7b" ++
    String.intercalate ", "
      (data.entries.map fun entry => Text.quoted entry.1 ++ ": " ++ Text.quoted entry.2) ++ "\x7d"

end Metadata

end MaterialBinding
