import MaterialBinding.Json.Text

/-!
# Writing JSON

A `Printer` writes one value in a given layout: either without any blanks, or over several lines,
with two more blanks at each level of nesting and one after a colon.  Empty lists and empty
objects stay on one line in both.
-/

namespace MaterialBinding.Json

/-- How a text is laid out. -/
inductive Layout where
  /-- On one line without blanks. -/
  | compact
  /-- Over several lines, inside so many brackets. -/
  | indented (level : Nat)
deriving DecidableEq

namespace Layout

/-- The layout inside one more bracket. -/
def deeper : Layout → Layout
  | compact => compact
  | indented level => indented (level + 1)

/-- The end of a line, with the blanks that begin the next. -/
def newline : Layout → List Char
  | compact => []
  | indented level => '\n' :: List.replicate (2 * level) ' '

/-- What stands between the name and the value of a member. -/
def colon : Layout → List Char
  | compact => [':']
  | indented _ => [':', ' ']

end Layout

/-- Writes one value in a given layout. -/
abbrev Printer := Layout → List Char

namespace Printer

/-- Writes a text. -/
def string (text : String) : Printer := fun _ => encode text.toList

/-- Writes a truth value. -/
def bool (value : Bool) : Printer := fun _ =>
  if value then ['t', 'r', 'u', 'e'] else ['f', 'a', 'l', 's', 'e']

/-- Writes items on lines of their own between two brackets. -/
def between (first last : Char) (items : List Printer) : Printer := fun layout =>
  if items.isEmpty then [first, last]
  else
    let lines := items.map fun item => layout.deeper.newline ++ item layout.deeper
    first :: [','].intercalate lines ++ layout.newline ++ [last]

/-- Writes a list. -/
def list (items : List Printer) : Printer := between '[' ']' items

/-- Writes a member of an object. -/
def member (name : String) (value : Printer) : Printer := fun layout =>
  encode name.toList ++ layout.colon ++ value layout

/-- Writes an object. -/
def object (members : List (String × Printer)) : Printer :=
  between '\x7b' '\x7d' (members.map fun pair => member pair.1 pair.2)

/-- The text of a value on one line. -/
def line (printer : Printer) : String := String.ofList (printer .compact)

/-- The text of a value over several lines. -/
def page (printer : Printer) : String := String.ofList (printer (.indented 0))

end Printer

end MaterialBinding.Json
