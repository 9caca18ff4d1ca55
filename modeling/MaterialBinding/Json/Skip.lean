import MaterialBinding.Json.Text
import MaterialBinding.Json.Number

/-!
# Passing over JSON

A value that nobody asked for is passed over.  It must be JSON, but it may be nested to any depth,
and neither its numbers nor the surrogates in its text are looked at.

The recursion is on a number that bounds the steps: each value takes at least one character, and
at most two steps are taken before a character is.
-/

namespace MaterialBinding.Json

/-- The characters between the tokens. -/
def isBlank (c : Char) : Bool := c = ' ' || c = '\t' || c = '\n' || c = '\r'

/-- What follows the blanks. -/
def skipBlank (s : List Char) : List Char := s.dropWhile isBlank

/-- Reads the rest of a word. -/
def readWord : List Char → List Char → Except Problem (List Char)
  | [], s => .ok s
  | _ :: _, [] => .error .cutShort
  | w :: word, c :: s => if c = w then readWord word s else .error .malformed

/-- Reads the colon between the name and the value of a member. -/
def readColon (s : List Char) : Except Problem (List Char) :=
  match skipBlank s with
  | [] => .error .cutShort
  | ':' :: rest => .ok rest
  | _ => .error .malformed

/-- Passes over a string literal of which the opening quote has been read. -/
def skipText (s : List Char) : Except Problem (List Char) :=
  match decode .ignored s with
  | .ok (_, rest) => .ok rest
  | .error problem => .error problem

mutual

/-- Passes over a value. -/
def skipValueIn : Nat → List Char → Except Problem (List Char)
  | 0, _ => .error .cutShort
  | steps + 1, s =>
    match skipBlank s with
    | [] => .error .cutShort
    | 'n' :: rest => readWord ['u', 'l', 'l'] rest
    | 't' :: rest => readWord ['r', 'u', 'e'] rest
    | 'f' :: rest => readWord ['a', 'l', 's', 'e'] rest
    | '"' :: rest => skipText rest
    | '[' :: rest =>
      match skipBlank rest with
      | ']' :: rest => .ok rest
      | rest => skipItemsIn steps rest
    | '\x7b' :: rest =>
      match skipBlank rest with
      | '\x7d' :: rest => .ok rest
      | rest => skipMembersIn steps rest
    | c :: rest =>
      if c = '-' || c.isDigit then skipNumber (c :: rest) else .error .malformed

/-- Passes over the values of an array and its end. -/
def skipItemsIn : Nat → List Char → Except Problem (List Char)
  | 0, _ => .error .cutShort
  | steps + 1, s =>
    match skipValueIn steps s with
    | .error problem => .error problem
    | .ok rest =>
      match skipBlank rest with
      | [] => .error .cutShort
      | ',' :: rest => skipItemsIn steps rest
      | ']' :: rest => .ok rest
      | _ => .error .malformed

/-- Passes over the members of an object and its end. -/
def skipMembersIn : Nat → List Char → Except Problem (List Char)
  | 0, _ => .error .cutShort
  | steps + 1, s =>
    match skipBlank s with
    | [] => .error .cutShort
    | '"' :: rest =>
      match (skipText rest).bind fun rest => (readColon rest).bind (skipValueIn steps) with
      | .error problem => .error problem
      | .ok rest =>
        match skipBlank rest with
        | [] => .error .cutShort
        | ',' :: rest => skipMembersIn steps rest
        | '\x7d' :: rest => .ok rest
        | _ => .error .malformed
    | _ => .error .malformed

end

/-- Passes over a value. -/
def skipValue (s : List Char) : Except Problem (List Char) := skipValueIn (2 * s.length + 2) s

end MaterialBinding.Json
