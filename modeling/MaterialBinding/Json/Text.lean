import MaterialBinding.Json.Problem
import MaterialBinding.Text.Quoted

/-!
# String literals of JSON

A string literal is read one character at a time by a small machine (`Cursor`, `step`), which
remembers whether it stands in plain text, after a backslash or inside the four hexadecimal digits
of a `\u` escape.  Characters beyond the basic plane are written as two such escapes, a leading
and a trailing surrogate.  Text that is used must pair its surrogates; text that is only passed
over need not (`Care`).

`encode` writes a literal.  It escapes the quote, the backslash and the controls, and nothing
else.
-/

namespace MaterialBinding.Json

open Text

/-- Whether the text of a literal is wanted. -/
inductive Care where
  /-- The text is used, so its surrogates must come in pairs. -/
  | used
  /-- The text is passed over. -/
  | ignored
deriving DecidableEq

/-- Where a reader stands inside a string literal. -/
inductive Cursor where
  /-- Among characters that stand for themselves. -/
  | plain
  /-- After a backslash. -/
  | escape
  /-- Before the last `left + 1` digits of a `\u` escape; `value` is that of the digits before,
  and `lead` the leading surrogate that this escape completes. -/
  | digits (left value : Nat) (lead : Option Nat)
  /-- After a leading surrogate. -/
  | afterLead (lead : Nat)
  /-- After a leading surrogate and a backslash. -/
  | afterLeadEscape (lead : Nat)
deriving DecidableEq

/-- What a character does to the reader. -/
inductive Step where
  /-- It ends the literal. -/
  | close
  /-- It is a part of an escape that goes on. -/
  | move (cursor : Cursor)
  /-- It completes a character of the text. -/
  | emit (c : Char)
  /-- It must not stand here. -/
  | fail (problem : Problem)
deriving DecidableEq

/-- The character that a letter after a backslash stands for. -/
def unescape? : Char → Option Char
  | '"' => some '"'
  | '\\' => some '\\'
  | '/' => some '/'
  | 'b' => some '\x08'
  | 'f' => some '\x0c'
  | 'n' => some '\n'
  | 'r' => some '\r'
  | 't' => some '\t'
  | _ => none

/-- The value of a hexadecimal digit. -/
def hexValue? (c : Char) : Option Nat :=
  if '0' ≤ c ∧ c ≤ '9' then some (c.toNat - '0'.toNat)
  else if 'a' ≤ c ∧ c ≤ 'f' then some (c.toNat - 'a'.toNat + 10)
  else if 'A' ≤ c ∧ c ≤ 'F' then some (c.toNat - 'A'.toNat + 10)
  else none

/-- The first half of a pair of surrogates. -/
def isLeadingSurrogate (unit : Nat) : Bool := 0xD800 ≤ unit && unit ≤ 0xDBFF

/-- The second half of a pair of surrogates. -/
def isTrailingSurrogate (unit : Nat) : Bool := 0xDC00 ≤ unit && unit ≤ 0xDFFF

/-- The number of bytes that the characters take. -/
def byteCount : List Char → Nat
  | [] => 0
  | c :: s => c.utf8Size + byteCount s

/-- Begins a `\u` escape, for which four bytes must be left. -/
def beginDigits (rest : List Char) (lead : Option Nat) : Step :=
  if byteCount (rest.take 4) < 4 then .fail .cutShort else .move (.digits 3 0 lead)

/-- Ends a `\u` escape with the value of its digits. -/
def endDigits (care : Care) (value : Nat) : Option Nat → Step
  | none =>
    if care = .ignored then .emit (Char.ofNat value)
    else if isTrailingSurrogate value then .fail .malformed
    else if isLeadingSurrogate value then .move (.afterLead value)
    else .emit (Char.ofNat value)
  | some lead =>
    if isTrailingSurrogate value then
      .emit (Char.ofNat (0x10000 + (lead - 0xD800) * 0x400 + (value - 0xDC00)))
    else .fail .malformed

/-- What the next character does, before `rest`. -/
def step (care : Care) (c : Char) (rest : List Char) : Cursor → Step
  | .plain =>
    if c = '"' then .close
    else if c = '\\' then .move .escape
    else if c.toNat < 0x20 then .fail .malformed
    else .emit c
  | .escape =>
    if c = 'u' then beginDigits rest none
    else
      match unescape? c with
      | some d => .emit d
      | none => .fail .malformed
  | .digits left value lead =>
    match hexValue? c with
    | none => .fail .malformed
    | some digit =>
      match left with
      | 0 => endDigits care (16 * value + digit) lead
      | left + 1 => .move (.digits left (16 * value + digit) lead)
  | .afterLead lead => if c = '\\' then .move (.afterLeadEscape lead) else .fail .malformed
  | .afterLeadEscape lead => if c = 'u' then beginDigits rest (some lead) else .fail .malformed

/-- Reads a literal to its closing quote, and returns the text and what follows. -/
def decodeFrom (care : Care) : Cursor → List Char → Except Problem (List Char × List Char)
  | _, [] => .error .cutShort
  | cursor, c :: rest =>
    match step care c rest cursor with
    | .close => .ok ([], rest)
    | .move next => decodeFrom care next rest
    | .emit d =>
      match decodeFrom care .plain rest with
      | .ok (text, after) => .ok (d :: text, after)
      | .error problem => .error problem
    | .fail problem => .error problem

/-- Reads a literal of which the opening quote has been read. -/
def decode (care : Care) (s : List Char) : Except Problem (List Char × List Char) :=
  decodeFrom care .plain s

/-- How a character is written inside a literal. -/
def encodeChar (c : Char) : List Char :=
  match c with
  | '"' => ['\\', '"']
  | '\\' => ['\\', '\\']
  | '\x08' => ['\\', 'b']
  | '\x0c' => ['\\', 'f']
  | '\n' => ['\\', 'n']
  | '\r' => ['\\', 'r']
  | '\t' => ['\\', 't']
  | c =>
    if c.toNat < 0x20 then
      ['\\', 'u', '0', '0', Nat.digitChar (c.toNat / 16), Nat.digitChar (c.toNat % 16)]
    else [c]

/-- Writes a literal with its quotes. -/
def encode (s : List Char) : List Char := '"' :: s.flatMap encodeChar ++ ['"']

end MaterialBinding.Json
