import MaterialBinding.Text.Printable

/-!
# Quoted text in messages

A message shows a piece of foreign text between double quotes, so that its ends and its invisible
characters can be seen.  The quote and the backslash take a backslash, the four common controls
have letters, and every other character that cannot be shown alone is written as its code point,
`\u{301}` for instance, in lower-case hexadecimal.  A single quote stays as it is.
-/

namespace MaterialBinding.Text

/-- The digits of a number in base sixteen, lower case and without leading zeros. -/
def hexDigits (n : Nat) : List Char := Nat.toDigits 16 n

/-- How a character is shown between double quotes. -/
def quotedChar (c : Char) : List Char :=
  match c with
  | '\x00' => ['\\', '0']
  | '\t' => ['\\', 't']
  | '\r' => ['\\', 'r']
  | '\n' => ['\\', 'n']
  | '\\' => ['\\', '\\']
  | '"' => ['\\', '"']
  | c =>
    if isJoiningMark c || !isPrintable c then
      ['\\', 'u', '\x7b'] ++ hexDigits c.toNat ++ ['\x7d']
    else [c]

/-- The text between double quotes, with the characters that need it escaped. -/
def quoted (text : String) : String :=
  String.ofList ('"' :: text.toList.flatMap quotedChar ++ ['"'])

end MaterialBinding.Text
