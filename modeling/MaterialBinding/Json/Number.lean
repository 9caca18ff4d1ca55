import MaterialBinding.Json.Problem

/-!
# Numbers of JSON

No value that is read here is a number, so a number is only ever checked and then refused, or
passed over.  Where a value is wanted, the number must be spelt well (`checkNumber`) and must lie
in the range of binary floating point with 53 digits; where a value is passed over, the spelling
is enough (`skipNumber`).

The range check works on what a reader with a 64-bit accumulator sees: the leading digits of the
number as far as they fit (`Decimal.significand`), and a power of ten.
-/

namespace MaterialBinding.Json

/-- The largest value of the accumulator for the leading digits. -/
def maxSignificand : Nat := 0xFFFFFFFFFFFFFFFF

/-- The largest value of the accumulator for the exponent. -/
def maxExponent : Nat := 0x7FFFFFFF

/-- A decimal number as far as it has been read: `significand * 10 ^ exponent`. -/
structure Decimal where
  /-- The leading digits. -/
  significand : Nat
  /-- The power of ten. -/
  exponent : Int
deriving DecidableEq

/-- The value of a decimal digit. -/
def digitValue (c : Char) : Nat := c.toNat - '0'.toNat

/-- A digit still fits behind the leading digits. -/
def Decimal.fits (d : Decimal) (c : Char) : Bool :=
  10 * d.significand + digitValue c ≤ maxSignificand

/-- Reads the digits before the point; those that no longer fit only raise the exponent. -/
def Decimal.pushWhole (d : Decimal) : List Char → Decimal
  | [] => d
  | c :: digits =>
    if d.fits c then
      Decimal.pushWhole ⟨10 * d.significand + digitValue c, d.exponent⟩ digits
    else ⟨d.significand, d.exponent + (digits.length + 1)⟩

/-- Reads the digits after the point; from the first that does not fit they are dropped. -/
def Decimal.pushFraction (d : Decimal) : List Char → Decimal
  | [] => d
  | c :: digits =>
    if d.fits c then
      Decimal.pushFraction ⟨10 * d.significand + digitValue c, d.exponent - 1⟩ digits
    else d

/-- Rounds to the nearest number with 53 binary digits, a tie to the even one. -/
def roundTo53 (n : Nat) : Nat :=
  if n < 0x20000000000000 then n
  else
    let unit := Nat.pow 2 (n.log2 - 52)
    let whole := n / unit
    let rest := n % unit
    if 2 * rest < unit || (2 * rest == unit && whole % 2 == 0) then whole * unit
    else (whole + 1) * unit

/-- The least product that rounds to infinity. -/
def overflowBound : Nat := Nat.pow 2 1024 - Nat.pow 2 970

/-- The number is too large to be a floating-point number. -/
def Decimal.overflows (d : Decimal) : Bool :=
  d.significand ≠ 0 && 0 ≤ d.exponent &&
    (308 < d.exponent ||
      overflowBound ≤ roundTo53 d.significand * roundTo53 (Nat.pow 10 d.exponent.toNat))

/-- What a reader that wants another value says of a number in range. -/
def Decimal.verdict (d : Decimal) : Problem := if d.overflows then .malformed else .wrongKind

/-- Checks an exponent, of which the letter has been read. -/
def checkExponent (d : Decimal) (s : List Char) : Problem :=
  let negative := s.head? = some '-'
  let s := if s.head? = some '+' || s.head? = some '-' then s.drop 1 else s
  match s with
  | [] => .cutShort
  | c :: _ =>
    if !c.isDigit then .malformed
    else
      let exponent : Nat := (s.takeWhile Char.isDigit).foldl (fun n c => 10 * n + digitValue c) 0
      if maxExponent < exponent then
        if negative || d.significand = 0 then .wrongKind else .malformed
      else
        let shift : Int := if negative then -exponent else exponent
        Decimal.verdict ⟨d.significand, d.exponent + shift⟩

/-- Checks what follows the digits of a number. -/
def checkTail (d : Decimal) : List Char → Problem
  | 'e' :: s => checkExponent d s
  | 'E' :: s => checkExponent d s
  | _ => d.verdict

/-- Checks a fraction and what follows it. -/
def checkFraction (d : Decimal) : List Char → Problem
  | '.' :: s =>
    match s.takeWhile Char.isDigit, s.dropWhile Char.isDigit with
    | [], [] => .cutShort
    | [], _ => .malformed
    | digits, rest => checkTail (d.pushFraction digits) rest
  | s => checkTail d s

/-- Checks a number without its sign. -/
def checkUnsigned : List Char → Problem
  | [] => .cutShort
  | '0' :: s =>
    match s with
    | c :: _ => if c.isDigit then .malformed else checkFraction ⟨0, 0⟩ s
    | [] => .wrongKind
  | c :: s =>
    if c.isDigit then
      checkFraction (Decimal.pushWhole ⟨digitValue c, 0⟩ (s.takeWhile Char.isDigit))
        (s.dropWhile Char.isDigit)
    else .malformed

/-- Why a number is no value of another kind: it is spelt badly, too large, or just a number. -/
def checkNumber : List Char → Problem
  | '-' :: s => checkUnsigned s
  | s => checkUnsigned s

/-- Passes over an exponent, of which the letter has been read. -/
def skipExponent (s : List Char) : Except Problem (List Char) :=
  let s := if s.head? = some '+' || s.head? = some '-' then s.drop 1 else s
  match s with
  | c :: rest => if c.isDigit then .ok (rest.dropWhile Char.isDigit) else .error .malformed
  | [] => .error .malformed

/-- Passes over what follows the digits of a number. -/
def skipTail : List Char → Except Problem (List Char)
  | 'e' :: s => skipExponent s
  | 'E' :: s => skipExponent s
  | s => .ok s

/-- Passes over a fraction and what follows it. -/
def skipFraction : List Char → Except Problem (List Char)
  | '.' :: c :: s =>
    if c.isDigit then skipTail (s.dropWhile Char.isDigit) else .error .malformed
  | '.' :: [] => .error .malformed
  | s => skipTail s

/-- Passes over a number without its sign. -/
def skipUnsigned : List Char → Except Problem (List Char)
  | '0' :: c :: s => if c.isDigit then .error .malformed else skipFraction (c :: s)
  | c :: s => if c.isDigit then skipFraction (s.dropWhile Char.isDigit) else .error .malformed
  | [] => .error .malformed

/-- Passes over a number; its size does not matter. -/
def skipNumber : List Char → Except Problem (List Char)
  | '-' :: s => skipUnsigned s
  | s => skipUnsigned s

end MaterialBinding.Json
