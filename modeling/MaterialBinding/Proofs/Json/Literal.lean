import MaterialBinding.Json.Text

/-!
# Literals are read back

Each character is written as something that completes exactly that character when it is read:
itself, a letter after a backslash, or a `\u` escape.  So a literal is read back to its closing
quote (`decode_encode`), whatever its text is and whatever follows.
-/

namespace MaterialBinding.Json

/-- What reading on gives, with one more character in front of the text. -/
def withChar (c : Char) :
    Except Problem (List Char × List Char) → Except Problem (List Char × List Char)
  | .ok (text, after) => .ok (c :: text, after)
  | .error problem => .error problem

section

variable {care : Care} {cursor : Cursor} {c d : Char} {s : List Char}

/-- Reading goes on where the first character leads. -/
theorem decodeFrom_move {next : Cursor} (hstep : step care c s cursor = .move next) :
    decodeFrom care cursor (c :: s) = decodeFrom care next s := by
  rw [decodeFrom, hstep]

/-- A character that is completed comes in front of what is read after it. -/
theorem decodeFrom_emit (hstep : step care c s cursor = .emit d) :
    decodeFrom care cursor (c :: s) = withChar d (decodeFrom care .plain s) := by
  rw [decodeFrom, hstep]
  rfl

end

/-- A letter after a backslash stands for one character. -/
theorem decodeFrom_letter {letter c : Char} (hletter : letter ≠ 'u')
    (hmeaning : unescape? letter = some c) (s : List Char) :
    decodeFrom .used .plain ('\\' :: letter :: s) = withChar c (decodeFrom .used .plain s) := by
  have hfirst : step .used '\\' (letter :: s) .plain = .move .escape := rfl
  have hsecond : step .used letter s .escape = .emit c := by
    rw [step, if_neg hletter, hmeaning]
  rw [decodeFrom_move hfirst, decodeFrom_emit hsecond]

/-- Each of the sixteen digits is read with its value. -/
theorem hexValue?_digitChar : ∀ d < 16, hexValue? (Nat.digitChar d) = some d := by decide

/-- Four characters take at least four bytes. -/
theorem four_le_byteCount (c₁ c₂ c₃ c₄ : Char) (s : List Char) :
    ¬ byteCount ((c₁ :: c₂ :: c₃ :: c₄ :: s).take 4) < 4 := by
  have h₁ := c₁.utf8Size_pos
  have h₂ := c₂.utf8Size_pos
  have h₃ := c₃.utf8Size_pos
  have h₄ := c₄.utf8Size_pos
  simp only [List.take_succ_cons, List.take_zero, byteCount]
  omega

/-- A digit that is not the last of its escape adds to its value. -/
theorem step_digit {digit : Nat} (hdigit : digit < 16) (left value : Nat) (lead : Option Nat)
    (s : List Char) :
    step .used (Nat.digitChar digit) s (.digits (left + 1) value lead) =
      .move (.digits left (16 * value + digit) lead) := by
  rw [step, hexValue?_digitChar digit hdigit]

/-- A control is written as an escape with two digits that are not zero. -/
theorem decodeFrom_control {c : Char} (hcontrol : c.toNat < 0x20) (s : List Char) :
    decodeFrom .used .plain
        ('\\' :: 'u' :: '0' :: '0' :: Nat.digitChar (c.toNat / 16) ::
          Nat.digitChar (c.toNat % 16) :: s) =
      withChar c (decodeFrom .used .plain s) := by
  have hhigh : c.toNat / 16 < 16 := by omega
  have hlow : c.toNat % 16 < 16 := by omega
  have hvalue : 16 * (c.toNat / 16) + c.toNat % 16 = c.toNat := by omega
  have hbegin : ∀ rest, step .used 'u' ('0' :: '0' :: Nat.digitChar (c.toNat / 16) ::
      Nat.digitChar (c.toNat % 16) :: rest) .escape = .move (.digits 3 0 none) := by
    intro rest
    have hbytes := four_le_byteCount '0' '0' (Nat.digitChar (c.toNat / 16))
      (Nat.digitChar (c.toNat % 16)) rest
    rw [step, if_pos rfl, beginDigits, if_neg hbytes]
  have hzeroDigit : 0 < 16 := by omega
  have hzero : ∀ left rest, step .used '0' rest (.digits (left + 1) 0 none) =
      .move (.digits left 0 none) :=
    fun left rest => step_digit hzeroDigit left 0 none rest
  have hfirst : ∀ rest, step .used (Nat.digitChar (c.toNat / 16)) rest (.digits 1 0 none) =
      .move (.digits 0 (c.toNat / 16) none) := by
    intro rest
    rw [step_digit hhigh, Nat.mul_zero, Nat.zero_add]
  have hlast : step .used (Nat.digitChar (c.toNat % 16)) s (.digits 0 (c.toNat / 16) none) =
      .emit c := by
    have htrailing : isTrailingSurrogate c.toNat = false := by
      simp [isTrailingSurrogate]
      omega
    have hleading : isLeadingSurrogate c.toNat = false := by
      simp [isLeadingSurrogate]
      omega
    rw [step, hexValue?_digitChar _ hlow]
    simp [hvalue, endDigits, htrailing, hleading]
  have hopen : ∀ rest, step .used '\\' rest .plain = .move .escape := fun _ => rfl
  rw [decodeFrom_move (hopen _), decodeFrom_move (hbegin s), decodeFrom_move (hzero 2 _),
    decodeFrom_move (hzero 1 _), decodeFrom_move (hfirst _), decodeFrom_emit hlast]

/-- **One character is read back.** -/
theorem decodeFrom_encodeChar (c : Char) (s : List Char) :
    decodeFrom .used .plain (encodeChar c ++ s) = withChar c (decodeFrom .used .plain s) := by
  unfold encodeChar
  split
  iterate 7 exact decodeFrom_letter (by decide) rfl s
  next hquote hbackslash _ _ _ _ _ =>
    by_cases hcontrol : c.toNat < 0x20
    · rw [if_pos hcontrol]
      exact decodeFrom_control hcontrol s
    · have hstep : step .used c s .plain = .emit c := by
        rw [step, if_neg hquote, if_neg hbackslash, if_neg hcontrol]
      rw [if_neg hcontrol]
      exact decodeFrom_emit hstep

/-- **A literal is read back.** -/
theorem decode_encode (text rest : List Char) :
    decode .used (text.flatMap encodeChar ++ '"' :: rest) = .ok (text, rest) := by
  rw [decode]
  induction text with
  | nil => rfl
  | cons c text ih =>
      rw [List.flatMap_cons, List.append_assoc, decodeFrom_encodeChar, ih]
      rfl

end MaterialBinding.Json
