import Monomorph.Json.Text

/-!
# Quoted Text Is Read Back

A string that is written between quotation marks is read back as it was, whatever
characters it holds and whatever stands behind it.

Writing treats a character in one of three ways (`escape_cases`): a backslash and a
letter, a backslash and a number, or the character itself. Reading takes each of
them back in one round of its loop (`readChars_escape`), so a text of any length is
read in as many rounds as it has characters, and one more for the closing quotation
mark. The fuel of the loop is the length of what is left to read, which is more
than that because every character is written as at least one.

Nothing is asked of the text that follows. What is written never holds a bare
quotation mark, so the first one that is met is the closing one.

## Theorems

* `hexValue?_hexDigit`: A digit has the value it was written for.
* `toNat_lt_of_control`: Two digits are enough for a control character.
* `escape_cases`: The three ways in which a character is written.
* `escape_ne_nil`, `length_le_flatMap_escape`: What is written is no shorter.
* `readHex_control`, `readCodePoint_control`: The number of a control character is read
  back.
* `readChars_escape`: One round of reading undoes the writing of one character.
* `readChars_flatMap_escape`: The loop undoes the writing of a text.
* `writeText_append`: The quotation marks of what is written.
* `readText_written`: Reading a string undoes its writing.
-/

namespace Monomorph

namespace Json

theorem hexValue?_hexDigit : ∀ digit < 16, hexValue? (hexDigit digit) = some digit := by
  decide

theorem toNat_lt_of_control (c : Char) (h : c < ' ') : c.toNat < 32 :=
  UInt32.lt_iff_toNat_lt.mp h

/-- A character is written as a backslash and a letter, as a backslash and its number
    if it is another control character, or as it is. -/
theorem escape_cases (c : Char) :
    (∃ letter, letter ≠ 'u' ∧ shortEscape? letter = some c ∧ escape c = ['\\', letter]) ∨
    (c < ' ' ∧ escape c =
      ['\\', 'u', '0', '0', hexDigit (c.toNat / 16), hexDigit (c.toNat % 16)]) ∨
    (c ≠ '"' ∧ c ≠ '\\' ∧ ¬ c < ' ' ∧ escape c = [c]) := by
  unfold escape
  -- The seven characters with a letter of their own come first, control or not.
  by_cases hquote : c = '"'
  · exact Or.inl ⟨'"', by decide, congrArg some hquote.symm, if_pos hquote⟩
  rw [if_neg hquote]
  by_cases hslash : c = '\\'
  · exact Or.inl ⟨'\\', by decide, congrArg some hslash.symm, if_pos hslash⟩
  rw [if_neg hslash]
  by_cases hbackspace : c = '\x08'
  · exact Or.inl ⟨'b', by decide, congrArg some hbackspace.symm, if_pos hbackspace⟩
  rw [if_neg hbackspace]
  by_cases hfeed : c = '\x0c'
  · exact Or.inl ⟨'f', by decide, congrArg some hfeed.symm, if_pos hfeed⟩
  rw [if_neg hfeed]
  by_cases hline : c = '\n'
  · exact Or.inl ⟨'n', by decide, congrArg some hline.symm, if_pos hline⟩
  rw [if_neg hline]
  by_cases hreturn : c = '\r'
  · exact Or.inl ⟨'r', by decide, congrArg some hreturn.symm, if_pos hreturn⟩
  rw [if_neg hreturn]
  by_cases htab : c = '\t'
  · exact Or.inl ⟨'t', by decide, congrArg some htab.symm, if_pos htab⟩
  rw [if_neg htab]
  by_cases hcontrol : c < ' '
  · exact Or.inr (Or.inl ⟨hcontrol, if_pos hcontrol⟩)
  · exact Or.inr (Or.inr ⟨hquote, hslash, hcontrol, if_neg hcontrol⟩)

theorem escape_ne_nil (c : Char) : escape c ≠ [] := by
  rcases escape_cases c with ⟨letter, _, _, h⟩ | ⟨_, h⟩ | ⟨_, _, _, h⟩ <;> rw [h] <;>
    exact List.cons_ne_nil _ _

/-- A text is at least as long when it is written. -/
theorem length_le_flatMap_escape (chars : List Char) :
    chars.length ≤ (chars.flatMap escape).length := by
  induction chars with
  | nil => exact Nat.le_refl _
  | cons c chars ih =>
      have hpos := List.length_pos_iff.mpr (escape_ne_nil c)
      rw [List.flatMap_cons, List.length_append, List.length_cons]
      omega

/-- The number of a control character is read back from its last two digits. -/
theorem readHex_control (n : Nat) (h : n < 32) (rest : List Char) :
    readHex ('0' :: '0' :: hexDigit (n / 16) :: hexDigit (n % 16) :: rest) = .ok (n, rest) := by
  have hzero : hexValue? '0' = some 0 := by decide
  have hhigh : hexValue? (hexDigit (n / 16)) = some (n / 16) :=
    hexValue?_hexDigit _ (by omega)
  have hlow : hexValue? (hexDigit (n % 16)) = some (n % 16) :=
    hexValue?_hexDigit _ (by omega)
  -- The first two digits are zeros, and the other two are all there is of the number.
  have hvalue : ((0 * 16 + 0) * 16 + n / 16) * 16 + n % 16 = n := by omega
  simp only [readHex, hzero, hhigh, hlow, hvalue]

theorem readCodePoint_control (c : Char) (h : c < ' ') (rest : List Char) :
    readCodePoint ('0' :: '0' :: hexDigit (c.toNat / 16) :: hexDigit (c.toNat % 16) :: rest) =
      .ok (c, rest) := by
  -- Surrogates are far above, so the number stands for the character alone.
  have hlt := toNat_lt_of_control c h
  have hlow : isLowSurrogate c.toNat = false := by
    simp only [isLowSurrogate, Bool.and_eq_false_iff, decide_eq_false_iff_not]
    omega
  have hhigh : isHighSurrogate c.toNat = false := by
    simp only [isHighSurrogate, Bool.and_eq_false_iff, decide_eq_false_iff_not]
    omega
  rw [readCodePoint, readHex_control c.toNat hlt]
  change (if isLowSurrogate c.toNat = true then _ else _) = _
  rw [hlow, hhigh, Char.ofNat_toNat]
  rfl

/-- One round of reading takes back what was written for one character. -/
theorem readChars_escape (fuel : Nat) (seen : List Char) (c : Char) (rest : List Char) :
    readChars readCodePoint (fuel + 1) seen (escape c ++ rest) =
      readChars readCodePoint fuel (c :: seen) rest := by
  rcases escape_cases c with ⟨letter, hletter, hshort, hwritten⟩ | ⟨hcontrol, hwritten⟩ |
    ⟨hquote, hslash, hcontrol, hwritten⟩
  · -- A letter other than the one that announces a number is looked up.
    have hescape : readEscape readCodePoint (letter :: rest) = .ok (c, rest) := by
      rw [readEscape]
      · rw [hshort]
      · exact hletter
    rw [hwritten]
    change (readEscape readCodePoint (letter :: rest) >>= _) = _
    rw [hescape]
    rfl
  · rw [hwritten]
    change (readCodePoint ('0' :: '0' :: hexDigit (c.toNat / 16) :: hexDigit (c.toNat % 16) ::
      rest) >>= _) = _
    rw [readCodePoint_control c hcontrol]
    rfl
  · rw [hwritten, List.singleton_append, readChars, if_neg hquote, if_neg hslash, if_neg hcontrol]

/-- Reading up to a quotation mark takes back what was written for a text, if there
    is fuel for one more round than it has characters. -/
theorem readChars_flatMap_escape (chars : List Char) (fuel : Nat) (seen rest : List Char)
    (hfuel : chars.length < fuel) :
    readChars readCodePoint fuel seen (chars.flatMap escape ++ '"' :: rest) =
      .ok (seen.reverse ++ chars, rest) := by
  -- On the text, with what has been read of it so far in reverse.
  induction chars generalizing fuel seen with
  | nil =>
      -- The last round meets the closing quotation mark.
      rcases Nat.exists_eq_succ_of_ne_zero (Nat.ne_of_gt hfuel) with ⟨more, rfl⟩
      rw [List.append_nil]
      rfl
  | cons c chars ih =>
      rcases Nat.exists_eq_succ_of_ne_zero (Nat.ne_of_gt (Nat.zero_lt_of_lt hfuel)) with
        ⟨more, rfl⟩
      rw [List.flatMap_cons, List.append_assoc, Nat.succ_eq_add_one, readChars_escape,
        ih more (c :: seen) (Nat.lt_of_succ_lt_succ hfuel), List.reverse_cons,
        List.append_assoc, List.singleton_append]

theorem writeText_append (text : String) (rest : List Char) :
    writeText text ++ rest = '"' :: (text.toList.flatMap escape ++ '"' :: rest) := by
  rw [writeText, List.append_assoc, List.cons_append, List.singleton_append]

/-- A string is read back after its opening quotation mark. -/
theorem readText_written (text : String) (rest : List Char) :
    readText (text.toList.flatMap escape ++ '"' :: rest) = .ok (text, rest) := by
  have hfuel : text.toList.length < (text.toList.flatMap escape ++ '"' :: rest).length := by
    have hle := length_le_flatMap_escape text.toList
    rw [List.length_append, List.length_cons]
    omega
  rw [readText, readChars_flatMap_escape text.toList _ [] rest hfuel]
  change Except.ok (String.ofList text.toList, rest) = _
  rw [String.ofList_toList]

example : (readText (writeText "\"\x07\\/é").tail).toOption = some ("\"\x07\\/é", []) := by
  decide +kernel

end Json

end Monomorph
