import Monomorph.Text.Unprintable

/-!
# Quoted Text

How a text is shown inside a message: between double quotes, with the quote,
the backslash and everything that does not show by itself spelled out. A reader
of the message can then tell an empty name from a blank one, and one kind of
blank from another.

## Main definitions

* `hexDigits`: A number in lower-case hexadecimal without leading zeros.
* `bracedCode`: A character by its code point.
* `spell`: How one character is written between the quotes.
* `quote`: The quoted form of a text.
-/

namespace Monomorph

namespace Text

/-- The number in lower-case hexadecimal, without leading zeros. -/
def hexDigits (n : Nat) : List Char :=
  Nat.toDigits 16 n

/-- The character by its code point in braces. -/
def bracedCode (c : Char) : List Char :=
  ['\\', 'u', '\x7b'] ++ hexDigits c.toNat ++ ['\x7d']

/-- How a character is written between the quotes: the usual two-character
    escapes first, then its code point in braces if it does not show by itself,
    and the character as it is otherwise. -/
def spell (c : Char) : List Char :=
  if c = '\x00' then ['\\', '0']
  else if c = '\t' then ['\\', 't']
  else if c = '\r' then ['\\', 'r']
  else if c = '\n' then ['\\', 'n']
  else if c = '\\' then ['\\', '\\']
  else if c = '"' then ['\\', '"']
  else if isUnprintable c then bracedCode c
  else [c]

/-- The text between double quotes, with each character spelled as
    `spell` says. -/
def quote (text : String) : String :=
  String.ofList ('"' :: text.toList.flatMap spell ++ ['"'])

end Text

end Monomorph
