import Monomorph.Text.CharSet

/-!
# Blank Characters

The characters that separate tokens of a type argument, and of which a name
may not wholly consist: those with the Unicode property White_Space. The class
is wider than the white space of a data document, which is four characters of
ASCII.

## Main definitions

* `isBlank`: Whether a character has the property White_Space.
* `isBlankText`: Whether a text has no other character.
* `trim`: A text without the blanks at its two ends.
-/

namespace Monomorph

namespace Text

/-- The characters with the Unicode property White_Space. -/
def blanks : CharSet where
  ranges :=
    [(0x9, 0xD), (0x20, 0x20), (0x85, 0x85), (0xA0, 0xA0), (0x1680, 0x1680),
     (0x2000, 0x200A), (0x2028, 0x2029), (0x202F, 0x202F), (0x205F, 0x205F),
     (0x3000, 0x3000)]

/-- Whether the character has the Unicode property White_Space. -/
def isBlank (c : Char) : Bool :=
  blanks.contains c

/-- Whether every character of the text is blank, as it is for the empty
    text. -/
def isBlankText (text : String) : Bool :=
  text.toList.all isBlank

/-- The characters without the blanks at their start. -/
def skipBlanks (chars : List Char) : List Char :=
  chars.dropWhile isBlank

/-- The text without the blanks at its start and at its end. -/
def trim (text : String) : String :=
  String.ofList (skipBlanks (skipBlanks text.toList).reverse).reverse

end Text

end Monomorph
