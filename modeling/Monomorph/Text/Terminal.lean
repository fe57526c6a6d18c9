import Monomorph.Text.Quoted

/-!
# Text on a Terminal

A terminal obeys some characters instead of showing them, so a text that comes
from elsewhere could move the cursor, ring the bell or recolour what follows.
Before such a text is shown, those characters are spelled out. Controls that
only arrange text, such as the tab, are left as they are.

## Main definitions

* `tame`: How one character is written for a terminal.
* `tamed`: A text that a terminal shows and does not obey.
-/

namespace Monomorph

namespace Text

/-- The single-byte characters that a terminal obeys: the bell, the backspace,
    the form feed, the escape and the delete. -/
def terminalControls : List Char :=
  ['\x07', '\x08', '\x0c', '\x1b', '\x7f']

/-- How a character is written for a terminal. A single-byte control is spelled
    by two hexadecimal digits, and one of the controls from 80 to 9F, which also
    start commands, by its code point in braces. -/
def tame (c : Char) : List Char :=
  if terminalControls.contains c then
    ['\\', 'x'] ++ (if c.toNat < 16 then ['0'] else []) ++ hexDigits c.toNat
  else if 0x80 ≤ c.toNat ∧ c.toNat ≤ 0x9F then bracedCode c
  else [c]

/-- The text with everything that a terminal obeys spelled out. -/
def tamed (text : String) : String :=
  String.ofList (text.toList.flatMap tame)

end Text

end Monomorph
