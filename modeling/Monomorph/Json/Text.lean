import Monomorph.Json.Fault
import Monomorph.Text.Bytes

/-!
# Strings of a Document

Reading and writing the text between two quotation marks. Writing escapes the
quotation mark, the backslash and the control characters and leaves everything
else as it is. Reading knows every escape of the format; a character outside
the basic plane may be written as a pair of surrogates, and half a pair stands
for nothing, so a string that is kept may not hold one. A string that is only
skipped may.

## Main definitions

* `readText`: Reads a string after its opening quotation mark.
* `skipText`: Skips one.
* `writeText`: Writes one.
-/

namespace Monomorph

namespace Json

/-- The value of a hexadecimal digit in either case. -/
def hexValue? (c : Char) : Option Nat :=
  if '0' ≤ c ∧ c ≤ '9' then some (c.toNat - '0'.toNat)
  else if 'a' ≤ c ∧ c ≤ 'f' then some (c.toNat - 'a'.toNat + 10)
  else if 'A' ≤ c ∧ c ≤ 'F' then some (c.toNat - 'A'.toNat + 10)
  else none

/-- Reads four hexadecimal digits. With fewer than four bytes left the text
    ends too early, whatever they are. -/
def readHex : List Char → Except Fault (Nat × List Char)
  | a :: b :: c :: d :: rest =>
    match hexValue? a, hexValue? b, hexValue? c, hexValue? d with
    | some a, some b, some c, some d => .ok (((a * 16 + b) * 16 + c) * 16 + d, rest)
    | _, _, _, _ => .error .malformed
  | rest => if Text.utf8Length rest < 4 then .error .truncated else .error .malformed

/-- Whether the number is the first half of a pair of surrogates. -/
def isHighSurrogate (n : Nat) : Bool :=
  0xD800 ≤ n && n ≤ 0xDBFF

/-- Whether the number is the second half of a pair of surrogates. -/
def isLowSurrogate (n : Nat) : Bool :=
  0xDC00 ≤ n && n ≤ 0xDFFF

/-- The character that a pair of surrogates stands for. -/
def joinSurrogates (high low : Nat) : Char :=
  Char.ofNat ((high - 0xD800) * 0x400 + (low - 0xDC00) + 0x10000)

/-- Reads the second half of a pair of surrogates. -/
def readLowSurrogate (high : Nat) : List Char → Except Fault (Char × List Char)
  | [] => .error .truncated
  | ['\\'] => .error .truncated
  | '\\' :: 'u' :: rest => do
    let (low, rest) ← readHex rest
    if isLowSurrogate low then .ok (joinSurrogates high low, rest) else .error .malformed
  | _ => .error .malformed

/-- Reads a character given by its number, after the letter `u`. -/
def readCodePoint (text : List Char) : Except Fault (Char × List Char) := do
  let (code, rest) ← readHex text
  if isLowSurrogate code then .error .malformed
  else if isHighSurrogate code then readLowSurrogate code rest
  else .ok (Char.ofNat code, rest)

/-- The character that a single letter after a backslash stands for. -/
def shortEscape? : Char → Option Char
  | '"' => some '"'
  | '\\' => some '\\'
  | '/' => some '/'
  | 'b' => some '\x08'
  | 'f' => some '\x0c'
  | 'n' => some '\n'
  | 'r' => some '\r'
  | 't' => some '\t'
  | _ => none

/-- Reads an escape after its backslash, `codePoint` reading one that gives a
    number. -/
def readEscape (codePoint : List Char → Except Fault (Char × List Char)) :
    List Char → Except Fault (Char × List Char)
  | [] => .error .truncated
  | 'u' :: rest => codePoint rest
  | c :: rest =>
    match shortEscape? c with
    | some escaped => .ok (escaped, rest)
    | none => .error .malformed

/-- Reads characters up to the closing quotation mark, the last one first in
    `seen`. Each takes at least one character of the text, so the length of the
    text is fuel enough. -/
def readChars (codePoint : List Char → Except Fault (Char × List Char)) :
    Nat → List Char → List Char → Except Fault (List Char × List Char)
  | 0, _, _ => .error .truncated
  | _ + 1, _, [] => .error .truncated
  | fuel + 1, seen, c :: rest =>
    if c = '"' then .ok (seen.reverse, rest)
    else if c = '\\' then do
      let (escaped, rest) ← readEscape codePoint rest
      readChars codePoint fuel (escaped :: seen) rest
    else if c < ' ' then .error .malformed
    else readChars codePoint fuel (c :: seen) rest

/-- Reads a string that is kept, after its opening quotation mark. -/
def readText (text : List Char) : Except Fault (String × List Char) := do
  let (chars, rest) ← readChars readCodePoint text.length [] text
  .ok (String.ofList chars, rest)

/-- Reads any four hexadecimal digits as some character. -/
def readAnyCodePoint (text : List Char) : Except Fault (Char × List Char) := do
  let (code, rest) ← readHex text
  .ok (Char.ofNat code, rest)

/-- Skips a string, after its opening quotation mark. -/
def skipText (text : List Char) : Except Fault (List Char) := do
  let (_, rest) ← readChars readAnyCodePoint text.length [] text
  .ok rest

/-- The hexadecimal digit of a number below sixteen. -/
def hexDigit (n : Nat) : Char :=
  Nat.digitChar n

/-- How a character is written inside a string. -/
def escape (c : Char) : List Char :=
  if c = '"' then ['\\', '"']
  else if c = '\\' then ['\\', '\\']
  else if c = '\x08' then ['\\', 'b']
  else if c = '\x0c' then ['\\', 'f']
  else if c = '\n' then ['\\', 'n']
  else if c = '\r' then ['\\', 'r']
  else if c = '\t' then ['\\', 't']
  else if c < ' ' then
    ['\\', 'u', '0', '0', hexDigit (c.toNat / 16), hexDigit (c.toNat % 16)]
  else [c]

/-- Writes a string with its quotation marks. -/
def writeText (text : String) : List Char :=
  '"' :: text.toList.flatMap escape ++ ['"']

end Json

end Monomorph
