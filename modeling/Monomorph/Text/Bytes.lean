/-!
# Lengths in Bytes

Text is read as a list of characters, but what is said about a place in it, and
whether enough of it is left, is in terms of the bytes of its encoding.

## Main definitions

* `utf8Length`: The length of characters in bytes.

## Theorems

* `utf8Length_append`: Lengths add up.
* `utf8ByteSize_ofList`: The length is the size of the text that the characters make.
-/

namespace Monomorph

namespace Text

/-- How many bytes the characters take in UTF-8. -/
def utf8Length : List Char → Nat
  | [] => 0
  | c :: rest => c.utf8Size + utf8Length rest

theorem utf8Length_append (chars more : List Char) :
    utf8Length (chars ++ more) = utf8Length chars + utf8Length more := by
  induction chars with
  | nil => rw [List.nil_append, utf8Length, Nat.zero_add]
  | cons c rest ih => rw [List.cons_append, utf8Length, utf8Length, ih, Nat.add_assoc]

theorem utf8ByteSize_ofList (chars : List Char) :
    (String.ofList chars).utf8ByteSize = utf8Length chars := by
  induction chars with
  | nil => rfl
  | cons c rest ih =>
      rw [String.ofList_cons, String.utf8ByteSize_append, String.utf8ByteSize_singleton, ih,
        utf8Length]

end Text

end Monomorph
