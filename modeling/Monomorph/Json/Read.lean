import Monomorph.Json.Skip

/-!
# Reading Typed Documents

Readers for the shapes a document may have. A reader takes the text that is
left and gives the value and what follows it, or the first fault. Because each
reader knows what is wanted before it looks, a value of another kind is
reported where it starts, before anything behind it is read.

A record is written as an object, or as an array with its fields in order. In
an object a field is offered its key before its colon is read, so a key that
is repeated or refused is reported at once.

## Main definitions

* `Reader`: Text to a value and the text after it.
* `text`, `boolean`, `natural`, `optional`, `sequence`, `variant`: Readers of
  single values.
* `record`: A record in either of its two forms.
* `members`: The members of an object.
* `element`: The next element of an array, if there is one.
* `document`: A whole document.
-/

namespace Monomorph

namespace Json

/-- A reader takes the text that is left and gives a value and what follows
    it. -/
abbrev Reader (α : Type) := List Char → Except Fault (α × List Char)

/-- A mismatch of kind. -/
def mismatched (found : Found) (wanted : String) : Fault :=
  .mismatch (.kind found wanted)

/-- The fault of a value of another kind than was wanted. Such a value is read
    as far as naming it needs, and a fault inside it comes first. -/
def refusal (wanted : String) : List Char → Fault
  | [] => .truncated
  | 'n' :: rest =>
    match readWord ['u', 'l', 'l'] rest with
    | .error fault => fault
    | .ok _ => mismatched .null wanted
  | 't' :: rest =>
    match readWord ['r', 'u', 'e'] rest with
    | .error fault => fault
    | .ok _ => mismatched (.boolean true) wanted
  | 'f' :: rest =>
    match readWord ['a', 'l', 's', 'e'] rest with
    | .error fault => fault
    | .ok _ => mismatched (.boolean false) wanted
  | '"' :: rest =>
    match readText rest with
    | .error fault => fault
    | .ok (value, _) => mismatched (.text value) wanted
  | '-' :: rest =>
    match readNumber true rest with
    | .error fault => fault
    | .ok (value, _) => mismatched value.found wanted
  | '[' :: _ => mismatched .array wanted
  | '\x7b' :: _ => mismatched .object wanted
  | c :: rest =>
    if isDigit c then
      match readNumber false (c :: rest) with
      | .error fault => fault
      | .ok (value, _) => mismatched value.found wanted
    else .malformed

/-- Reads a string. -/
def text : Reader String := fun s =>
  match skipSpace s with
  | '"' :: rest => readText rest
  | rest => .error (refusal "a string" rest)

/-- Reads a truth value. -/
def boolean : Reader Bool := fun s =>
  match skipSpace s with
  | 't' :: rest => do .ok (true, ← readWord ['r', 'u', 'e'] rest)
  | 'f' :: rest => do .ok (false, ← readWord ['a', 'l', 's', 'e'] rest)
  | rest => .error (refusal "a boolean" rest)

/-- The natural number that was read, or why it is none: a negative integer is
    of the right kind and has the wrong value. -/
def Number.toNatural : Number → Except Fault Nat
  | natural value => .ok value
  | negative magnitude =>
    .error (.mismatch (.value (.integer (-magnitude)) "usize"))
  | decimal minus magnitude =>
    .error (mismatched (.decimal minus magnitude) "usize")

/-- Reads a natural number of 64 bits. -/
def natural : Reader Nat := fun s =>
  match skipSpace s with
  | '-' :: rest => do
    let (number, rest) ← readNumber true rest
    .ok (← number.toNatural, rest)
  | c :: rest =>
    if isDigit c then do
      let (number, rest) ← readNumber false (c :: rest)
      .ok (← number.toNatural, rest)
    else .error (refusal "usize" (c :: rest))
  | [] => .error .truncated

/-- Reads nothing but a null. -/
def null : Reader Unit := fun s =>
  match skipSpace s with
  | 'n' :: rest => do .ok ((), ← readWord ['u', 'l', 'l'] rest)
  | rest => .error (refusal "unit" rest)

/-- Reads a null as nothing, and anything else with the given reader. -/
def optional {α : Type} (read : Reader α) : Reader (Option α) := fun s =>
  match skipSpace s with
  | 'n' :: rest => do .ok (none, ← readWord ['u', 'l', 'l'] rest)
  | rest => do
    let (value, rest) ← read rest
    .ok (some value, rest)

/-- Moves to the next element of an array: whether there is one, and the text
    at its start or at the closing bracket. A comma must be followed by an
    element. -/
def nextElement (isFirst : Bool) (s : List Char) : Except Fault (Bool × List Char) :=
  match skipSpace s with
  | [] => .error .truncated
  | ']' :: rest => .ok (false, ']' :: rest)
  | c :: rest =>
    if isFirst then .ok (true, c :: rest)
    else if c = ',' then
      match skipSpace rest with
      | [] => .error .truncated
      | ']' :: _ => .error .malformed
      | d :: rest => .ok (true, d :: rest)
    else .error .malformed

/-- Reads the closing bracket of an array. -/
def closeArray (s : List Char) : Except Fault (List Char) :=
  match skipSpace s with
  | [] => .error .truncated
  | ']' :: rest => .ok rest
  | _ => .error .malformed

/-- Reads the elements of an array up to its closing bracket. An element takes
    at least one character, so the length of the text is fuel enough. -/
def elements {α : Type} (read : Reader α) : Nat → Bool → Reader (List α)
  | 0, _, _ => .error .truncated
  | fuel + 1, isFirst, s => do
    let (more, rest) ← nextElement isFirst s
    if more then
      let (value, rest) ← read rest
      let (values, rest) ← elements read fuel false rest
      .ok (value :: values, rest)
    else .ok ([], ← closeArray rest)

/-- Reads an array whose elements all have one shape. -/
def sequence {α : Type} (read : Reader α) : Reader (List α) := fun s =>
  match skipSpace s with
  | '[' :: rest => elements read rest.length true rest
  | rest => .error (refusal "a sequence" rest)

/-- Moves to the next member of an object and reads its key, or reads the
    closing brace. -/
def nextKey (isFirst : Bool) (s : List Char) : Except Fault (Option String × List Char) :=
  let key : List Char → Except Fault (Option String × List Char)
    | [] => .error .truncated
    | '"' :: rest => do
      let (name, rest) ← readText rest
      .ok (some name, rest)
    | _ => .error .malformed
  match skipSpace s with
  | [] => .error .truncated
  | '\x7d' :: rest => .ok (none, rest)
  | c :: rest =>
    if isFirst then key (c :: rest)
    else if c = ',' then key (skipSpace rest)
    else .error .malformed

/-- Reads one of several names, each standing for a value. -/
def named {α : Type} (choices : List (String × α)) (name : String) : Except Fault α :=
  match choices.lookup name with
  | some value => .ok value
  | none => .error (.mismatch (.unknownVariant name (choices.map Prod.fst)))

/-- Reads one of several names, given as a string or as the only key of an
    object with a null under it. -/
def variant {α : Type} (choices : List (String × α)) : Reader α := fun s =>
  match skipSpace s with
  | [] => .error .truncated
  | '"' :: rest => do
    let (name, rest) ← readText rest
    .ok (← named choices name, rest)
  | '\x7b' :: rest => do
    match ← nextKey true rest with
    | (none, _) => .error .malformed
    | (some name, rest) =>
      let value ← named choices name
      let (_, rest) ← null (← readColon rest)
      match skipSpace rest with
      | [] => .error .truncated
      | '\x7d' :: rest => .ok (value, rest)
      | _ => .error .malformed
  | _ => .error .malformed

/-- Reads the members of an object up to its closing brace. Each key is offered
    to `member` with what has been gathered so far and the text before its
    colon. A member takes at least one character, so the length of the text is
    fuel enough. -/
def members {σ : Type} (member : σ → String → Reader σ) : Nat → Bool → σ → Reader σ
  | 0, _, _, _ => .error .truncated
  | fuel + 1, isFirst, gathered, s => do
    let (key?, rest) ← nextKey isFirst s
    match key? with
    | none => .ok (gathered, rest)
    | some key =>
      let (gathered, rest) ← member gathered key rest
      members member fuel false gathered rest

/-- Reads the value of a field that may be given once, after its key. -/
def once {α : Type} (key : String) (slot : Option α) (read : Reader α) : Reader α := fun s =>
  if slot.isSome then .error (.mismatch (.repeatedField key))
  else do read (← readColon s)

/-- Skips the value of a key that is not known. -/
def ignored {σ : Type} (gathered : σ) : Reader σ := fun s => do
  .ok (gathered, ← skipValue (← readColon s))

/-- The value of a field that must be given. -/
def required {α : Type} (key : String) (slot : Option α) : Except Fault α :=
  match slot with
  | some value => .ok value
  | none => .error (.mismatch (.missingField key))

/-- Reads the next element of an array if there is one. -/
def element {α : Type} (isFirst : Bool) (read : Reader α) : Reader (Option α) := fun s => do
  let (more, rest) ← nextElement isFirst s
  if more then
    let (value, rest) ← read rest
    .ok (some value, rest)
  else .ok (none, rest)

/-- Reads the next element of an array, which must be there. -/
def requiredElement {α : Type} (index : Nat) (wanted : String) (read : Reader α) :
    Reader α := fun s => do
  let (value?, rest) ← element (index == 0) read s
  match value? with
  | some value => .ok (value, rest)
  | none => .error (.mismatch (.length index wanted))

/-- Reads a record called `name`: an object whose members `member` gathers and
    `finish` completes, or an array that `ofArray` reads after its opening
    bracket. -/
def record {σ α : Type} (name : String) (start : σ) (member : σ → String → Reader σ)
    (finish : σ → Except Fault α) (ofArray : Reader α) : Reader α := fun s =>
  match skipSpace s with
  | '\x7b' :: rest => do
    let (gathered, rest) ← members member rest.length true start rest
    .ok (← finish gathered, rest)
  | '[' :: rest => do
    let (value, rest) ← ofArray rest
    .ok (value, ← closeArray rest)
  | rest => .error (refusal ("struct " ++ name) rest)

/-- Reads a whole document, after which only white space may stand. -/
def document {α : Type} (read : Reader α) (source : String) : Except Fault α := do
  let (value, rest) ← read source.toList
  match skipSpace rest with
  | [] => .ok value
  | _ => .error .malformed

end Json

end Monomorph
