import Monomorph.Json.Fault

/-!
# Numbers of a Document

A number is an integer when it is written without fraction and exponent and
fits 64 bits; minus zero is not one. Everything else is kept in double
precision. Digits count as long as the significand fits 64 bits; those after
that only move the exponent. The value is then the significand in double
precision, multiplied or divided by a power of ten in double precision, with a
rounding at each step, and a number beyond the greatest one is refused.

## Main definitions

* `Number`: A number as it was read.
* `readNumber`: Reads a number after its sign.
-/

namespace Monomorph

namespace Json

/-- A number of a document: a natural number, the negative of a positive one,
    or a number in double precision. -/
inductive Number where
  | natural (value : Nat)
  | negative (magnitude : Nat)
  | decimal (minus : Bool) (magnitude : Decimal.Binary)
deriving DecidableEq

/-- How a mismatch names a number. -/
def Number.found : Number → Found
  | natural value => .integer value
  | negative magnitude => .integer (-magnitude)
  | decimal minus magnitude => .decimal minus magnitude

/-- Whether the character is one of the ten digits. -/
def isDigit (c : Char) : Bool :=
  '0' ≤ c && c ≤ '9'

/-- The value of a digit. -/
def digitValue (c : Char) : Nat :=
  c.toNat - '0'.toNat

/-- The greatest significand: what 64 bits hold. -/
def maxSignificand : Nat := 0xFFFFFFFFFFFFFFFF

/-- A significand with the digits taken into it, and what follows. -/
structure Absorbed where
  significand : Nat
  count : Nat
  rest : List Char

/-- Takes digits into the significand as long as it fits 64 bits. What follows
    starts with no digit, or with the first that does not fit. -/
def absorb (significand count : Nat) : List Char → Absorbed
  | [] => ⟨significand, count, []⟩
  | c :: rest =>
    if isDigit c && significand * 10 + digitValue c ≤ maxSignificand then
      absorb (significand * 10 + digitValue c) (count + 1) rest
    else ⟨significand, count, c :: rest⟩

/-- The power of ten in double precision, for exponents up to 308. -/
def tenTo (exponent : Nat) : Decimal.Binary :=
  (Decimal.Binary.nearest (Nat.pow 10 exponent) 1).getD .zero

/-- A double-precision number moved by a power of ten. A power below what
    double precision holds is applied in two steps, and below both of them
    nothing is left. -/
def moveBy (x : Decimal.Binary) (exponent : Int) : Option Decimal.Binary :=
  if 308 < exponent then if x.mantissa = 0 then some x else none
  else if 0 ≤ exponent then x.mul (tenTo exponent.toNat)
  else if -308 ≤ exponent then x.div (tenTo (-exponent).toNat)
  else if -616 ≤ exponent then
    (x.div (tenTo 308)).bind fun y => y.div (tenTo (-exponent - 308).toNat)
  else some .zero

/-- The number with this sign, significand and exponent. -/
def assemble (negative : Bool) (significand : Nat) (exponent : Int) (rest : List Char) :
    Except Fault (Number × List Char) :=
  match (Decimal.Binary.nearest significand 1).bind (moveBy · exponent) with
  | some magnitude => .ok (.decimal negative magnitude, rest)
  | none => .error .malformed

/-- The greatest exponent that is taken at its word. -/
def maxExponent : Nat := 0x7FFFFFFF

/-- Reads the digits of an exponent, after its sign. -/
def readExponentDigits (negative : Bool) (significand : Nat) (exponent : Int)
    (exponentNegative : Bool) (text : List Char) : Except Fault (Number × List Char) :=
  match text with
  | [] => .error .truncated
  | c :: _ =>
    if isDigit c then
      let value := (text.takeWhile isDigit).foldl (fun n d => n * 10 + digitValue d) 0
      let rest := text.dropWhile isDigit
      if maxExponent < value then
        if significand ≠ 0 ∧ !exponentNegative then .error .malformed
        else .ok (.decimal negative .zero, rest)
      else
        assemble negative significand
          (if exponentNegative then exponent - value else exponent + value) rest
    else .error .malformed

/-- Reads an exponent, after the letter that announces it. -/
def readExponent (negative : Bool) (significand : Nat) (exponent : Int) :
    List Char → Except Fault (Number × List Char)
  | '+' :: rest => readExponentDigits negative significand exponent false rest
  | '-' :: rest => readExponentDigits negative significand exponent true rest
  | rest => readExponentDigits negative significand exponent false rest

/-- Reads what may follow the last digit of a decimal: an exponent or
    nothing. -/
def readScaled (negative : Bool) (significand : Nat) (exponent : Int) :
    List Char → Except Fault (Number × List Char)
  | 'e' :: rest => readExponent negative significand exponent rest
  | 'E' :: rest => readExponent negative significand exponent rest
  | rest => assemble negative significand exponent rest

/-- Reads a fraction, after its point. There must be at least one digit. -/
def readFraction (negative : Bool) (significand : Nat) (exponent : Int) (text : List Char) :
    Except Fault (Number × List Char) :=
  match text with
  | [] => .error .truncated
  | c :: _ =>
    if isDigit c then
      let absorbed := absorb significand 0 text
      readScaled negative absorbed.significand (exponent - absorbed.count)
        (absorbed.rest.dropWhile isDigit)
    else .error .malformed

/-- An integer with this sign. Minus zero, and a negative number that 64 bits
    do not hold, are kept in double precision. -/
def integer (negative : Bool) (significand : Nat) : Number :=
  if negative then
    if significand = 0 ∨ 0x8000000000000000 < significand then
      .decimal true ((Decimal.Binary.nearest significand 1).getD .zero)
    else .negative significand
  else .natural significand

/-- Reads what follows the integer part of a number: a fraction, an exponent or
    nothing. -/
def readTail (negative : Bool) (significand : Nat) :
    List Char → Except Fault (Number × List Char)
  | '.' :: rest => readFraction negative significand 0 rest
  | 'e' :: rest => readExponent negative significand 0 rest
  | 'E' :: rest => readExponent negative significand 0 rest
  | rest => .ok (integer negative significand, rest)

/-- Reads on after an integer part whose significand is full: the digits left
    over count as zeros. -/
def readOverfull (negative : Bool) (significand : Nat) (text : List Char) :
    Except Fault (Number × List Char) :=
  let exponent : Int := (text.takeWhile isDigit).length
  match text.dropWhile isDigit with
  | '.' :: rest => readFraction negative significand exponent rest
  | rest => readScaled negative significand exponent rest

/-- Reads a number after its sign. A leading zero stands alone. -/
def readNumber (negative : Bool) : List Char → Except Fault (Number × List Char)
  | [] => .error .truncated
  | '0' :: c :: rest =>
    if isDigit c then .error .malformed else readTail negative 0 (c :: rest)
  | c :: rest =>
    if isDigit c then
      let absorbed := absorb (digitValue c) 0 rest
      match absorbed.rest with
      | d :: _ =>
        if isDigit d then readOverfull negative absorbed.significand absorbed.rest
        else readTail negative absorbed.significand absorbed.rest
      | [] => readTail negative absorbed.significand []
    else .error .malformed

/-- Skips the digits of an exponent, after the letter that announces it. -/
def skipExponent (text : List Char) : Except Fault (List Char) :=
  let digits := match text with
    | '+' :: rest => rest
    | '-' :: rest => rest
    | rest => rest
  match digits with
  | [] => .error .malformed
  | c :: rest => if isDigit c then .ok (rest.dropWhile isDigit) else .error .malformed

/-- Skips what may follow the last digit of a decimal. -/
def skipScaled : List Char → Except Fault (List Char)
  | 'e' :: rest => skipExponent rest
  | 'E' :: rest => skipExponent rest
  | rest => .ok rest

/-- Skips what follows the integer part of a number. -/
def skipTail : List Char → Except Fault (List Char)
  | '.' :: c :: rest =>
    if isDigit c then skipScaled (rest.dropWhile isDigit) else .error .malformed
  | ['.'] => .error .malformed
  | rest => skipScaled rest

/-- Skips a number after its sign. A number nobody wants has no size, and one
    that the text cuts off breaks the grammar rather than ending early. -/
def skipNumber : List Char → Except Fault (List Char)
  | [] => .error .malformed
  | '0' :: rest =>
    match rest with
    | c :: _ => if isDigit c then .error .malformed else skipTail rest
    | [] => .ok []
  | c :: rest =>
    if isDigit c then skipTail (rest.dropWhile isDigit) else .error .malformed

end Json

end Monomorph
