import Mathlib.Data.List.Basic

namespace Text

/-- `isspace` in the C locale. -/
def isspace (letter : Char) : Bool := letter == ' ' || (9 ≤ letter.toNat && letter.toNat ≤ 13)

/-- The value of a string of decimal digits. -/
def decimal (digits : List Char) : Nat := digits.foldl (fun value digit => value * 10 + (digit.toNat - '0'.toNat)) 0

/-- A number at the front of a text: its sign, its digits and what follows. The
white space in front of it is skipped. -/
structure Number where
  negative : Bool
  digits : List Char
  rest : List Char
  deriving DecidableEq, Repr

def scanDigits (negative : Bool) (text : List Char) : Number where
  negative := negative
  digits := text.takeWhile Char.isDigit
  rest := text.dropWhile Char.isDigit

def scanNumber (text : List Char) : Number :=
  match text.dropWhile isspace with
  | '-' :: body => scanDigits true body
  | '+' :: body => scanDigits false body
  | body => scanDigits false body

/-- What the conversions of `stdlib.h` return: the value, `end_ptr` and whether
`errno` is `ERANGE`. -/
structure Conversion (α : Type) where
  value : α
  end_ptr : List Char
  erange : Bool
  deriving DecidableEq, Repr

def ULONG_MAX : Nat := 0xFFFFFFFF

/-- `strtoul` in base ten, for an `unsigned long` of 32 bits. -/
def strtoul (text : List Char) : Conversion Nat :=
  let number := scanNumber text
  let magnitude := decimal number.digits
  if number.digits = [] then { value := 0, end_ptr := text, erange := false }
  else if magnitude > ULONG_MAX then { value := ULONG_MAX, end_ptr := number.rest, erange := true }
  else if number.negative then
    { value := (ULONG_MAX + 1 - magnitude) % (ULONG_MAX + 1), end_ptr := number.rest, erange := false }
  else { value := magnitude, end_ptr := number.rest, erange := false }

def LONG_MAX : Int := 0x7FFFFFFF
def LONG_MIN : Int := -0x80000000

/-- `strtol` in base ten, for a `long` of 32 bits. -/
def strtol (text : List Char) : Conversion Int :=
  let number := scanNumber text
  let value : Int := if number.negative then -(decimal number.digits) else decimal number.digits
  if number.digits = [] then { value := 0, end_ptr := text, erange := false }
  else if value > LONG_MAX then { value := LONG_MAX, end_ptr := number.rest, erange := true }
  else if value < LONG_MIN then { value := LONG_MIN, end_ptr := number.rest, erange := true }
  else { value, end_ptr := number.rest, erange := false }

/-- The tokens that successive calls of `strtok` return. -/
def strtok (delimiter : Char) (text : List Char) : List (List Char) :=
  (text.splitOn delimiter).filter fun token => token ≠ []

/-- The word that `sscanf` reads with `%s` and a width. -/
def sscanfWord (width : Nat) (text : List Char) : Option (List Char) :=
  match ((text.dropWhile isspace).takeWhile fun letter => !isspace letter).take width with
  | [] => none
  | word => some word

/-- The text behind a word, where it starts with this word. -/
def dropWord? (word text : List Char) : Option (List Char) :=
  if word.isPrefixOf text then some (text.drop word.length) else none

end Text
