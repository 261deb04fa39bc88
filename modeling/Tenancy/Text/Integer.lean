/-!
# Tenancy - Reading whole numbers

A whole number is written as one or more ASCII digits, after at most one sign.
A plus sign is always allowed, a minus sign only where negative numbers are; a
number outside the stated range is refused, as is any surrounding blank.

Main definitions:

- `readDigits`: the value of a non-empty run of digits.
- `readNat`: a number of `0` to a largest value.
- `readInt`: a number between a smallest and a largest value.
- `readBool`: the two truth values.
-/

namespace Tenancy
namespace Text

/-- The value of a digit. -/
def digitValue (c : Char) : Nat :=
  c.toNat - '0'.toNat

/-- The value of a run of digits that follows digits of value `high`. -/
def digitsFrom (high : Nat) (digits : List Char) : Nat :=
  digits.foldl (fun value c => 10 * value + digitValue c) high

/-- The value of a text that consists of digits, at least one. -/
def readDigits (s : List Char) : Option Nat :=
  if s.isEmpty || s.any (!·.isDigit) then none else some (digitsFrom 0 s)

/-- The text after one leading plus sign, if it has one. -/
def dropPlus : List Char → List Char
  | '+' :: rest => rest
  | s => s

/-- Read a number of at most `largest`. -/
def readNat (largest : Nat) (text : String) : Option Nat :=
  (readDigits (dropPlus text.toList)).filter (· ≤ largest)

/-- Read a number from `smallest` to `largest`. -/
def readInt (smallest largest : Int) (text : String) : Option Int :=
  let value :=
    match text.toList with
    | '-' :: rest => (readDigits rest).map fun n => -(n : Int)
    | s => (readDigits (dropPlus s)).map fun n => (n : Int)
  value.filter fun n => smallest ≤ n && n ≤ largest

/-- Read a truth value, spelled exactly. -/
def readBool (text : String) : Option Bool :=
  if text = "true" then some true else if text = "false" then some false else none

end Text

/-- The largest number of 8 bits. -/
def maxWord8 : Nat := 0xff

/-- The largest number of 32 bits. -/
def maxWord32 : Nat := 0xffffffff

/-- The largest number of 64 bits. -/
def maxWord64 : Nat := 0xffffffffffffffff

/-- The largest signed number of 64 bits. -/
def maxSigned64 : Nat := 0x7fffffffffffffff

end Tenancy
