import Tenancy.Json.Basic

/-!
# Tenancy - Writing JSON

The compact form: no blanks, members in order, and in strings only the quote,
the backslash and the control characters escaped.

Main definitions:

- `Json.writeText`: a string literal.
- `Json.write`: the compact form of a value.
- `Json.render`: the same as a `String`.
-/

namespace Tenancy
namespace Json

/-- The lowercase hexadecimal digit for a value below 16. -/
def hexDigit (value : Nat) : Char :=
  if value < 10 then Char.ofNat ('0'.toNat + value) else Char.ofNat ('a'.toNat + (value - 10))

/-- One character of a string literal. -/
def writeChar (c : Char) : List Char :=
  if c = '"' then ['\\', '"']
  else if c = '\\' then ['\\', '\\']
  else if c = '\n' then ['\\', 'n']
  else if c = '\r' then ['\\', 'r']
  else if c = '\t' then ['\\', 't']
  else if c = '\x08' then ['\\', 'b']
  else if c = '\x0c' then ['\\', 'f']
  else if c.toNat < 0x20 then
    ['\\', 'u', '0', '0', hexDigit (c.toNat / 16), hexDigit (c.toNat % 16)]
  else [c]

/-- The string literal of a text. -/
def writeText (value : List Char) : List Char :=
  '"' :: (value.flatMap writeChar ++ ['"'])

/-- The string literal of a text; one that denotes no text is written as half a surrogate pair. -/
def writeString : Option String → List Char
  | some value => writeText value.toList
  | none => ['"', '\\', 'u', 'd', '8', '0', '0', '"']

mutual

/-- The compact form of a value. -/
def write : Json → List Char
  | .null => ['n', 'u', 'l', 'l']
  | .bool true => ['t', 'r', 'u', 'e']
  | .bool false => ['f', 'a', 'l', 's', 'e']
  | .integer value => (toString value).toList
  | .decimal spelling => spelling.toList
  | .string value => writeString value
  | .array items => '[' :: (writeItems items ++ [']'])
  | .object members => '{' :: (writeMembers members ++ ['}'])

/-- The elements of an array, separated by commas. -/
def writeItems : List Json → List Char
  | [] => []
  | [item] => write item
  | item :: rest => write item ++ ',' :: writeItems rest

/-- The members of an object, separated by commas. -/
def writeMembers : List (Option String × Json) → List Char
  | [] => []
  | [(key, value)] => writeString key ++ ':' :: write value
  | (key, value) :: rest => writeString key ++ ':' :: (write value ++ ',' :: writeMembers rest)

end

/-- The compact form of a value. -/
def render (value : Json) : String :=
  String.ofList (write value)

end Json
end Tenancy
