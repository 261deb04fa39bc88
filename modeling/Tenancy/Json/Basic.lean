/-!
# Tenancy - JSON values

A JSON value as it is written.  Whole numbers are read; a number with a
fraction or an exponent, or a zero with a minus sign, keeps its spelling, since
no record of this library holds one.  A string literal whose escapes leave half
of a surrogate pair denotes no text: it is kept apart, because a reader that
skips over a value accepts it and a reader that wants the text does not.

Main definitions:

- `Json`: the values; objects keep their members in order, repeated keys included.
- `Json.string?`, `Json.bool?`, `Json.nat?`, `Json.listOf?`: typed views.
-/

namespace Tenancy

/-- A JSON value; a key or string without a text is `none`. -/
inductive Json
  | null
  | bool (value : Bool)
  | integer (value : Int)
  | decimal (spelling : String)
  | string (value : Option String)
  | array (items : List Json)
  | object (members : List (Option String × Json))
deriving Inhabited

namespace Json

/-- The value for a text. -/
def text (value : String) : Json :=
  .string (some value)

/-- The value for a natural number. -/
def nat (value : Nat) : Json :=
  .integer value

/-- The value for an optional part, `null` when it is absent. -/
def option {α : Type} (write : α → Json) : Option α → Json
  | some value => write value
  | none => .null

/-- The array of written elements. -/
def list {α : Type} (write : α → Json) (items : List α) : Json :=
  .array (items.map write)

/-- The object with the given keys. -/
def record (fields : List (String × Json)) : Json :=
  .object (fields.map fun field => (some field.1, field.2))

/-! ## Typed views -/

/-- The text of a string value. -/
def string? : Json → Option String
  | .string value => value
  | _ => none

/-- The truth value. -/
def bool? : Json → Option Bool
  | .bool value => some value
  | _ => none

/-- A whole number from zero to `largest`. -/
def nat? (largest : Nat) : Json → Option Nat
  | .integer (.ofNat n) => if n ≤ largest then some n else none
  | _ => none

/-- A whole number from `smallest` to `largest`. -/
def int? (smallest largest : Int) : Json → Option Int
  | .integer n => if smallest ≤ n ∧ n ≤ largest then some n else none
  | _ => none

/-- The elements of an array, each read. -/
def listOf? {α : Type} (read : Json → Option α) : Json → Option (List α)
  | .array items => items.mapM read
  | _ => none

/-- An optional part, absent when it is `null`. -/
def option? {α : Type} (read : Json → Option α) : Json → Option (Option α)
  | .null => some none
  | value => (read value).map some

/-- The value of the first member with a key. -/
def member? (key : String) : Json → Option Json
  | .object members => (members.find? (·.1 == some key)).map (·.2)
  | _ => none

end Json
end Tenancy
