import Tenancy.Json.Basic

/-!
# Tenancy - Records in JSON

A record is read from an object that holds its fields in any order, or from an
array that holds their values in the declared order.  An object may hold fields
that the record does not know, but none of the known ones twice.  An array may
stop early only before fields that have a default, and never goes on past the
last field.

Main definitions:

- `Json.slots`: what a value gives for each declared field.
- `Slot.required`, `Slot.optional`, `Slot.defaulted`: reading one field.
- `Json.choice?`: a choice between named alternatives.
-/

namespace Tenancy

/-- What a written record gives for one field. -/
inductive Slot
  | given (value : Json)
  /-- An object without the field. -/
  | missing
  /-- An array that ended before the field. -/
  | cutOff
deriving Inhabited

namespace Slot

/-- Read a field that must be there. -/
def required {α : Type} (read : Json → Option α) : Slot → Option α
  | .given value => read value
  | .missing => none
  | .cutOff => none

/-- Read a field that an object may leave out. -/
def optional {α : Type} (read : Json → Option α) : Slot → Option (Option α)
  | .given value => value.option? read
  | .missing => some none
  | .cutOff => none

/-- Read a field that takes a default when it is left out. -/
def defaulted {α : Type} (default : α) (read : Json → Option α) : Slot → Option α
  | .given value => read value
  | .missing => some default
  | .cutOff => some default

end Slot

namespace Json

/-- Whether some listed key stands in the object more than once. -/
def repeatsKey (names : List String) (members : List (Option String × Json)) : Bool :=
  names.any fun name => 1 < members.countP fun field => field.1 == some name

/-- What an object or array gives for each of the declared fields. -/
def slots (names : List String) : Json → Option (List Slot)
  | .object members =>
    if members.any (·.1.isNone) || repeatsKey names members then none
    else
      some (names.map fun name =>
        match members.find? (·.1 == some name) with
        | some field => .given field.2
        | none => .missing)
  | .array items =>
    if names.length < items.length then none
    else some (items.map .given ++ List.replicate (names.length - items.length) .cutOff)
  | _ => none

/-- The name of a choice, given as a string or as the only key of an object that holds `null`. -/
def choiceName? : Json → Option String
  | .string value => value
  | .object [(key, .null)] => key
  | _ => none

/-- A choice between named alternatives. -/
def choice? {α : Type} (named : String → Option α) (value : Json) : Option α :=
  value.choiceName?.bind named

end Json
end Tenancy
