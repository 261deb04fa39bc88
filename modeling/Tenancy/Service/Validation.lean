import Tenancy.Error
import Tenancy.Json.Records
import Tenancy.Settings
import Tenancy.Text.Email
import Tenancy.Text.Slug

/-!
# Tenancy - Checks on requests

Each check either returns the value in its stored form or says which field is
wrong and why.

Main definitions:

- `Limits.checkSlug`, `Limits.checkDisplayName`, `Limits.checkRoleName`,
  `Limits.checkDescription`, `Limits.checkMetadata`: checks against length limits.
- `checkEmail`, `checkNotBlank`: checks without limits.
-/

namespace Tenancy

/-- The complaint about a text that is too long. -/
def tooLongMessage (limit : Nat) : String :=
  "must be at most " ++ toString limit ++ " characters"

/-- The complaint about a text that is missing. -/
def emptyMessage : String :=
  "must not be empty"

/-- A name: trimmed, not empty, and not too long. -/
def checkName (field : String) (limit : Nat) (text : String) : Except Error String :=
  let name := Text.trim text
  if name = "" then .error (.invalid field emptyMessage)
  else if limit < Text.length name then .error (.invalid field (tooLongMessage limit))
  else .ok name

/-- A text of which something must be left after trimming; it is kept as given. -/
def checkNotBlank (field : String) (text : String) : Except Error Unit :=
  if Text.isBlankText text then .error (.invalid field emptyMessage) else .ok ()

/-- An email address in its stored form. -/
def checkEmail (address : String) : Except Error String :=
  let email := Text.Email.normalize address
  if Text.Email.isValid email then .ok email
  else .error (.invalid "email" "is not a valid address")

namespace Limits

/-- The slug that a text spells. -/
def checkSlug (limits : Limits) (text : String) : Except Error String :=
  (Text.Slug.normalize limits.slugLength text).mapError fun flaw => .invalid "slug" flaw.message

/-- An organization's display name. -/
def checkDisplayName (limits : Limits) (text : String) : Except Error String :=
  checkName "display_name" limits.displayNameLength text

/-- A role's name. -/
def checkRoleName (limits : Limits) (text : String) : Except Error String :=
  checkName "role_name" limits.roleNameLength text

/-- A role's description; a blank one counts as none. -/
def checkDescription (limits : Limits) (text : Option String) : Except Error (Option String) :=
  match text.map Text.trim with
  | none => .ok none
  | some description =>
    if description = "" then .ok none
    else if limits.roleDescriptionLength < Text.length description then
      .error (.invalid "role_description" (tooLongMessage limits.roleDescriptionLength))
    else .ok (some description)

/-- What is wrong with a metadata entry, if something is. -/
def metadataFlaw? (limits : Limits) (entry : String × String) : Option String :=
  if Text.isBlankText entry.1 then some "keys must not be empty"
  else if limits.metadataKeyLength < Text.length entry.1 then
    some ("key '" ++ entry.1 ++ "' exceeds " ++ toString limits.metadataKeyLength ++
      " characters")
  else if limits.metadataValueLength < Text.length entry.2 then
    some ("value for '" ++ entry.1 ++ "' exceeds " ++ toString limits.metadataValueLength ++
      " characters")
  else none

/-- Metadata: each entry within limits, then the whole within its size. -/
def checkMetadata (limits : Limits) (metadata : Metadata) : Except Error Unit :=
  match metadata.entries.findSome? limits.metadataFlaw? with
  | some flaw => .error (.invalid "metadata" flaw)
  | none =>
    if limits.metadataBytes < metadata.encodedSize then
      .error (.invalid "metadata"
        ("serialized size " ++ toString metadata.encodedSize ++ " exceeds " ++
          toString limits.metadataBytes ++ " bytes"))
    else .ok ()

end Limits
end Tenancy
