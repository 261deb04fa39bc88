import Tenancy.Settings
import Tenancy.Text.Integer

/-!
# Tenancy - Settings from the environment

Each setting has a variable.  A variable is looked up under its qualified name
first and under its plain name only when the qualified one is not set.  A value
that cannot be read counts as not set.

Main definitions:

- `Environment.get?`: the raw value of a variable.
- `Environment.parse?`: its trimmed value, read.
- `Settings.ofEnvironment`: all settings.
-/

namespace Tenancy

/-- The variables that are set; a later setting of a name prevails. -/
abbrev Environment := List (String × String)

namespace Environment

/-- The value of a variable by its exact name. -/
def byName? (env : Environment) (name : String) : Option String :=
  env.reverse.lookup name

/-- The value of a variable, under its qualified name or else under its plain name. -/
def get? (env : Environment) (key : String) : Option String :=
  env.byName? ("TIDEWAY_" ++ key) <|> env.byName? key

/-- The trimmed value of a variable, if it can be read. -/
def parse? {α : Type} (env : Environment) (key : String) (read : String → Option α) : Option α :=
  (env.get? key).bind fun raw => read (Text.trim raw)

/-- The value of a variable that holds a number, or a default. -/
def number (env : Environment) (key : String) (largest default : Nat) : Nat :=
  (env.parse? key (Text.readNat largest)).getD default

end Environment

/-- The limits that the environment sets. -/
def Limits.ofEnvironment (env : Environment) : Limits :=
  let base := Limits.standard
  { slugLength := env.number "ORG_SLUG_MAX_LENGTH" maxWord64 base.slugLength
    displayNameLength := env.number "ORG_DISPLAY_NAME_MAX_LENGTH" maxWord64 base.displayNameLength
    roleNameLength := env.number "ORG_ROLE_NAME_MAX_LENGTH" maxWord64 base.roleNameLength
    roleDescriptionLength :=
      env.number "ORG_ROLE_DESCRIPTION_MAX_LENGTH" maxWord64 base.roleDescriptionLength
    metadataKeyLength := env.number "ORG_METADATA_MAX_KEY_LENGTH" maxWord64 base.metadataKeyLength
    metadataValueLength :=
      env.number "ORG_METADATA_MAX_VALUE_LENGTH" maxWord64 base.metadataValueLength
    metadataBytes := env.number "ORG_METADATA_MAX_BYTES" maxWord64 base.metadataBytes
    defaultPageSize := env.number "ORG_DEFAULT_PAGE_SIZE" maxWord32 base.defaultPageSize
    maxPageSize := env.number "ORG_MAX_PAGE_SIZE" maxWord32 base.maxPageSize }

/-- The invitation policy that the environment sets. -/
def InvitationPolicy.ofEnvironment (env : Environment) : InvitationPolicy :=
  let base := InvitationPolicy.standard
  { defaultHours := env.number "INVITATION_DEFAULT_EXPIRY_HOURS" maxWord32 base.defaultHours
    minHours := env.number "INVITATION_MIN_EXPIRY_HOURS" maxWord32 base.minHours
    maxHours := env.number "INVITATION_MAX_EXPIRY_HOURS" maxWord32 base.maxHours }

/-- The logging choice that the environment sets; neither value is trimmed. -/
def Logging.ofEnvironment (env : Environment) : Logging :=
  let base := Logging.standard
  { level := (env.get? "LOG_LEVEL").getD base.level
    json :=
      match env.get? "LOG_JSON" with
      | some raw => (Text.readBool raw).getD false
      | none => base.json }

/-- All settings that the environment sets, not yet checked. -/
def Settings.ofEnvironment (env : Environment) : Settings where
  logging := .ofEnvironment env
  limits := .ofEnvironment env
  invitations := .ofEnvironment env

end Tenancy
