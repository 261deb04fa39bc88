import Tenancy.Text.Basic

/-!
# Tenancy - Settings

Limits for organizations and roles, bounds for invitation lifetimes, and the
logging choice.  Values out of bounds are brought into bounds where they are
used; settings that contradict themselves are refused when they are built.

Main definitions:

- `Limits`, `Limits.clampPageSize`: length limits and page sizes.
- `InvitationPolicy`, `InvitationPolicy.clampHours`: lifetimes of invitations.
- `Settings`, `Settings.check`: all settings, and what makes them invalid.
-/

namespace Tenancy

/-- Length limits in characters, the size limit of metadata in bytes, and page sizes. -/
structure Limits where
  slugLength : Nat
  displayNameLength : Nat
  roleNameLength : Nat
  roleDescriptionLength : Nat
  metadataKeyLength : Nat
  metadataValueLength : Nat
  metadataBytes : Nat
  defaultPageSize : Nat
  maxPageSize : Nat
deriving DecidableEq, Repr

namespace Limits

/-- The limits where nothing else is set. -/
def standard : Limits where
  slugLength := 64
  displayNameLength := 128
  roleNameLength := 64
  roleDescriptionLength := 512
  metadataKeyLength := 64
  metadataValueLength := 512
  metadataBytes := 4096
  defaultPageSize := 20
  maxPageSize := 100

instance : Inhabited Limits := ⟨standard⟩

/-- The page size for a request: none or zero asks for the default, more than the largest gets it. -/
def clampPageSize (limits : Limits) (requested : Option Nat) : Nat :=
  let largest := max limits.maxPageSize 1
  match requested with
  | none | some 0 => min (max limits.defaultPageSize 1) largest
  | some size => min size largest

/-- Why the limits contradict themselves, if they do. -/
def fault? (limits : Limits) : Option String :=
  if limits.slugLength = 0 ∨ limits.displayNameLength = 0 ∨ limits.roleNameLength = 0 then
    some "length limits must be greater than 0"
  else if limits.maxPageSize = 0 ∨ limits.defaultPageSize = 0 then
    some "page size must be greater than 0"
  else if limits.maxPageSize < limits.defaultPageSize then
    some ("default page size " ++ toString limits.defaultPageSize ++
      " exceeds maximum page size " ++ toString limits.maxPageSize)
  else none

end Limits

/-- Lifetimes of invitations, in hours. -/
structure InvitationPolicy where
  defaultHours : Nat
  minHours : Nat
  maxHours : Nat
deriving DecidableEq, Repr

namespace InvitationPolicy

/-- One week unless asked otherwise, between one hour and thirty days. -/
def standard : InvitationPolicy where
  defaultHours := 24 * 7
  minHours := 1
  maxHours := 24 * 30

instance : Inhabited InvitationPolicy := ⟨standard⟩

/-- The lifetime for a request, brought into bounds; the upper bound prevails. -/
def clampHours (policy : InvitationPolicy) (requested : Option Nat) : Nat :=
  min (max (requested.getD policy.defaultHours) (min policy.minHours policy.maxHours))
    policy.maxHours

/-- The lifetime for a request in seconds. -/
def lifetime (policy : InvitationPolicy) (requested : Option Nat) : Nat :=
  policy.clampHours requested * 3600

/-- Why the policy contradicts itself, if it does. -/
def fault? (policy : InvitationPolicy) : Option String :=
  if policy.minHours = 0 then some "minimum invitation expiry must be at least 1 hour"
  else if policy.maxHours < policy.minHours then
    some ("minimum invitation expiry " ++ toString policy.minHours ++ "h exceeds maximum " ++
      toString policy.maxHours ++ "h")
  else none

end InvitationPolicy

/-- What is logged, and in which form. -/
structure Logging where
  level : String
  json : Bool
deriving DecidableEq, Repr

namespace Logging

/-- Informational messages in plain text. -/
def standard : Logging where
  level := "info"
  json := false

instance : Inhabited Logging := ⟨standard⟩

/-- The known levels. -/
def levels : List String :=
  ["trace", "debug", "info", "warn", "error"]

/-- Why the level is refused, if it is; letters may be of either case. -/
def fault? (logging : Logging) : Option String :=
  if levels.contains (Text.lowercase logging.level) then none
  else
    some ("Invalid log level: " ++ logging.level ++ ". Must be one of: " ++
      ", ".intercalate levels)

end Logging

/-- All settings. -/
structure Settings where
  logging : Logging
  limits : Limits
  invitations : InvitationPolicy
deriving DecidableEq, Repr

namespace Settings

/-- The settings where nothing else is set. -/
def standard : Settings where
  logging := .standard
  limits := .standard
  invitations := .standard

instance : Inhabited Settings := ⟨standard⟩

/-- The first contradiction in the settings, if there is one. -/
def fault? (settings : Settings) : Option String :=
  settings.logging.fault? <|> settings.limits.fault? <|> settings.invitations.fault?

/-- The wording for refused settings. -/
def faultMessage (fault : String) : String :=
  "Invalid configuration: " ++ fault

/-- The settings if they are consistent, else the wording of the first contradiction. -/
def check (settings : Settings) : Except String Settings :=
  match settings.fault? with
  | some fault => .error (faultMessage fault)
  | none => .ok settings

end Settings
end Tenancy
