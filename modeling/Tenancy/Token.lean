import Tenancy.Context
import Tenancy.Permission

/-!
# Tenancy - Token claims

A token carries the user's permissions, joined by spaces, and the organization
it was issued for.

Main definitions:

- `TokenClaims`, `TokenClaims.ofPermissions`: the claims by name.
- `TokenClaims.toList`: the claims that are present, in order.
-/

namespace Tenancy

/-- A named value in a token. -/
structure Claim where
  name : String
  value : String
deriving DecidableEq, Repr, Inhabited

/-- The claims of a token, each absent where it does not apply. -/
structure TokenClaims where
  permissions : Option String
  organizationId : Option String
  organizationSlug : Option String
  organizationName : Option String
deriving DecidableEq, Repr, Inhabited

namespace TokenClaims

/-- The permissions claim: the normalized names joined by spaces, unless there are none. -/
def permissionsText (permissions : List String) : Option String :=
  match Permission.normalize permissions with
  | [] => none
  | names => some (" ".intercalate names)

/-- The claims for permissions and the ambient organization. -/
def ofPermissions (permissions : List String) (context : Context) : TokenClaims :=
  if context.hasOrganization then
    { permissions := permissionsText permissions
      organizationId := context.organizationId
      organizationSlug := context.slug
      organizationName := context.displayName }
  else
    { permissions := permissionsText permissions
      organizationId := none
      organizationSlug := none
      organizationName := none }

/-- The claims that are present, in order. -/
def toList (claims : TokenClaims) : List Claim :=
  [("permissions", claims.permissions), ("org_id", claims.organizationId),
    ("org_slug", claims.organizationSlug), ("org_name", claims.organizationName)].filterMap
      fun claim => claim.2.map (Claim.mk claim.1)

end TokenClaims
end Tenancy
