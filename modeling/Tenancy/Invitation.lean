import Tenancy.Membership

/-!
# Tenancy - Invitations

An invitation lets whoever holds its code and its email address join an
organization with the listed roles, until it expires.  It keeps the slug and
name that the organization had when the invitation was made.

Main definitions:

- `Invitation`, `Invitation.Draft`: the record and the request for one.
- `Invitation.isExpiredAt`: the expiry boundary.
- `Acceptance`: what accepting an invitation returns.
-/

namespace Tenancy

/-- A pending invitation; times are seconds since 1970. -/
structure Invitation where
  code : String
  organizationId : String
  organizationSlug : String
  organizationName : String
  email : String
  roleIds : List String
  createdBy : String
  createdAt : Nat
  expiresAt : Nat
deriving DecidableEq, Inhabited

namespace Invitation

/-- An invitation is expired from its expiry time on. -/
def isExpiredAt (invitation : Invitation) (now : Nat) : Bool :=
  invitation.expiresAt ≤ now

/-- A request to invite an address. -/
structure Draft where
  organizationId : String
  email : String
  createdBy : String
  roleIds : List String
  expiresInHours : Option Nat
deriving DecidableEq, Inhabited

end Invitation

/-- What accepting an invitation returns. -/
structure Acceptance where
  organizationId : String
  organizationSlug : String
  membership : Membership
  wasMember : Bool
  /-- Whether the user existed before the invitation was made. -/
  userPredatesInvitation : Bool
deriving DecidableEq, Inhabited

end Tenancy
