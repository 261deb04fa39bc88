import Tenancy.Text.SearchPattern

/-!
# Tenancy - User directory

Users are known to this library only through their directory entries.

Main definitions:

- `User`: a directory entry.
- `User.foundBy`: whether a search pattern finds a user.
-/

namespace Tenancy

/-- A directory entry; times are seconds since 1970. -/
structure User where
  id : String
  email : String
  displayName : Option String
  createdAt : Nat
deriving DecidableEq, Inhabited

/-- Whether a pattern accepts the user's address or display name. -/
def User.foundBy (user : User) (pattern : Text.SearchPattern) : Bool :=
  pattern.accepts user.email || user.displayName.any pattern.accepts

end Tenancy
