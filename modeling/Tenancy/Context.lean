import Tenancy.Organization

/-!
# Tenancy - The ambient organization

A context names the organization that the code now running works for.  The
empty context names none.

Main definitions:

- `Context`: an organization's id, slug and name, each optional.
- `Context.ofOrganization`: the context of a loaded organization.
-/

namespace Tenancy

/-- The organization that a stretch of work is for. -/
structure Context where
  organizationId : Option String
  slug : Option String
  displayName : Option String
deriving DecidableEq, Repr

namespace Context

/-- The context that names no organization. -/
def empty : Context :=
  { organizationId := none, slug := none, displayName := none }

instance : Inhabited Context := ⟨empty⟩

/-- The context of a loaded organization. -/
def ofOrganization (org : Organization) : Context :=
  { organizationId := some org.id, slug := some org.slug, displayName := some org.displayName }

/-- Whether the context names an organization. -/
def hasOrganization (context : Context) : Bool :=
  context.organizationId.isSome

end Context
end Tenancy
