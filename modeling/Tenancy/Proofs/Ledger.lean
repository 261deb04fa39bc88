import Tenancy.Proofs.KeyedRecords
import Tenancy.Proofs.TidyTexts
import Tenancy.Proofs.Upholding

/-!
# Tenancy - What records say of one another

An organization keeps its tenant and a role keeps its organization and tenant,
for good: a role's id is not used again even after the role was deleted.  The
ledger collects these facts.  Memberships and grants refer to organizations and
roles by id, so what may be said of them is said in terms of the ledger, and it
stays true however the records themselves change.

Main definitions:

- `Ledger`: the tenants of organizations and the scopes of roles.
- `Ledger.AdmitsMember`, `Ledger.AdmitsGrant`: memberships and grants that agree
  with the ledger.
- `Ledger.Describes`: a world whose records agree with the ledger.
- `Ledger.pact`: the pact that relates worlds to ledgers.

Main results:

- Theorem `Ledger.AdmitsMember.later`, `Ledger.AdmitsGrant.later`: what agrees
  with a ledger goes on to do so.
- Theorem `Ledger.Describes.empty`: the empty ledger describes an empty store.
-/

namespace Tenancy

/-! ## Ledgers -/

/-- The organization and the tenant that a role is defined for. -/
structure Role.Scope where
  organizationId : Option String
  tenantId : Option String
deriving DecidableEq

/-- The scope of a role. -/
def Role.scope (role : Role) : Role.Scope :=
  { organizationId := role.organizationId, tenantId := role.tenantId }

/-- Whether an organization of a tenant may assign roles of the scope. -/
def Role.Scope.fits (scope : Role.Scope) (organizationId : String) (tenantId : Option String) :
    Bool :=
  scope.organizationId.all (· == organizationId) && scope.tenantId.all (some · == tenantId)

/-- The tenants of all organizations and the scopes of all roles there have been. -/
structure Ledger where
  tenantOf : String → Option (Option String)
  scopeOf : String → Option Role.Scope

namespace Ledger

/-- The ledger without entries. -/
def empty : Ledger where
  tenantOf _ := none
  scopeOf _ := none

/-- A ledger is below another that has all its entries. -/
instance : Preorder Ledger where
  le a b :=
    (∀ id tenantId, a.tenantOf id = some tenantId → b.tenantOf id = some tenantId) ∧
      ∀ id scope, a.scopeOf id = some scope → b.scopeOf id = some scope
  le_refl _ := ⟨fun _ _ h => h, fun _ _ h => h⟩
  le_trans _ _ _ hab hbc :=
    ⟨fun id tenantId h => hbc.1 id tenantId (hab.1 id tenantId h),
      fun id scope h => hbc.2 id scope (hab.2 id scope h)⟩

variable {ledger grown : Ledger}

/-- A larger ledger knows every tenant. -/
theorem tenantOf_of_le (hle : ledger ≤ grown) {id : String} {tenantId : Option String}
    (htenant : ledger.tenantOf id = some tenantId) : grown.tenantOf id = some tenantId :=
  hle.1 id tenantId htenant

/-- A larger ledger knows every scope. -/
theorem scopeOf_of_le (hle : ledger ≤ grown) {id : String} {scope : Role.Scope}
    (hscope : ledger.scopeOf id = some scope) : grown.scopeOf id = some scope :=
  hle.2 id scope hscope

/-- The ledger with the tenant of one more organization. -/
def enterTenant (ledger : Ledger) (id : String) (tenantId : Option String) : Ledger :=
  { ledger with
    tenantOf := fun other => if other = id then some tenantId else ledger.tenantOf other }

/-- The ledger with the scope of one more role. -/
def enterScope (ledger : Ledger) (id : String) (scope : Role.Scope) : Ledger :=
  { ledger with
    scopeOf := fun other => if other = id then some scope else ledger.scopeOf other }

/-- Entering the tenant of a new organization keeps all entries. -/
theorem le_enterTenant {id : String} {tenantId : Option String} (hnew : ledger.tenantOf id = none) :
    ledger ≤ ledger.enterTenant id tenantId := by
  refine ⟨fun other tenant htenant => ?_, fun _ _ h => h⟩
  have hne : other ≠ id := by
    rintro rfl
    rw [hnew] at htenant
    cases htenant
  simpa [enterTenant, hne] using htenant

/-- Entering the scope of a new role keeps all entries. -/
theorem le_enterScope {id : String} {scope : Role.Scope} (hnew : ledger.scopeOf id = none) :
    ledger ≤ ledger.enterScope id scope := by
  refine ⟨fun _ _ h => h, fun other old hold => ?_⟩
  have hne : other ≠ id := by
    rintro rfl
    rw [hnew] at hold
    cases hold
  simpa [enterScope, hne] using hold

/-! ## Records that agree with a ledger -/

/-- The role of an id may be assigned in an organization, by the ledger. -/
structure Assigns (ledger : Ledger) (organizationId roleId : String) : Prop where
  tidy : Text.IsTidy roleId
  fits : ∃ scope tenantId, ledger.scopeOf roleId = some scope ∧
    ledger.tenantOf organizationId = some tenantId ∧ scope.fits organizationId tenantId = true

/-- An assignment to a user in an organization agrees with the ledger. -/
structure AdmitsAssignment (ledger : Ledger) (organizationId userId : String)
    (assignment : RoleAssignment) : Prop where
  ofOrganization : assignment.organizationId = organizationId
  ofUser : assignment.userId = userId
  tenant : ledger.tenantOf organizationId = some assignment.tenantId
  assigns : ledger.Assigns organizationId assignment.roleId

/-- A membership agrees with the ledger: it copies the organization's tenant, and each of its roles
is assigned once, to its user and in its organization, and fits there. -/
structure AdmitsMember (ledger : Ledger) (member : Membership) : Prop where
  tenant : ledger.tenantOf member.organizationId = some member.tenantId
  assignments : ∀ assignment ∈ member.roles,
    ledger.AdmitsAssignment member.organizationId member.userId assignment
  distinct : member.roleIds.Nodup

/-- A scope at which a role may be granted permissions: globally only a template, for its own
tenant; in an organization a role that fits, for the organization's tenant. -/
def GrantsAt (ledger : Ledger) (scope : Role.Scope) : Option String → Option String → Prop
  | none, tenantId => scope.organizationId = none ∧ scope.tenantId = tenantId
  | some organizationId, tenantId =>
    ledger.tenantOf organizationId = some tenantId ∧ scope.fits organizationId tenantId = true

/-- A grant agrees with the ledger. -/
structure AdmitsGrant (ledger : Ledger) (grant : Grant) : Prop where
  granted : ∃ scope, ledger.scopeOf grant.roleId = some scope ∧
    ledger.GrantsAt scope grant.organizationId grant.tenantId

theorem Assigns.later (hle : ledger ≤ grown) {organizationId roleId : String}
    (hassigns : ledger.Assigns organizationId roleId) : grown.Assigns organizationId roleId where
  tidy := hassigns.tidy
  fits := by
    obtain ⟨scope, tenantId, hscope, htenant, hfits⟩ := hassigns.fits
    exact ⟨scope, tenantId, scopeOf_of_le hle hscope, tenantOf_of_le hle htenant, hfits⟩

theorem AdmitsAssignment.later (hle : ledger ≤ grown) {organizationId userId : String}
    {assignment : RoleAssignment}
    (hadmits : ledger.AdmitsAssignment organizationId userId assignment) :
    grown.AdmitsAssignment organizationId userId assignment where
  ofOrganization := hadmits.ofOrganization
  ofUser := hadmits.ofUser
  tenant := tenantOf_of_le hle hadmits.tenant
  assigns := hadmits.assigns.later hle

theorem AdmitsMember.later (hle : ledger ≤ grown) {member : Membership}
    (hadmits : ledger.AdmitsMember member) : grown.AdmitsMember member where
  tenant := tenantOf_of_le hle hadmits.tenant
  assignments assignment hmem := (hadmits.assignments assignment hmem).later hle
  distinct := hadmits.distinct

theorem GrantsAt.later (hle : ledger ≤ grown) {scope : Role.Scope}
    {organizationId tenantId : Option String}
    (hgrants : ledger.GrantsAt scope organizationId tenantId) :
    grown.GrantsAt scope organizationId tenantId := by
  cases organizationId with
  | none => exact hgrants
  | some organizationId => exact ⟨tenantOf_of_le hle hgrants.1, hgrants.2⟩

theorem AdmitsGrant.later (hle : ledger ≤ grown) {grant : Grant}
    (hadmits : ledger.AdmitsGrant grant) : grown.AdmitsGrant grant where
  granted := by
    obtain ⟨scope, hscope, hgrants⟩ := hadmits.granted
    exact ⟨scope, scopeOf_of_le hle hscope, hgrants.later hle⟩

/-- The roles of a membership that agrees with the ledger have tidy ids. -/
theorem AdmitsMember.tidy {member : Membership} (hadmits : ledger.AdmitsMember member) :
    ∀ roleId ∈ member.roleIds, Text.IsTidy roleId := by
  intro roleId hmem
  obtain ⟨assignment, hassignment, rfl⟩ := List.mem_map.1 hmem
  exact (hadmits.assignments assignment hassignment).assigns.tidy

/-! ## Worlds that agree with a ledger -/

/-- The records of a world agree with the ledger, and the ledger has no more than there has been. -/
structure Describes (ledger : Ledger) (world : World) : Prop where
  tenants : ∀ org ∈ world.tables.organizations, ledger.tenantOf org.id = some org.tenantId
  stored : ∀ id tenantId, ledger.tenantOf id = some tenantId →
    ∃ org ∈ world.tables.organizations, org.id = id
  scopes : ∀ role ∈ world.tables.roles, ledger.scopeOf role.id = some role.scope
  drawn : ∀ id scope, ledger.scopeOf id = some scope →
    ∃ n < world.supply.idsDrawn, world.supply.ids n = id
  members : ∀ member ∈ world.tables.memberships, ledger.AdmitsMember member
  grants : ∀ grant ∈ world.tables.grants, ledger.AdmitsGrant grant

/-- The empty ledger describes a world without records. -/
theorem Describes.empty {world : World} (hnone : world.tables.HasNoRecords) :
    Ledger.empty.Describes world where
  tenants := by simp [hnone.organizations]
  stored := by simp [Ledger.empty]
  scopes := by simp [hnone.roles]
  drawn := by simp [Ledger.empty]
  members := by simp [hnone.memberships]
  grants := by simp [hnone.grants]

/-- Requests that are no writes keep the agreement. -/
theorem Describes.quiet {world : World} {effect : Effect} (hread : effect.isWrite = false)
    (describes : ledger.Describes world) : ledger.Describes (World.perform effect world).2 := by
  have htables := world.perform_tables_of_not_write hread
  refine ⟨?_, ?_, ?_, ?_, ?_, ?_⟩
  · exact htables ▸ describes.tenants
  · exact htables ▸ describes.stored
  · exact htables ▸ describes.scopes
  · intro id scope hscope
    obtain ⟨n, hlt, heq⟩ := describes.drawn id scope hscope
    cases effect with
    | freshId => exact ⟨n, Nat.lt_succ_of_lt hlt, heq⟩
    | store call | clock | randomBytes | note => exact ⟨n, hlt, heq⟩
  · exact htables ▸ describes.members
  · exact htables ▸ describes.grants

/-- The outside has no say in the agreement. -/
theorem Describes.shift {world : World} {outside : Outside} (describes : ledger.Describes world) :
    ledger.Describes (world.withOutside outside) :=
  { describes with }

/-- The pact of the ledger, for worlds with distinct ids. -/
def pact : Pact Ledger where
  admits world := world.supply.DistinctIds
  holds := Describes
  quiet hread describes := describes.quiet hread
  shift describes := describes.shift

end Ledger
end Tenancy
