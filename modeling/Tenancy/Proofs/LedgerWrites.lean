import Tenancy.Proofs.Ledger

/-!
# Tenancy - Writes that agree with the ledger

A write that agrees with the ledger keeps the world in agreement with it,
whatever else happened since the writer read the records it writes.  A new
organization and a new role are entered into the ledger.

Main definitions:

- `Ledger.Permits`: the writes that agree with a ledger.

Main results:

- Theorem `Ledger.Describes.write`: permitted writes keep the agreement.
- Theorem `Ledger.write_upholds`: permitted writes uphold the pact of the ledger.
- Theorem `Ledger.freshId_upholds`: a fresh id may be given any scope.
-/

namespace Tenancy
namespace Ledger

variable {ledger : Ledger} {world : World}

/-- The writes that agree with a ledger. -/
def Permits (ledger : Ledger) : Call → Prop
  | .organizations (.update org) => ledger.tenantOf org.id = some org.tenantId
  | .memberships (.insert member _) => ledger.AdmitsMember member
  | .memberships (.applyChange change) => ∀ assignment ∈ change.added,
    ledger.AdmitsAssignment change.organizationId change.userId assignment
  | .roles (.create role) | .roles (.update role) => ledger.scopeOf role.id = some role.scope
  | .roles (.changeGrants added _) => ∀ grant ∈ added, ledger.AdmitsGrant grant
  | _ => True

/-- What agrees with a ledger agrees with a larger one. -/
theorem Permits.later {grown : Ledger} (hle : ledger ≤ grown) {call : Call}
    (hpermits : ledger.Permits call) : grown.Permits call := by
  match call, hpermits with
  | .organizations (.update org), hpermits => exact tenantOf_of_le hle hpermits
  | .memberships (.insert member _), hpermits => exact AdmitsMember.later hle hpermits
  | .memberships (.applyChange change), hpermits =>
    exact fun assignment hmem => (hpermits assignment hmem).later hle
  | .roles (.create role), hpermits => exact scopeOf_of_le hle hpermits
  | .roles (.update role), hpermits => exact scopeOf_of_le hle hpermits
  | .roles (.changeGrants added _), hpermits =>
    exact fun grant hmem => (hpermits grant hmem).later hle
  | .organizations (.create _), _ | .organizations (.findById _), _
  | .organizations (.findBySlug _ _), _ | .organizations (.findByDisplayName _ _), _
  | .organizations (.list _), _ | .memberships (.find _ _), _ | .memberships (.listForUser _), _
  | .memberships (.query _ _ _), _ | .memberships (.delete _ _), _ | .roles (.find _), _
  | .roles (.findMany _), _ | .roles (.findByName _ _ _), _ | .roles (.list _ _), _
  | .roles (.listAssignable _ _), _ | .roles (.delete _), _ | .roles (.grantsOf _), _
  | .invitations _, _ | .directory _, _ | .catalog _, _ => exact trivial

/-! ## Organizations -/

/-- A new organization is entered with its tenant. -/
theorem Describes.createOrganization (describes : ledger.Describes world) {org : Organization}
    (hnew : ∀ other ∈ world.tables.organizations, other.id ≠ org.id) :
    ∃ grown, ledger ≤ grown ∧ grown.Describes
      { world with
        tables :=
          { world.tables with organizations := world.tables.organizations ++ [org] } } := by
  have hfree : ledger.tenantOf org.id = none := by
    cases htenant : ledger.tenantOf org.id with
    | none => rfl
    | some tenantId =>
        obtain ⟨other, hother, heq⟩ := describes.stored org.id tenantId htenant
        exact absurd heq (hnew other hother)
  have hle : ledger ≤ ledger.enterTenant org.id org.tenantId := le_enterTenant hfree
  have hentry : (ledger.enterTenant org.id org.tenantId).tenantOf org.id = some org.tenantId := by
    simp [enterTenant]
  refine ⟨_, hle, ?_, ?_, ?_, ?_, ?_, ?_⟩
  · intro other hother
    rcases List.mem_append.1 hother with hother | hother
    · exact tenantOf_of_le hle (describes.tenants other hother)
    · rw [List.mem_singleton.1 hother]
      exact hentry
  · intro id tenantId htenant
    by_cases hid : id = org.id
    · exact ⟨org, by simp, hid.symm⟩
    · have hold : ledger.tenantOf id = some tenantId := by simpa [enterTenant, hid] using htenant
      obtain ⟨other, hother, heq⟩ := describes.stored id tenantId hold
      exact ⟨other, List.mem_append_left _ hother, heq⟩
  · exact fun role hrole => scopeOf_of_le hle (describes.scopes role hrole)
  · exact describes.drawn
  · exact fun member hmember => (describes.members member hmember).later hle
  · exact fun grant hgrant => (describes.grants grant hgrant).later hle

/-- A changed organization keeps its tenant. -/
theorem Describes.updateOrganization (describes : ledger.Describes world) {org : Organization}
    (hpermits : ledger.tenantOf org.id = some org.tenantId)
    (hstored : org.id ∈ world.tables.organizations.map (·.id)) :
    ledger.Describes
      { world with
        tables :=
          { world.tables with
            organizations := Tables.put (·.id) org world.tables.organizations } } :=
  { describes with
    tenants := by
      intro other hother
      rcases Tables.mem_put hother with rfl | hother
      · exact hpermits
      · exact describes.tenants other hother
    stored := by
      intro id tenantId htenant
      obtain ⟨other, hother, heq⟩ := describes.stored id tenantId htenant
      have hids : (Tables.put (·.id) org world.tables.organizations).map (·.id) =
          world.tables.organizations.map (·.id) := Tables.map_key_put hstored
      have hmem : id ∈ (Tables.put (·.id) org world.tables.organizations).map (·.id) := by
        rw [hids, ← heq]
        exact List.mem_map_of_mem hother
      simpa using hmem }

/-! ## Memberships -/

/-- Withdrawing primary flags keeps memberships in agreement. -/
theorem AdmitsMember.withdrawPrimary {member : Membership} (hadmits : ledger.AdmitsMember member)
    (keptOrganizationId userId : String) (tenantId : Option String) (now : Nat) :
    ledger.AdmitsMember (member.withdrawPrimary keptOrganizationId userId tenantId now) := by
  rw [Membership.withdrawPrimary_eq]
  exact ⟨hadmits.tenant, hadmits.assignments, hadmits.distinct⟩

/-- A change whose new assignments agree with the ledger keeps a membership in agreement. -/
theorem AdmitsMember.applyChange {member : Membership} (hadmits : ledger.AdmitsMember member)
    {change : Membership.Change}
    (hkey : member.key = (change.organizationId, change.userId))
    (hadded : ∀ assignment ∈ change.added,
      ledger.AdmitsAssignment change.organizationId change.userId assignment) :
    ledger.AdmitsMember (member.applyChange change) where
  tenant := hadmits.tenant
  assignments := by
    intro assignment hmem
    have horg : member.organizationId = change.organizationId := (Prod.ext_iff.1 hkey).1
    have huser : member.userId = change.userId := (Prod.ext_iff.1 hkey).2
    rcases Membership.mem_reassign hmem with hold | hnew
    · exact hadmits.assignments assignment hold
    · change ledger.AdmitsAssignment member.organizationId member.userId assignment
      rw [horg, huser]
      exact hadded assignment hnew
  distinct := Membership.nodup_reassign hadmits.distinct _ _

/-- Other memberships that agree with the ledger may be stored. -/
theorem Describes.withMemberships (describes : ledger.Describes world)
    {memberships : List Membership} (writes : Nat)
    (hmembers : ∀ member ∈ memberships, ledger.AdmitsMember member) :
    ledger.Describes
      { world with
        tables :=
          { world.tables with memberships := memberships, membershipWrites := writes } } :=
  { describes with members := hmembers }

/-- Permitted writes to memberships keep the agreement. -/
theorem Describes.writeMembership (describes : ledger.Describes world) {call : MembershipCall}
    (hpermits : ledger.Permits (.memberships call)) :
    ledger.Describes (world.callStore (.memberships call)).2 := by
  have hcleared : ∀ organizationId userId tenantId now, ∀ member ∈
      Tables.clearOthers world.tables.memberships organizationId userId tenantId now,
      ledger.AdmitsMember member := by
    intro organizationId userId tenantId now member hmember
    obtain ⟨before, hbefore, rfl⟩ := List.mem_map.1 hmember
    exact (describes.members before hbefore).withdrawPrimary _ _ _ _
  cases call with
  | find | listForUser | query => exact describes
  | insert member clearsOthers =>
      simp only [World.callStore, Tables.perform, Tables.performMembership]
      split
      · exact describes
      · refine describes.withMemberships _ fun other hother => ?_
        rcases List.mem_append.1 hother with hother | hother
        · split at hother
          · exact hcleared _ _ _ _ other hother
          · exact describes.members other hother
        · rw [List.mem_singleton.1 hother]
          exact hpermits
  | applyChange change =>
      simp only [World.callStore, Tables.perform, Tables.performMembership]
      split
      · exact describes
      · rename_i member hfind
        obtain ⟨hmember, hkey⟩ := Tables.find_isMemberOf hfind
        refine describes.withMemberships _ fun other hother => ?_
        rcases Tables.mem_put hother with rfl | hother
        · exact (describes.members member hmember).applyChange hkey hpermits
        · split at hother
          · exact hcleared _ _ _ _ other hother
          · exact describes.members other hother
  | delete organizationId userId =>
      simp only [World.callStore, Tables.perform, Tables.performMembership]
      split
      · exact describes.withMemberships _ fun other hother =>
          describes.members other (List.mem_of_mem_filter hother)
      · exact describes

/-! ## Roles and grants -/

/-- Other roles and grants that agree with the ledger may be stored. -/
theorem Describes.withRoles (describes : ledger.Describes world) {roles : List Role}
    {grants : List Grant} (writes : Nat)
    (hroles : ∀ role ∈ roles, ledger.scopeOf role.id = some role.scope)
    (hgrants : ∀ grant ∈ grants, ledger.AdmitsGrant grant) :
    ledger.Describes
      { world with
        tables :=
          { world.tables with roles := roles, grants := grants, grantWrites := writes } } :=
  { describes with scopes := hroles, grants := hgrants }

/-- Permitted writes to roles and grants keep the agreement. -/
theorem Describes.writeRole (describes : ledger.Describes world) {call : RoleCall}
    (hpermits : ledger.Permits (.roles call)) :
    ledger.Describes (world.callStore (.roles call)).2 := by
  cases call with
  | find | findMany | findByName | list | listAssignable | grantsOf => exact describes
  | create role =>
      simp only [World.callStore, Tables.perform, Tables.performRole]
      split
      · exact describes
      · split
        · exact describes
        · refine describes.withRoles world.tables.grantWrites (fun other hother => ?_)
            describes.grants
          rcases List.mem_append.1 hother with hother | hother
          · exact describes.scopes other hother
          · rw [List.mem_singleton.1 hother]
            exact hpermits
  | update role =>
      simp only [World.callStore, Tables.perform, Tables.performRole]
      split
      · exact describes
      · split
        · refine describes.withRoles world.tables.grantWrites (fun other hother => ?_)
            describes.grants
          rcases Tables.mem_put hother with rfl | hother
          · exact hpermits
          · exact describes.scopes other hother
        · exact describes
  | delete roleId =>
      exact describes.withRoles world.tables.grantWrites
        (fun role hrole => describes.scopes role (List.mem_of_mem_filter hrole))
        (fun grant hgrant => describes.grants grant (List.mem_of_mem_filter hgrant))
  | changeGrants added removedIds =>
      simp only [World.callStore, Tables.perform, Tables.performRole]
      split
      · exact describes
      · rename_i grants hadd
        refine describes.withRoles _ describes.scopes fun grant hgrant => ?_
        rw [Tables.eq_append_of_addGrants hadd] at hgrant
        rcases List.mem_append.1 hgrant with hgrant | hgrant
        · exact describes.grants grant (List.mem_of_mem_filter hgrant)
        · exact hpermits grant hgrant

/-! ## All writes -/

/-- Writes to invitations keep the agreement. -/
theorem Describes.writeInvitation (describes : ledger.Describes world) (call : InvitationCall) :
    ledger.Describes (world.callStore (.invitations call)).2 := by
  cases call with
  | create invitation =>
      simp only [World.callStore, Tables.perform, Tables.performInvitation]
      split
      · exact describes
      · exact { describes with }
  | delete | deleteExpired => exact { describes with }
  | findByCode | findForEmail | listForOrganization => exact describes

/-- Permitted writes keep the agreement, with new organizations entered. -/
theorem Describes.write (describes : ledger.Describes world) {call : Call}
    (hpermits : ledger.Permits call) :
    ∃ grown, ledger ≤ grown ∧ grown.Describes (world.callStore call).2 := by
  by_cases hread : call.isWrite = false
  · exact ⟨ledger, le_rfl, describes.quiet (show (Effect.store call).isWrite = false from hread)⟩
  · cases call with
    | organizations call =>
        cases call with
        | create org =>
            simp only [World.callStore, Tables.perform, Tables.performOrganization]
            split
            · exact ⟨ledger, le_rfl, describes⟩
            · rename_i hnew
              split
              · exact ⟨ledger, le_rfl, describes⟩
              · exact describes.createOrganization (by simpa using hnew)
        | update org =>
            simp only [World.callStore, Tables.perform, Tables.performOrganization]
            split
            · exact ⟨ledger, le_rfl, describes⟩
            · split
              · rename_i hstored
                have hmem : org.id ∈ world.tables.organizations.map (·.id) := by
                  simpa using hstored
                exact ⟨ledger, le_rfl, describes.updateOrganization hpermits hmem⟩
              · exact ⟨ledger, le_rfl, describes⟩
        | findById | findBySlug | findByDisplayName | list => exact absurd rfl hread
    | memberships call => exact ⟨ledger, le_rfl, describes.writeMembership hpermits⟩
    | roles call => exact ⟨ledger, le_rfl, describes.writeRole hpermits⟩
    | invitations call => exact ⟨ledger, le_rfl, describes.writeInvitation call⟩
    | directory call => exact absurd rfl hread
    | catalog call => exact absurd rfl hread

/-! ## Requests that uphold the pact -/

variable {α : Type} {known : Ledger}

/-- Requests that are no writes keep the pact of the ledger. -/
theorem quiet (effect : Effect) (hread : effect.isWrite = false) : pact.Keeps effect :=
  pact.keeps_quiet effect hread

/-- Removing memberships keeps the pact of the ledger. -/
theorem keeps_deleteMembership (organizationId userId : String) :
    pact.Keeps (.store (.memberships (.delete organizationId userId))) :=
  fun _ _ describes => Describes.writeMembership describes trivial

/-- Removing roles keeps the pact of the ledger. -/
theorem keeps_deleteRole (roleId : String) : pact.Keeps (.store (.roles (.delete roleId))) :=
  fun _ _ describes => Describes.writeRole describes trivial

/-- Writes to invitations keep the pact of the ledger. -/
theorem keeps_invitations (call : InvitationCall) : pact.Keeps (.store (.invitations call)) :=
  fun _ _ describes => Describes.writeInvitation describes call

/-- A call that is no write upholds the pact of the ledger, and its answer may rely on it. -/
theorem read_upholds (call : Call) {wanted : Ledger → call.Answer → Prop}
    (hread : call.isWrite = false)
    (hwanted : ∀ later world, later.Describes world → ∀ answer,
      (world.tables.perform call).1 = .ok answer → ∀ last, later ≤ last → wanted last answer) :
    (Action.ask call).Upholds pact wanted known :=
  .read hread fun later world _ describes _ => hwanted later world describes

/-- Permitted writes uphold the pact of the ledger. -/
theorem write_upholds (call : Call) (hpermits : known.Permits call) :
    (Action.ask call).Upholds pact (fun _ _ => True) known := by
  refine .ask fun later world hlater describes _ => ?_
  obtain ⟨grown, hle, hgrown⟩ := Describes.write describes (hpermits.later hlater)
  exact ⟨grown, hle, hgrown, fun _ _ _ _ => trivial⟩

/-- A fresh id may be given any scope. -/
theorem freshId_upholds (scope : Role.Scope) :
    Action.freshId.Upholds pact (fun later id => later.scopeOf id = some scope) known := by
  refine .freshId fun later world _ describes admitted => ?_
  have hfree : later.scopeOf (world.supply.ids world.supply.idsDrawn) = none := by
    cases hscope : later.scopeOf (world.supply.ids world.supply.idsDrawn) with
    | none => rfl
    | some old =>
        obtain ⟨n, hlt, heq⟩ := describes.drawn _ old hscope
        have hsame : n = world.supply.idsDrawn :=
          admitted n world.supply.idsDrawn (Nat.lt_succ_of_lt hlt) (Nat.lt_succ_self _) heq
        omega
  have hle : later ≤ later.enterScope (world.supply.ids world.supply.idsDrawn) scope :=
    le_enterScope hfree
  refine ⟨_, hle, ⟨?_, ?_, ?_, ?_, ?_, ?_⟩, fun last hlast => scopeOf_of_le hlast ?_⟩
  · exact describes.tenants
  · exact describes.stored
  · exact fun role hrole => scopeOf_of_le hle (describes.scopes role hrole)
  · intro id entry hentry
    by_cases hid : id = world.supply.ids world.supply.idsDrawn
    · exact ⟨world.supply.idsDrawn, Nat.lt_succ_self _, hid.symm⟩
    · have hold : later.scopeOf id = some entry := by simpa [enterScope, hid] using hentry
      obtain ⟨n, hlt, heq⟩ := describes.drawn id entry hold
      exact ⟨n, Nat.lt_succ_of_lt hlt, heq⟩
  · exact fun member hmember => (describes.members member hmember).later hle
  · exact fun grant hgrant => (describes.grants grant hgrant).later hle
  · simp [enterScope, World.drawId]

end Ledger
end Tenancy
