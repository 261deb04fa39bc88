import Tenancy.Proofs.PermissionViews

/-!
# Tenancy - Grants at one scope

What a role is granted at one scope is replaced as a whole, but only the difference
is written.  This works because of what is true of the stored grants: no two of them
give the same permission of a role at a scope, and all of a role's grants at a scope
carry the tenant that the scope has.

Main definitions:

- `Tables.grantsAt`, `Tables.assignedAt`: what a role is granted at exactly one scope.
- `Tables.Grantable`: the scopes at which a role may be granted permissions.
- `Tables.IsSoundAt`: what is true of the grants at a scope.
- `Tables.Settled`: tables before and after the grants at a scope were replaced.

Main results:

- Theorem `Regime.Reaches.hasDistinctGrants`: in every reachable world, no two grants
  are the same.
- Theorem `Ledger.Describes.isSoundAt`: grants are sound at every scope.
- Theorem `Tables.Settled.mem_assignedAt`, `Tables.Settled.others`,
  `Tables.Settled.eq_of_survives`: what is assigned after a replacement, and what is
  left alone.
-/

namespace Tenancy

/-! ## Distinct grants -/

/-- What a grant gives: a permission of a role, at an organization and a tenant. -/
def Grant.given (grant : Grant) : String × String × Option String × Option String :=
  (grant.roleId, grant.permissionId, grant.organizationId, grant.tenantId)

/-- Two grants are the same if they give the same. -/
theorem Grant.sameGrant_of_given_eq {a b : Grant} (hsame : a.given = b.given) :
    a.sameGrant b = true := by
  simp only [Grant.given, Prod.mk.injEq] at hsame
  simp [Grant.sameGrant, hsame]

namespace Tables

/-- No two grants give the same. -/
def HasDistinctGrants (tables : Tables) : Prop :=
  (tables.grants.map Grant.given).Nodup

/-- A call removes grants and adds others without conflict; most do neither. -/
theorem grants_perform (tables : Tables) (call : Call) :
    ∃ (keep : Grant → Bool) (added : List Grant),
      addGrants (tables.grants.filter keep) added = some (tables.perform call).2.grants := by
  have hsame : (tables.perform call).2.grants = tables.grants →
      ∃ (keep : Grant → Bool) (added : List Grant),
        addGrants (tables.grants.filter keep) added = some (tables.perform call).2.grants := by
    intro hgrants
    refine ⟨fun _ => true, [], ?_⟩
    rw [hgrants, List.filter_true]
    rfl
  cases call with
  | roles call =>
      cases call with
      | changeGrants added removedIds =>
          cases hadd : addGrants (tables.grants.filter (!removedIds.contains ·.id)) added with
          | none => exact hsame (by simp only [perform, performRole, hadd])
          | some grants =>
              exact ⟨(!removedIds.contains ·.id), added, by simp only [perform, performRole, hadd]⟩
      | delete roleId => exact ⟨(·.roleId != roleId), [], rfl⟩
      | create | update =>
          refine hsame ?_
          simp only [perform, performRole]
          split <;> try split
          all_goals rfl
      | find | findMany | findByName | list | listAssignable | grantsOf => exact hsame rfl
  | organizations call =>
      obtain ⟨_, hframe⟩ := tables.performOrganization_frame call
      exact hsame (by rw [hframe])
  | memberships call =>
      obtain ⟨_, _, hframe⟩ := tables.performMembership_frame call
      exact hsame (by rw [hframe])
  | invitations call =>
      obtain ⟨_, hframe⟩ := tables.performInvitation_frame call
      exact hsame (by rw [hframe])
  | directory call | catalog call =>
      exact hsame (congrArg Tables.grants (tables.perform_of_not_write rfl))

/-- The store keeps grants distinct, whatever it is asked. -/
theorem HasDistinctGrants.perform {tables : Tables} (distinct : tables.HasDistinctGrants)
    (call : Call) : (tables.perform call).2.HasDistinctGrants := by
  obtain ⟨keep, added, hadd⟩ := tables.grants_perform call
  have hconflict : ∀ a b : Grant, a.given = b.given → (a.id == b.id || a.sameGrant b) = true := by
    intro a b hsame
    rw [Grant.sameGrant_of_given_eq hsame, Bool.or_true]
  exact nodup_map_of_addGrants hconflict hadd (nodup_map_filter distinct keep)

end Tables

/-- In every reachable world, no two grants are the same. -/
theorem Regime.Reaches.hasDistinctGrants {regime : Regime} {world : World} {config : Configuration}
    (starts : regime.Starts world) (reaches : regime.Reaches world config) :
    config.world.tables.HasDistinctGrants := by
  refine @Regime.Reaches.invariant_of_writes regime (fun world => world.tables.HasDistinctGrants)
    world config reaches ?_ ?_ ?_ ?_
  · unfold Tables.HasDistinctGrants
    rw [starts.noRecords.grants]
    exact List.nodup_nil
  · intro operation call world _ distinct
    exact distinct.perform call
  · intro effect world hread distinct
    rw [world.perform_tables_of_not_write hread]
    exact distinct
  · intro outside world distinct
    exact distinct

/-! ## What is granted at a scope -/

namespace Tables

/-- The grants of a role at exactly one scope. -/
def grantsAt (tables : Tables) (roleId : String) (scope : Option String) : List Grant :=
  tables.grants.filter fun grant => grant.roleId == roleId && grant.organizationId == scope

/-- The ids of the permissions that a role is granted at exactly one scope. -/
def assignedAt (tables : Tables) (roleId : String) (scope : Option String) : List String :=
  (tables.grantsAt roleId scope).map (·.permissionId)

/-- A role may be granted permissions at a scope, by grants of the tenant: everywhere if it is a
template, and in an organization that it fits. -/
inductive Grantable (tables : Tables) (role : Role) : Option String → Option String → Prop
  | everywhere (template : role.isTemplate = true) : Grantable tables role none role.tenantId
  | inOrganization {org : Organization} {organizationId : String}
      (found : tables.organizations.find? (·.id == organizationId) = some org)
      (fits : role.fits org = true) : Grantable tables role (some organizationId) org.tenantId

/-- The grants of a role at a scope have the tenant of the scope, each gives another permission, and
they can be told from all other grants by their ids. -/
structure IsSoundAt (tables : Tables) (roleId : String) (scope tenantId : Option String) :
    Prop where
  tenants : ∀ grant ∈ tables.grantsAt roleId scope, grant.tenantId = tenantId
  distinct : (tables.assignedAt roleId scope).Nodup
  ids : (tables.grants.map (·.id)).Nodup

variable {tables : Tables} {roleId : String} {scope tenantId : Option String}

theorem mem_grantsAt {grant : Grant} :
    grant ∈ tables.grantsAt roleId scope ↔
      grant ∈ tables.grants ∧ grant.roleId = roleId ∧ grant.organizationId = scope := by
  simp [grantsAt]

/-- Where no two grants are the same, grants at a scope that have one tenant give different
permissions. -/
theorem HasDistinctGrants.nodup_assignedAt (distinct : tables.HasDistinctGrants)
    (htenants : ∀ grant ∈ tables.grantsAt roleId scope, grant.tenantId = tenantId) :
    (tables.assignedAt roleId scope).Nodup := by
  have hgiven : (tables.assignedAt roleId scope).map (fun id => (roleId, id, scope, tenantId)) =
      (tables.grantsAt roleId scope).map Grant.given := by
    rw [assignedAt, List.map_map]
    refine List.map_congr_left fun grant hmem => ?_
    obtain ⟨-, hrole, hscope⟩ := mem_grantsAt.1 hmem
    simp only [Function.comp_apply, Grant.given, hrole, hscope, htenants grant hmem]
  refine List.Nodup.of_map (fun id => (roleId, id, scope, tenantId)) ?_
  rw [hgiven]
  exact nodup_map_filter distinct _

end Tables

namespace Ledger.Describes

variable {ledger : Ledger} {world : World} {role : Role} {scope tenantId : Option String}

/-- Where a role may be granted permissions, all of its grants have the tenant of the scope. -/
theorem tenantId_of_mem_grantsAt (describes : ledger.Describes world)
    (hrole : role ∈ world.tables.roles) (grantable : world.tables.Grantable role scope tenantId)
    {grant : Grant} (hmem : grant ∈ world.tables.grantsAt role.id scope) :
    grant.tenantId = tenantId := by
  obtain ⟨hgrant, hroleId, hscope⟩ := Tables.mem_grantsAt.1 hmem
  obtain ⟨known, hknown, hgranted⟩ := (describes.grants grant hgrant).granted
  rw [hroleId, describes.scopes role hrole] at hknown
  rw [← Option.some.inj hknown, hscope] at hgranted
  cases grantable with
  | everywhere template => exact hgranted.2.symm
  | @inOrganization org organizationId found fits =>
      have hid : org.id = organizationId := Tables.key_of_find found
      have htenant := describes.tenants org (List.mem_of_find?_eq_some found)
      rw [hid, hgranted.1] at htenant
      exact Option.some.inj htenant

/-- The grants of a stored role are sound at every scope at which it may have some. -/
theorem isSoundAt (describes : ledger.Describes world) (keys : world.tables.HasDistinctKeys)
    (distinct : world.tables.HasDistinctGrants) (hrole : role ∈ world.tables.roles)
    (grantable : world.tables.Grantable role scope tenantId) :
    world.tables.IsSoundAt role.id scope tenantId := by
  have htenants : ∀ grant ∈ world.tables.grantsAt role.id scope, grant.tenantId = tenantId :=
    fun _ hmem => describes.tenantId_of_mem_grantsAt hrole grantable hmem
  exact ⟨htenants, distinct.nodup_assignedAt htenants, keys.grants⟩

end Ledger.Describes

/-! ## Replacing what is granted at a scope -/

namespace Tables

/-- The wanted permissions that a role is not granted at a scope. -/
def missingAt (tables : Tables) (roleId : String) (scope : Option String) (wanted : List String) :
    List String :=
  wanted.filter (!(tables.assignedAt roleId scope).contains ·)

/-- Whether a grant is one of a role at a scope that gives a permission which is not wanted. -/
def isSurplus (roleId : String) (scope : Option String) (wanted : List String) (grant : Grant) :
    Bool :=
  grant.roleId == roleId && grant.organizationId == scope && !wanted.contains grant.permissionId

/-- The grants of a role at a scope were replaced: those that give no wanted permission are gone,
and there are new ones for the missing permissions. -/
structure Settled (before after : Tables) (roleId : String) (scope tenantId : Option String)
    (wanted : List String) : Prop where
  frame : after = { before with grants := after.grants, grantWrites := after.grantWrites }
  grants : ∃ added, after.grants =
      before.grants.filter (!isSurplus roleId scope wanted ·) ++ added ∧
    added.map (·.permissionId) = before.missingAt roleId scope wanted ∧
    ∀ grant ∈ added, grant.roleId = roleId ∧ grant.organizationId = scope ∧
      grant.tenantId = tenantId
  ids : (after.grants.map (·.id)).Nodup

namespace Settled

variable {before after : Tables} {roleId : String} {scope tenantId : Option String}
  {wanted : List String}

/-- After a replacement, the grants at the scope are the old ones that give a wanted permission, and
new ones for the missing permissions. -/
theorem grantsAt_eq (settled : Settled before after roleId scope tenantId wanted) :
    ∃ added, after.grantsAt roleId scope =
        (before.grantsAt roleId scope).filter (wanted.contains ·.permissionId) ++ added ∧
      added.map (·.permissionId) = before.missingAt roleId scope wanted ∧
      ∀ grant ∈ added, grant.tenantId = tenantId := by
  obtain ⟨added, hgrants, hmissing, hadded⟩ := settled.grants
  refine ⟨added, ?_, hmissing, fun grant hmem => (hadded grant hmem).2.2⟩
  have hnew : added.filter (fun grant => grant.roleId == roleId && grant.organizationId == scope) =
      added := by
    rw [List.filter_eq_self]
    intro grant hmem
    obtain ⟨hrole, hscope, -⟩ := hadded grant hmem
    simp [hrole, hscope]
  rw [grantsAt, hgrants, List.filter_append, hnew, grantsAt, List.filter_filter, List.filter_filter]
  congr 1
  refine List.filter_congr fun grant _ => ?_
  cases hat : grant.roleId == roleId && grant.organizationId == scope <;> simp [isSurplus, hat]

/-- After a replacement, exactly the wanted permissions are assigned. -/
theorem mem_assignedAt (settled : Settled before after roleId scope tenantId wanted)
    {permissionId : String} :
    permissionId ∈ after.assignedAt roleId scope ↔ permissionId ∈ wanted := by
  obtain ⟨added, hgrants, hmissing, -⟩ := settled.grantsAt_eq
  rw [assignedAt, hgrants, List.map_append, hmissing, List.mem_append]
  have hkept : permissionId ∈ ((before.grantsAt roleId scope).filter
      (wanted.contains ·.permissionId)).map (·.permissionId) ↔
      permissionId ∈ before.assignedAt roleId scope ∧ permissionId ∈ wanted := by
    simp only [List.mem_map, List.mem_filter, List.contains_iff_mem, assignedAt]
    constructor
    · rintro ⟨grant, ⟨hmem, hwanted⟩, rfl⟩
      exact ⟨⟨grant, hmem, rfl⟩, hwanted⟩
    · rintro ⟨⟨grant, hmem, rfl⟩, hwanted⟩
      exact ⟨grant, ⟨hmem, hwanted⟩, rfl⟩
  rw [hkept]
  simp only [missingAt, List.mem_filter, Bool.not_eq_true', ← Bool.not_eq_true,
    List.contains_iff_mem]
  tauto

/-- A replacement leaves all grants alone that are not at the scope. -/
theorem others (settled : Settled before after roleId scope tenantId wanted) :
    after.grants.filter (fun grant => !(grant.roleId == roleId && grant.organizationId == scope)) =
      before.grants.filter
        (fun grant => !(grant.roleId == roleId && grant.organizationId == scope)) := by
  obtain ⟨added, hgrants, -, hadded⟩ := settled.grants
  have hnew : added.filter
      (fun grant => !(grant.roleId == roleId && grant.organizationId == scope)) = [] := by
    rw [List.filter_eq_nil_iff]
    intro grant hmem
    obtain ⟨hrole, hscope, -⟩ := hadded grant hmem
    simp [hrole, hscope]
  rw [hgrants, List.filter_append, hnew, List.append_nil, List.filter_filter]
  refine List.filter_congr fun grant _ => ?_
  cases hat : grant.roleId == roleId && grant.organizationId == scope <;> simp [isSurplus, hat]

/-- A permission that stays assigned at the scope keeps its grant. -/
theorem eq_of_survives (settled : Settled before after roleId scope tenantId wanted)
    (sound : before.IsSoundAt roleId scope tenantId) {old new : Grant}
    (hold : old ∈ before.grantsAt roleId scope) (hnew : new ∈ after.grantsAt roleId scope)
    (hsame : new.permissionId = old.permissionId) : new = old := by
  obtain ⟨added, hgrants, hmissing, -⟩ := settled.grantsAt_eq
  rw [hgrants] at hnew
  rcases List.mem_append.1 hnew with hkept | hadded
  · exact eq_of_key_eq sound.distinct (List.mem_of_mem_filter hkept) hold hsame
  · -- A new grant would give a permission that was not assigned.
    have hmem : new.permissionId ∈ before.missingAt roleId scope wanted := by
      rw [← hmissing]
      exact List.mem_map_of_mem hadded
    have hassigned : old.permissionId ∈ before.assignedAt roleId scope := List.mem_map_of_mem hold
    simp [missingAt, hsame, hassigned] at hmem

/-- After a replacement the grants at the scope are sound again. -/
theorem isSoundAt (settled : Settled before after roleId scope tenantId wanted)
    (sound : before.IsSoundAt roleId scope tenantId) (hwanted : wanted.Nodup) :
    after.IsSoundAt roleId scope tenantId := by
  obtain ⟨added, hgrants, hmissing, hadded⟩ := settled.grantsAt_eq
  refine ⟨?_, ?_, settled.ids⟩
  · intro grant hmem
    rw [hgrants] at hmem
    rcases List.mem_append.1 hmem with hkept | hnew
    · exact sound.tenants grant (List.mem_of_mem_filter hkept)
    · exact hadded grant hnew
  · rw [assignedAt, hgrants, List.map_append, hmissing, List.nodup_append]
    refine ⟨nodup_map_filter sound.distinct _, hwanted.filter _, ?_⟩
    rintro old hold new hnew rfl
    have hassigned : old ∈ before.assignedAt roleId scope :=
      (List.filter_sublist.map _).subset hold
    simp [missingAt, hassigned] at hnew

end Settled
end Tables
end Tenancy
