import Mathlib.Data.List.Forall2
import Tenancy.Proofs.PermissionViews

/-!
# Tenancy - Writes that spare an organization

A write on behalf of one organization can reach another in one intended way: when
a user becomes primary somewhere, the user's other primary memberships in the
tenant lose their flag.  This file says what it means that nothing else about an
organization changes, and which writes are of that kind.

Main definitions:

- `Membership.KeptOrWithdrawn`: a membership before and after, equal but for a
  primary flag that was withdrawn.
- `Tables.Spares`: tables before and after, with an organization spared.

Main results:

- Theorem `Tables.Spares.resolved`: what is resolved for the users of a spared
  organization is the same as before.
- Theorem `Tables.Spares.insertMembership`, `Tables.Spares.changeGrants` and the
  like: the writes that spare an organization.
-/

namespace Tenancy

/-! ## Memberships before and after -/

/-- A membership is as it was, or has lost its primary flag where users may in a tenant. -/
inductive Membership.KeptOrWithdrawn (mayLose : String → Option String → Prop) :
    Membership → Membership → Prop
  | kept (member : Membership) : KeptOrWithdrawn mayLose member member
  | withdrawn (member : Membership) (now : Nat) (primary : member.isPrimary = true)
      (may : mayLose member.userId member.tenantId) :
      KeptOrWithdrawn mayLose member { member with isPrimary := false, updatedAt := now }

namespace Membership.KeptOrWithdrawn

variable {mayLose : String → Option String → Prop} {before after : Membership}

theorem userId (hkept : KeptOrWithdrawn mayLose before after) : after.userId = before.userId := by
  cases hkept <;> rfl

theorem tenantId (hkept : KeptOrWithdrawn mayLose before after) :
    after.tenantId = before.tenantId := by
  cases hkept <;> rfl

theorem roles (hkept : KeptOrWithdrawn mayLose before after) : after.roles = before.roles := by
  cases hkept <;> rfl

/-- Withdrawing flags that may be lost keeps all else. -/
theorem withdrawPrimary (hkept : KeptOrWithdrawn mayLose before after) {userId : String}
    {tenantId : Option String} (hmay : mayLose userId tenantId) (keptOrganizationId : String)
    (now : Nat) :
    KeptOrWithdrawn mayLose before
      (after.withdrawPrimary keptOrganizationId userId tenantId now) := by
  unfold Membership.withdrawPrimary
  split
  · rename_i hcond
    obtain ⟨huser, -, htenant, hprimary⟩ := hcond
    cases hkept with
    | kept =>
        subst huser htenant
        exact .withdrawn before now hprimary hmay
    | withdrawn => cases hprimary
  · exact hkept

end Membership.KeptOrWithdrawn

namespace Tables

/-- The memberships of an organization. -/
def membersOf (tables : Tables) (organizationId : String) : List Membership :=
  tables.memberships.filter (·.organizationId == organizationId)

/-- The invitations to an organization. -/
def invitationsOf (tables : Tables) (organizationId : String) : List Invitation :=
  tables.invitations.filter (·.organizationId == organizationId)

/-- A role is assigned to a member of an organization. -/
def IsAssignedIn (tables : Tables) (organizationId roleId : String) : Prop :=
  ∃ member ∈ tables.membersOf organizationId, roleId ∈ Text.distinctTrimmed member.roleIds

/-- Between two states, an organization keeps its invitations, its members but for primary flags
that may be lost, and all that its members hold. -/
structure Spares (organizationId : String) (mayLose : String → Option String → Prop)
    (before after : Tables) : Prop where
  members : List.Forall₂ (Membership.KeptOrWithdrawn mayLose) (before.membersOf organizationId)
    (after.membersOf organizationId)
  roles : ∀ roleId, before.IsAssignedIn organizationId roleId →
    (roleId ∈ after.roles.map (·.id) ↔ roleId ∈ before.roles.map (·.id))
  grants : ∀ sees : Grant → Bool,
    (∀ grant, sees grant = true → before.IsAssignedIn organizationId grant.roleId ∧
      grant.visibleToOrganization organizationId = true) →
    after.grants.filter sees = before.grants.filter sees
  invitations : after.invitationsOf organizationId = before.invitationsOf organizationId
  catalog : after.catalog = before.catalog
  available : after.catalogAvailable = before.catalogAvailable

/-! ## What is resolved in a spared organization -/

/-- A membership is looked up among those of the organization. -/
theorem find_isMemberOf_eq (tables : Tables) (organizationId userId : String) :
    tables.memberships.find? (isMemberOf organizationId userId) =
      (tables.membersOf organizationId).find? (·.userId == userId) := by
  rw [membersOf, List.find?_filter]
  congr 1
  funext member
  simp [isMemberOf, beq_eq_decide]

/-- The live roles of a membership are the assigned ones with the id of a stored role. -/
theorem liveRoleIds_eq_filter (tables : Tables) (member : Membership) :
    tables.liveRoleIds member = (Text.distinctTrimmed member.roleIds).filter
      fun roleId => (tables.roles.map (·.id)).contains roleId := by
  unfold liveRoleIds
  induction Text.distinctTrimmed member.roleIds with
  | nil => rfl
  | cons roleId rest ih =>
      cases hfind : tables.roles.find? (·.id == roleId) with
      | none =>
          have hmissing : (tables.roles.map (·.id)).contains roleId = false := by
            simpa [List.find?_eq_none] using hfind
          rw [List.filterMap_cons, hfind, List.filter_cons_of_neg (ne_true_of_eq_false hmissing)]
          exact ih
      | some role =>
          have hid : role.id = roleId := Tables.key_of_find hfind
          have hstored : (tables.roles.map (·.id)).contains roleId = true := by
            rw [List.contains_iff_mem, ← hid]
            exact List.mem_map_of_mem (List.mem_of_find?_eq_some hfind)
          rw [List.filterMap_cons, hfind, List.filter_cons_of_pos hstored, List.map_cons, ih, hid]

/-- The ids that a member holds, as the grants seen through live roles. -/
theorem heldIds_eq_filter (tables : Tables) (organizationId : String) (member : Membership) :
    tables.heldIds organizationId member = Text.distinctTrimmed ((tables.grants.filter fun grant =>
      (tables.liveRoleIds member).contains grant.roleId &&
        grant.visibleToOrganization organizationId &&
        grant.visibleToTenant member.tenantId).map (·.permissionId)) := by
  unfold heldIds Grant.visibleToMember
  dsimp only
  rw [List.filter_filter]
  congr 2
  refine List.filter_congr fun grant _ => ?_
  cases (tables.liveRoleIds member).contains grant.roleId <;> simp

/-- In lists of memberships before and after, the same users are found. -/
theorem find_of_forall₂ {mayLose : String → Option String → Prop} {before after : List Membership}
    (hmembers : List.Forall₂ (Membership.KeptOrWithdrawn mayLose) before after) (userId : String) :
    before.find? (·.userId == userId) = none ∧ after.find? (·.userId == userId) = none ∨
      ∃ old new, before.find? (·.userId == userId) = some old ∧
        after.find? (·.userId == userId) = some new ∧
        Membership.KeptOrWithdrawn mayLose old new := by
  induction hmembers with
  | nil => exact .inl ⟨rfl, rfl⟩
  | @cons a b _ _ hkept _ ih =>
      rw [List.find?_cons, List.find?_cons, hkept.userId]
      cases a.userId == userId with
      | false => exact ih
      | true => exact .inr ⟨a, b, rfl, rfl, hkept⟩

namespace Spares

variable {organizationId : String} {mayLose : String → Option String → Prop}
  {before after : Tables}

/-- Tables spare every organization of theirs. -/
theorem refl (tables : Tables) : tables.Spares organizationId mayLose tables where
  members := List.forall₂_same.2 fun member _ => .kept member
  roles _ _ := .rfl
  grants _ _ := rfl
  invitations := rfl
  catalog := rfl
  available := rfl

/-- A member of a spared organization holds what it held. -/
theorem heldIds (spares : before.Spares organizationId mayLose after) {old new : Membership}
    (hmember : old ∈ before.membersOf organizationId)
    (hkept : Membership.KeptOrWithdrawn mayLose old new) :
    after.heldIds organizationId new = before.heldIds organizationId old := by
  have hids : new.roleIds = old.roleIds := by
    unfold Membership.roleIds
    rw [hkept.roles]
  have hlive : after.liveRoleIds new = before.liveRoleIds old := by
    rw [liveRoleIds_eq_filter, liveRoleIds_eq_filter, hids]
    refine List.filter_congr fun roleId hassigned => ?_
    have hstored := spares.roles roleId ⟨old, hmember, hassigned⟩
    rw [Bool.eq_iff_iff, List.contains_iff_mem, List.contains_iff_mem]
    exact hstored
  rw [heldIds_eq_filter, heldIds_eq_filter, hlive, hkept.tenantId]
  congr 2
  refine spares.grants _ fun grant hsees => ?_
  simp only [Bool.and_eq_true, List.contains_iff_mem] at hsees
  obtain ⟨⟨hrole, hvisible⟩, -⟩ := hsees
  rw [liveRoleIds_eq_filter] at hrole
  exact ⟨⟨old, hmember, List.mem_of_mem_filter hrole⟩, hvisible⟩

/-- What is resolved for a user of a spared organization is what was resolved before. -/
theorem resolved (spares : before.Spares organizationId mayLose after) (userId : String) :
    after.resolved organizationId userId = before.resolved organizationId userId := by
  unfold Tables.resolved
  rw [find_isMemberOf_eq, find_isMemberOf_eq]
  rcases find_of_forall₂ spares.members userId with ⟨hbefore, hafter⟩ |
    ⟨old, new, hbefore, hafter, hkept⟩
  · rw [hbefore, hafter]
  · rw [hbefore, hafter]
    dsimp only
    rw [spares.heldIds (List.mem_of_find?_eq_some hbefore) hkept]
    unfold Tables.resolvedNames
    rw [spares.catalog, spares.available]

/-! ## Writes to organizations and memberships -/

/-- Calls about organizations spare every organization's members, roles and invitations. -/
theorem writeOrganization (spares : before.Spares organizationId mayLose after)
    (call : OrganizationCall) :
    before.Spares organizationId mayLose (after.perform (.organizations call)).2 := by
  obtain ⟨organizations, hframe⟩ := after.performOrganization_frame call
  rw [hframe]
  exact { spares with }

/-- Memberships that look the same from an organization may be stored. -/
theorem withMemberships (spares : before.Spares organizationId mayLose after)
    (memberships : List Membership) (writes : Nat)
    (hmembers : List.Forall₂ (Membership.KeptOrWithdrawn mayLose) (before.membersOf organizationId)
      (memberships.filter (·.organizationId == organizationId))) :
    before.Spares organizationId mayLose
      { after with memberships := memberships, membershipWrites := writes } :=
  { spares with members := hmembers }

/-- Withdrawing flags that may be lost spares the members. -/
theorem clearOthers (spares : before.Spares organizationId mayLose after)
    {userId : String} {tenantId : Option String} (hmay : mayLose userId tenantId)
    (keptOrganizationId : String) (now : Nat) :
    List.Forall₂ (Membership.KeptOrWithdrawn mayLose) (before.membersOf organizationId)
      ((Tables.clearOthers after.memberships keptOrganizationId userId tenantId now).filter
        (·.organizationId == organizationId)) := by
  have hkeys : ((·.organizationId == organizationId) ∘
      Membership.withdrawPrimary keptOrganizationId userId tenantId now) =
      (·.organizationId == organizationId) := by
    funext member
    rw [Function.comp_apply, Membership.withdrawPrimary_eq]
  rw [Tables.clearOthers, List.filter_map, hkeys, List.forall₂_map_right_iff]
  exact spares.members.imp fun old new hkept => hkept.withdrawPrimary hmay keptOrganizationId now

/-- A new membership of another organization spares the members. -/
theorem insertMembership (spares : before.Spares organizationId mayLose after)
    (member : Membership) (clears : Bool) (hother : member.organizationId ≠ organizationId)
    (hmay : clears = true → mayLose member.userId member.tenantId) :
    before.Spares organizationId mayLose
      (after.perform (.memberships (.insert member clears))).2 := by
  simp only [perform, performMembership]
  split
  · exact spares
  · refine spares.withMemberships _ _ ?_
    have hnew : [member].filter (·.organizationId == organizationId) = [] := by
      simp [hother]
    rw [List.filter_append, hnew, List.append_nil]
    split
    · rename_i hclears
      exact spares.clearOthers (hmay hclears) _ _
    · exact spares.members

/-- A change to a membership of another organization spares the members. -/
theorem changeMembership (spares : before.Spares organizationId mayLose after)
    (change : Membership.Change) (hother : change.organizationId ≠ organizationId)
    (hmay : change.clearsOthers = true → ∀ member ∈ after.memberships,
      member.key = (change.organizationId, change.userId) →
        mayLose member.userId member.tenantId) :
    before.Spares organizationId mayLose
      (after.perform (.memberships (.applyChange change))).2 := by
  simp only [perform, performMembership]
  split
  · exact spares
  · rename_i member hfind
    obtain ⟨hmember, hkey⟩ := find_isMemberOf hfind
    have horg : member.organizationId = change.organizationId := (Prod.ext_iff.1 hkey).1
    have huser : member.userId = change.userId := (Prod.ext_iff.1 hkey).2
    have hnot : ∀ other : Membership, other.key = (member.applyChange change).key →
        (other.organizationId == organizationId) = false := by
      intro other hsame
      have hotherOrg : other.organizationId = member.organizationId := (Prod.ext_iff.1 hsame).1
      rw [hotherOrg, horg]
      simpa using hother
    have hput : ∀ others : List Membership,
        (put Membership.key (member.applyChange change) others).filter
          (·.organizationId == organizationId) =
          others.filter (·.organizationId == organizationId) :=
      fun others => filter_put (fun other : Membership => other.organizationId == organizationId)
        (hnot _ rfl) others fun other _ hsame => hnot other hsame
    refine spares.withMemberships _ _ ?_
    rw [hput]
    split
    · rename_i hclears
      have hmayMember := hmay hclears member hmember hkey
      rw [huser] at hmayMember
      exact spares.clearOthers hmayMember _ _
    · exact spares.members

/-- Removing a member of another organization spares the members. -/
theorem deleteMembership (spares : before.Spares organizationId mayLose after)
    {other : String} (userId : String) (hother : other ≠ organizationId) :
    before.Spares organizationId mayLose
      (after.perform (.memberships (.delete other userId))).2 := by
  simp only [perform, performMembership]
  split
  · refine spares.withMemberships _ _ ?_
    have hkept : (after.memberships.filter (!isMemberOf other userId ·)).filter
        (·.organizationId == organizationId) = after.membersOf organizationId := by
      rw [List.filter_filter]
      refine List.filter_congr fun member _ => ?_
      by_cases horg : member.organizationId = organizationId
      · have hne : (member.organizationId == other) = false := by
          simpa [horg] using Ne.symm hother
        simp [isMemberOf, hne]
      · simp [horg]
    rw [hkept]
    exact spares.members
  · exact spares

/-! ## Writes to roles, grants and invitations -/

/-- A new role with an id that is not assigned spares the members. -/
theorem createRole (spares : before.Spares organizationId mayLose after) (role : Role)
    (hfree : ¬before.IsAssignedIn organizationId role.id) :
    before.Spares organizationId mayLose (after.perform (.roles (.create role))).2 := by
  simp only [perform, performRole]
  split
  · exact spares
  · split
    · exact spares
    · refine { spares with roles := fun roleId hassigned => ?_ }
      have hne : roleId ≠ role.id := fun heq => hfree (heq ▸ hassigned)
      rw [← spares.roles roleId hassigned]
      simp [hne]

/-- A changed role spares the members: it stays what it was to them. -/
theorem updateRole (spares : before.Spares organizationId mayLose after) (role : Role) :
    before.Spares organizationId mayLose (after.perform (.roles (.update role))).2 := by
  simp only [perform, performRole]
  split
  · exact spares
  · split
    · rename_i hstored
      have hid : role.id ∈ after.roles.map (·.id) := by simpa using hstored
      refine { spares with roles := fun roleId hassigned => ?_ }
      rw [map_key_put hid]
      exact spares.roles roleId hassigned
    · exact spares

/-- Removing a role that is not assigned spares the members. -/
theorem deleteRole (spares : before.Spares organizationId mayLose after) {roleId : String}
    (hfree : ¬before.IsAssignedIn organizationId roleId) :
    before.Spares organizationId mayLose (after.perform (.roles (.delete roleId))).2 := by
  refine { spares with roles := fun other hassigned => ?_, grants := fun sees hsees => ?_ }
  · have hne : other ≠ roleId := fun heq => hfree (heq ▸ hassigned)
    rw [← spares.roles other hassigned]
    constructor
    · intro hmem
      obtain ⟨role, hrole, rfl⟩ := List.mem_map.1 hmem
      exact List.mem_map_of_mem (List.mem_of_mem_filter hrole)
    · intro hmem
      obtain ⟨role, hrole, rfl⟩ := List.mem_map.1 hmem
      exact List.mem_map_of_mem (List.mem_filter.2 ⟨hrole, by simpa using hne⟩)
  · rw [← spares.grants sees hsees]
    change (after.grants.filter (·.roleId != roleId)).filter sees = after.grants.filter sees
    rw [List.filter_filter]
    refine List.filter_congr fun grant _ => ?_
    cases hseen : sees grant with
    | false => rfl
    | true =>
        have hne : grant.roleId ≠ roleId := fun heq => hfree (heq ▸ (hsees grant hseen).1)
        simpa using hne

/-- Changing grants that an organization does not see spares the members. -/
theorem changeGrants (spares : before.Spares organizationId mayLose after) (added : List Grant)
    (removedIds : List String)
    (hadded : ∀ grant ∈ added, grant.visibleToOrganization organizationId = false)
    (hremoved : ∀ grant ∈ after.grants, grant.id ∈ removedIds →
      grant.visibleToOrganization organizationId = false) :
    before.Spares organizationId mayLose
      (after.perform (.roles (.changeGrants added removedIds))).2 := by
  simp only [perform, performRole]
  split
  · exact spares
  · rename_i grants hadd
    refine { spares with grants := fun sees hsees => ?_ }
    dsimp only
    have hunseen : ∀ grant, grant.visibleToOrganization organizationId = false →
        sees grant = false := by
      intro grant hinvisible
      cases hseen : sees grant with
      | false => rfl
      | true => rw [(hsees grant hseen).2] at hinvisible; cases hinvisible
    have hnew : added.filter sees = [] :=
      List.filter_eq_nil_iff.2 fun grant hgrant => by simp [hunseen grant (hadded grant hgrant)]
    rw [eq_append_of_addGrants hadd, List.filter_append, hnew, List.append_nil,
      ← spares.grants sees hsees, List.filter_filter]
    refine List.filter_congr fun grant hgrant => ?_
    by_cases hid : grant.id ∈ removedIds
    · simp [hunseen grant (hremoved grant hgrant hid)]
    · simp [hid]

/-- A new invitation to another organization spares the invitations. -/
theorem createInvitation (spares : before.Spares organizationId mayLose after)
    (invitation : Invitation) (hother : invitation.organizationId ≠ organizationId) :
    before.Spares organizationId mayLose
      (after.perform (.invitations (.create invitation))).2 := by
  simp only [perform, performInvitation]
  split
  · exact spares
  · refine { spares with invitations := ?_ }
    have hnew : [invitation].filter (·.organizationId == organizationId) = [] := by
      simp [hother]
    rw [← spares.invitations]
    simp only [invitationsOf, List.filter_append, hnew, List.append_nil]

/-- Ending an invitation to another organization spares the invitations. -/
theorem deleteInvitation (spares : before.Spares organizationId mayLose after) {code : String}
    (hother : ∀ invitation ∈ before.invitations, invitation.code = code →
      invitation.organizationId ≠ organizationId) :
    before.Spares organizationId mayLose (after.perform (.invitations (.delete code))).2 := by
  refine { spares with invitations := ?_ }
  rw [← spares.invitations]
  change (after.invitations.filter (·.code != code)).filter (·.organizationId == organizationId) =
    after.invitationsOf organizationId
  rw [List.filter_filter, invitationsOf]
  refine List.filter_congr fun invitation hinvitation => ?_
  by_cases horg : invitation.organizationId = organizationId
  · have hkept : invitation ∈ after.invitationsOf organizationId :=
      List.mem_filter.2 ⟨hinvitation, by simpa using horg⟩
    rw [spares.invitations] at hkept
    have hcode : invitation.code ≠ code := fun hcode =>
      hother invitation (List.mem_of_mem_filter hkept) hcode horg
    simp [horg, hcode]
  · simp [horg]

end Spares
end Tables
end Tenancy
