import Tenancy.Proofs.AssignableRoles

/-!
# Tenancy - Accepting an invitation

Accepting an invitation is two writes: the user joins the organization, and then the
invitation is deleted.  Joining gives a user the invited roles on top of those held
before, and leaves the primary flag and all other memberships alone.

Main definitions:

- `Tables.rolesIn`, `Tables.isPrimaryIn`: what a user holds in an organization.
- `Tables.Joined`: tables before and after a user joined an organization with roles.
- `Tables.Accepted`: tables before and after an invitation was accepted.
- `World.CanAccept`: where a user can accept an invitation.

Main results:

- Theorem `Tables.joined_insert`, `Tables.joined_applyChange`, `Tables.joined_refl`: the
  three ways to join.
- Theorem `Invitations.accept_achieves`: what accepting an invitation comes to.
-/

namespace Tenancy

/-! ## Roles after a merge -/

namespace Membership

/-- A role is assigned if its id is among those of the membership. -/
theorem hasRole_iff {member : Membership} {roleId : String} :
    member.hasRole roleId = true ↔ roleId ∈ member.roleIds := by
  simp [hasRole, roleIds]

/-- After an assignment, its role is assigned besides the others. -/
theorem mem_roleIds_assign {roles : List RoleAssignment} {added : RoleAssignment}
    {roleId : String} :
    roleId ∈ (assign roles added).map (·.roleId) ↔
      roleId ∈ roles.map (·.roleId) ∨ roleId = added.roleId := by
  unfold assign
  split
  · rename_i hheld
    obtain ⟨other, hother, hsame⟩ := List.any_eq_true.1 hheld
    have hmem : added.roleId ∈ roles.map (·.roleId) :=
      List.mem_map.2 ⟨other, hother, eq_of_beq hsame⟩
    refine ⟨.inl, ?_⟩
    rintro (hmem | rfl)
    · exact hmem
    · exact hmem
  · simp

/-- After removals and additions, the roles are those that were left or added. -/
theorem mem_roleIds_reassign {roles added : List RoleAssignment} {removedRoleIds : List String}
    {roleId : String} :
    roleId ∈ (reassign roles added removedRoleIds).map (·.roleId) ↔
      roleId ∈ roles.map (·.roleId) ∧ roleId ∉ removedRoleIds ∨
        roleId ∈ added.map (·.roleId) := by
  have hkept : roleId ∈ (roles.filter (!removedRoleIds.contains ·.roleId)).map (·.roleId) ↔
      roleId ∈ roles.map (·.roleId) ∧ roleId ∉ removedRoleIds := by
    simp only [List.mem_map, List.mem_filter, Bool.not_eq_true', ← Bool.not_eq_true,
      List.contains_iff_mem]
    constructor
    · rintro ⟨assignment, ⟨hmem, hleft⟩, rfl⟩
      exact ⟨⟨assignment, hmem, rfl⟩, hleft⟩
    · rintro ⟨⟨assignment, hmem, rfl⟩, hleft⟩
      exact ⟨assignment, ⟨hmem, hleft⟩, rfl⟩
  rw [← hkept, reassign]
  generalize roles.filter _ = kept
  clear hkept
  induction added generalizing kept with
  | nil => simp
  | cons head rest ih =>
      refine (ih _).trans ?_
      rw [mem_roleIds_assign, List.map_cons, List.mem_cons, or_assoc]

/-- The roles that are missing are the wanted ones that are not assigned. -/
theorem mem_roleIds_missingRoles {member : Membership} {org : Organization} {wanted : List String}
    {now : Nat} {roleId : String} :
    roleId ∈ (member.missingRoles org wanted now).map (·.roleId) ↔
      roleId ∈ wanted ∧ roleId ∉ member.roleIds := by
  have hids : (member.missingRoles org wanted now).map (·.roleId) =
      wanted.filter (!member.hasRole ·) := by
    simp [missingRoles, RoleAssignment.create, Function.comp_def]
  rw [hids, List.mem_filter, Bool.not_eq_true', ← Bool.not_eq_true, hasRole_iff]

/-- A new membership has the roles that it was made with. -/
theorem roleIds_create (org : Organization) (userId : String) (isPrimary : Bool)
    (roleIds : List String) (now : Nat) :
    (create org userId isPrimary roleIds now).roleIds = roleIds := by
  simp [create, Membership.roleIds, RoleAssignment.create, Function.comp_def]

end Membership

/-! ## Joining -/

namespace Tables

/-- The ids of the roles that a user is assigned in an organization. -/
def rolesIn (tables : Tables) (organizationId userId : String) : List String :=
  (tables.memberships.find? (isMemberOf organizationId userId)).elim [] (·.roleIds)

/-- Whether an organization is the user's primary one. -/
def isPrimaryIn (tables : Tables) (organizationId userId : String) : Bool :=
  (tables.memberships.find? (isMemberOf organizationId userId)).any (·.isPrimary)

/-- The memberships but that of a user in an organization. -/
def othersThan (tables : Tables) (organizationId userId : String) : List Membership :=
  tables.memberships.filter (!isMemberOf organizationId userId ·)

/-- A user joined an organization with some roles: the user is a member with these roles besides
those held before, and nothing else has changed. -/
structure Joined (before after : Tables) (organizationId userId : String) (roleIds : List String) :
    Prop where
  frame : after =
    { before with memberships := after.memberships, membershipWrites := after.membershipWrites }
  others : after.othersThan organizationId userId = before.othersThan organizationId userId
  member : (after.memberships.find? (isMemberOf organizationId userId)).isSome = true
  roles : ∀ roleId, roleId ∈ after.rolesIn organizationId userId ↔
    roleId ∈ roleIds ∨ roleId ∈ before.rolesIn organizationId userId
  isPrimary : after.isPrimaryIn organizationId userId = before.isPrimaryIn organizationId userId

variable {tables : Tables} {org : Organization} {userId : String} {roleIds : List String}

/-- A member who holds the roles already has joined. -/
theorem joined_refl {member : Membership}
    (hfind : tables.memberships.find? (isMemberOf org.id userId) = some member)
    (hheld : ∀ roleId ∈ roleIds, roleId ∈ member.roleIds) :
    Joined tables tables org.id userId roleIds where
  frame := rfl
  others := rfl
  member := by
    rw [hfind]
    rfl
  roles roleId := by
    have hroles : tables.rolesIn org.id userId = member.roleIds := by
      rw [rolesIn, hfind]
      rfl
    rw [hroles]
    exact ⟨.inr, fun h => h.elim (hheld roleId) id⟩
  isPrimary := rfl

/-- A user who is no member can be made one. -/
theorem perform_insert {member : Membership}
    (hfind : tables.memberships.find? (isMemberOf member.organizationId member.userId) = none)
    (clears : Bool) :
    tables.perform (.memberships (.insert member clears)) = (.ok (), { tables with
      memberships :=
        (if clears then
          clearOthers tables.memberships member.organizationId member.userId member.tenantId
            member.createdAt
        else tables.memberships) ++ [member]
      membershipWrites := tables.membershipWrites + 1 }) := by
  have hnew : ¬tables.memberships.any (isMemberOf member.organizationId member.userId) = true := by
    rw [List.any_eq_true]
    rintro ⟨other, hmem, hmatch⟩
    exact List.find?_eq_none.1 hfind other hmem hmatch
  exact if_neg hnew

/-- A stored membership can be changed. -/
theorem perform_applyChange {member : Membership} {change : Membership.Change}
    (hfind : tables.memberships.find? (isMemberOf change.organizationId change.userId) =
      some member) :
    tables.perform (.memberships (.applyChange change)) =
      (.ok (member.applyChange change), { tables with
        memberships := put Membership.key (member.applyChange change)
          (if change.clearsOthers then
            clearOthers tables.memberships change.organizationId change.userId member.tenantId
              change.updatedAt
          else tables.memberships)
        membershipWrites := tables.membershipWrites + 1 }) := by
  simp only [perform, performMembership, hfind]

/-- A user who is no member joins by a new membership that is not primary. -/
theorem joined_insert (hfind : tables.memberships.find? (isMemberOf org.id userId) = none)
    (roleIds : List String) (now : Nat) :
    ∃ after, tables.perform (.memberships (.insert
        (Membership.create org userId false roleIds now) false)) = (.ok (), after) ∧
      Joined tables after org.id userId roleIds := by
  have hself : isMemberOf org.id userId (Membership.create org userId false roleIds now) = true :=
    isMemberOf_iff.2 rfl
  have hmember : (tables.memberships ++ [Membership.create org userId false roleIds now]).find?
      (isMemberOf org.id userId) = some (Membership.create org userId false roleIds now) := by
    rw [List.find?_append, hfind]
    simp [hself]
  refine ⟨_, perform_insert hfind false, rfl, ?_, ?_, ?_, ?_⟩
  · rw [othersThan, othersThan]
    simp [hself]
  · simp [hmember]
  · intro roleId
    simp [rolesIn, hmember, hfind, Membership.roleIds_create]
  · simp only [isPrimaryIn, Bool.false_eq_true, if_false, hmember, hfind]
    rfl

/-- A member joins by gaining the roles that are missing. -/
theorem joined_applyChange {member : Membership}
    (hfind : tables.memberships.find? (isMemberOf org.id userId) = some member)
    (roleIds : List String) (now : Nat) :
    ∃ changed after, tables.perform (.memberships (.applyChange
        { organizationId := org.id, userId := userId, isPrimary := none, clearsOthers := false
          added := member.missingRoles org roleIds now, removedRoleIds := []
          updatedAt := now })) = (.ok changed, after) ∧
      Joined tables after org.id userId roleIds := by
  obtain ⟨hmem, hkey⟩ := find_isMemberOf hfind
  have hmatch : ∀ other : Membership,
      isMemberOf org.id userId other = (other.key == member.key) := by
    intro other
    rw [hkey]
    rfl
  simp only [perform, performMembership, hfind]
  refine ⟨_, _, rfl, rfl, ?_, ?_, ?_, ?_⟩
  · refine filter_put _ ?_ _ fun old _ hsame => ?_
    · simp [hmatch, Membership.key, Membership.applyChange]
    · simp only [hmatch, hsame]
      simp [Membership.key, Membership.applyChange]
  all_goals
    generalize hchanged : member.applyChange _ = changed
    have hsame : changed.key = member.key := by rw [← hchanged]; rfl
    have hput : (put Membership.key changed tables.memberships).find?
        (isMemberOf org.id userId) = some changed := by
      rw [funext hmatch, ← hsame]
      exact find_put Membership.key changed tables.memberships
  · simp [hput]
  · intro roleId
    simp only [rolesIn, Bool.false_eq_true, if_false, hput, hfind, Option.elim_some]
    rw [← hchanged]
    change roleId ∈ (Membership.reassign member.roles _ []).map (·.roleId) ↔ _
    rw [Membership.mem_roleIds_reassign, Membership.mem_roleIds_missingRoles]
    simp only [Membership.roleIds, List.not_mem_nil, not_false_eq_true, and_true]
    tauto
  · simp only [isPrimaryIn, Bool.false_eq_true, if_false, hput, hfind, Option.any_some]
    rw [← hchanged]
    rfl

end Tables

namespace Invitations

/-- Joining makes the user a member with the roles. -/
theorem runIn_join (world : World) (org : Organization) (userId : String) (roleIds : List String)
    (now : Nat) :
    ∃ member after,
      (join org userId roleIds now
        (world.tables.memberships.find? (Tables.isMemberOf org.id userId))).runIn world =
          (.ok member, { world with tables := after }) ∧
      Tables.Joined world.tables after org.id userId roleIds := by
  cases hfind : world.tables.memberships.find? (Tables.isMemberOf org.id userId) with
  | none =>
      obtain ⟨after, hperform, hjoined⟩ := Tables.joined_insert hfind roleIds now
      exact ⟨_, after, Action.runIn_bind_ok (Action.runIn_answered hperform) _, hjoined⟩
  | some member =>
      have huser : member.userId = userId := (Prod.mk.inj (Tables.find_isMemberOf hfind).2).2
      unfold join mergeRoles
      dsimp only
      split
      · rename_i hnone
        refine ⟨member, world.tables, rfl, Tables.joined_refl hfind fun roleId hmem => ?_⟩
        by_contra hmissing
        have hadded : roleId ∈ (member.missingRoles org roleIds now).map (·.roleId) :=
          Membership.mem_roleIds_missingRoles.2 ⟨hmem, hmissing⟩
        rw [List.isEmpty_iff.1 hnone] at hadded
        cases hadded
      · obtain ⟨changed, after, hperform, hjoined⟩ := Tables.joined_applyChange hfind roleIds now
        rw [huser]
        exact ⟨changed, after, Action.runIn_answered hperform, hjoined⟩

end Invitations

/-! ## Accepting -/

/-- An invitation was accepted by a user: the user joined with its roles that can still be assigned,
and the invitation is gone. -/
structure Tables.Accepted (before after : Tables) (org : Organization) (invitation : Invitation)
    (userId : String) : Prop where
  joined : ∃ joined, Tables.Joined before joined org.id userId
      (before.assignableOf org invitation.roleIds) ∧
    after = { joined with
      invitations := before.invitations.filter (·.code != invitation.code) }

namespace Tables.Accepted

variable {before after : Tables} {org : Organization} {invitation : Invitation} {userId : String}

/-- After an invitation was accepted, the user holds its roles that could still be assigned, besides
those held before. -/
theorem mem_rolesIn (accepted : before.Accepted after org invitation userId) (roleId : String) :
    roleId ∈ after.rolesIn org.id userId ↔
      roleId ∈ before.assignableOf org invitation.roleIds ∨
        roleId ∈ before.rolesIn org.id userId := by
  obtain ⟨joined, hjoined, rfl⟩ := accepted.joined
  exact hjoined.roles roleId

/-- After an invitation was accepted, the user is a member. -/
theorem isMember (accepted : before.Accepted after org invitation userId) :
    (after.memberships.find? (Tables.isMemberOf org.id userId)).isSome = true := by
  obtain ⟨joined, hjoined, rfl⟩ := accepted.joined
  exact hjoined.member

/-- Accepting an invitation leaves the primary flag as it was. -/
theorem isPrimaryIn_eq (accepted : before.Accepted after org invitation userId) :
    after.isPrimaryIn org.id userId = before.isPrimaryIn org.id userId := by
  obtain ⟨joined, hjoined, rfl⟩ := accepted.joined
  exact hjoined.isPrimary

/-- Accepting an invitation leaves the other memberships as they were. -/
theorem othersThan_eq (accepted : before.Accepted after org invitation userId) :
    after.othersThan org.id userId = before.othersThan org.id userId := by
  obtain ⟨joined, hjoined, rfl⟩ := accepted.joined
  exact hjoined.others

/-- Accepting an invitation removes it. -/
theorem invitations_eq (accepted : before.Accepted after org invitation userId) :
    after.invitations = before.invitations.filter (·.code != invitation.code) := by
  obtain ⟨joined, -, rfl⟩ := accepted.joined
  rfl

end Tables.Accepted

/-- An invitation can be accepted by a user in a world: it is stored and unexpired, its organization
exists, and the user has its address. -/
structure World.CanAccept (world : World) (invitation : Invitation) (org : Organization)
    (user : User) : Prop where
  stored : world.tables.invitations.find? (·.code == invitation.code) = some invitation
  unexpired : invitation.isExpiredAt world.clock = false
  organization : world.tables.organizations.find? (·.id == invitation.organizationId) = some org
  address : Text.Email.normalize user.email = invitation.email

namespace World.CanAccept

variable {world : World} {invitation : Invitation} {org : Organization} {user : User}

/-- An invitation that can be accepted is found. -/
theorem runIn_findByCode (acceptable : world.CanAccept invitation org user) :
    (Action.ask (.invitations (.findByCode invitation.code))).runIn world =
      (.ok (some invitation), world) :=
  Action.runIn_read rfl (congrArg Except.ok acceptable.stored)

/-- The organization of an invitation that can be accepted is found. -/
theorem runIn_findOrganization (acceptable : world.CanAccept invitation org user) :
    (Action.ask (.organizations (.findById invitation.organizationId))).runIn world =
      (.ok (some org), world) :=
  Action.runIn_read rfl (congrArg Except.ok acceptable.organization)

end World.CanAccept

/-- Where an invitation can be accepted, accepting it succeeds. -/
theorem Invitations.accept_achieves {world : World} {invitation : Invitation} {org : Organization}
    {user : User} (acceptable : world.CanAccept invitation org user) :
    (accept invitation.code user).Achieves world fun after _ =>
      world.tables.Accepted after.tables org invitation user.id := by
  have hexisting : (Action.ask (.memberships (.find org.id user.id))).runIn world =
      (.ok (world.tables.memberships.find? (Tables.isMemberOf org.id user.id)), world) :=
    Action.runIn_read rfl rfl
  obtain ⟨member, joined, hjoin, hjoined⟩ := runIn_join world org user.id
    (world.tables.assignableOf org invitation.roleIds) world.clock
  have hinvitations : joined.invitations = world.tables.invitations := by rw [hjoined.frame]
  refine .bind acceptable.runIn_findByCode <| .bind (Action.runIn_demand rfl _) ?_
  refine .bind (Action.runIn_require (beq_iff_eq.2 acceptable.address) _) ?_
  refine @Action.Achieves.bind _ _ world world Action.now _ world.clock _ rfl ?_
  rw [acceptable.unexpired]
  refine .bind acceptable.runIn_findOrganization <|
    .bind (Roles.runIn_stillAssignable world org _) <| .bind hexisting <|
    .bind hjoin <| .bind (Action.runIn_answered rfl) ⟨_, _, rfl, joined, hjoined, ?_⟩
  rw [← hinvitations]

end Tenancy
