import Tenancy.Proofs.DeletedRoles
import Tenancy.Proofs.MemberFoundations
import Tenancy.Proofs.MembershipUpdates

/-!
# Tenancy - What is left of a deleted role

A deleted role stays assigned where it was.  Such an assignment counts for nothing: what
a member may do is resolved from the roles that are stored, so it is as if the role had
been taken away.  Reading or setting the role's permissions fails.  Updates of the
membership still work, whether they keep the assignment or drop it, because only roles
that are not held are looked up.

Main definitions:

- `World.withoutAssignment`: a world in which a role was taken away from a member.
- `World.HasRevoked`: nothing is left of a role but assignments that count for nothing.

Main results:

- Theorem `Tables.resolved_withoutAssignment`: taking a missing role away changes nothing.
- Theorem `Members.update_keeps_or_drops`: updates keep or drop a missing role.
- Theorem `World.hasRevoked_of_gone`: a role that is not stored is revoked.
-/

namespace Tenancy

/-! ## Taking a role away -/

/-- The membership without a role. -/
def Membership.without (member : Membership) (roleId : String) : Membership :=
  { member with roles := member.roles.filter (·.roleId != roleId) }

/-- The roles of a membership but one. -/
theorem Membership.roleIds_without (member : Membership) (roleId : String) :
    (member.without roleId).roleIds = member.roleIds.filter (· != roleId) := by
  simp only [roleIds, without, List.filter_map]
  rfl

/-- The world in which a role was taken away from the member of an organization. -/
def World.withoutAssignment (world : World) (organizationId userId roleId : String) : World :=
  { world with
    tables :=
      { world.tables with
        memberships := world.tables.memberships.map fun member =>
          if Tables.isMemberOf organizationId userId member then member.without roleId
          else member } }

namespace Tables

variable {tables : Tables} {member : Membership} {organizationId userId roleId : String}

/-- Different assigned roles with tidy ids are live if they are stored, in their order. -/
theorem liveRoleIds_eq (lists : member.ListsOnce)
    (htidy : ∀ roleId ∈ member.roleIds, Text.IsTidy roleId) :
    tables.liveRoleIds member =
      (member.roleIds.filterMap fun roleId => tables.roles.find? (·.id == roleId)).map (·.id) := by
  rw [liveRoleIds, Text.distinctTrimmed_eq_self htidy lists]

/-- A role that is not stored may be taken away: the same roles are live. -/
theorem liveRoleIds_without (lists : member.ListsOnce)
    (htidy : ∀ roleId ∈ member.roleIds, Text.IsTidy roleId)
    (hgone : tables.roles.find? (·.id == roleId) = none) :
    tables.liveRoleIds (member.without roleId) = tables.liveRoleIds member := by
  have hleft := member.roleIds_without roleId
  have hlists : (member.without roleId).ListsOnce := by
    unfold Membership.ListsOnce
    rw [hleft]
    exact List.Nodup.filter _ lists
  rw [liveRoleIds_eq lists htidy, liveRoleIds_eq hlists, hleft, List.filterMap_filter]
  · congr 1
    refine List.filterMap_congr fun other _ => ?_
    split
    · rfl
    · rename_i hsame
      have hother : other = roleId := by simpa using hsame
      rw [hother, hgone]
  · intro other hother
    rw [hleft] at hother
    exact htidy other (List.mem_of_mem_filter hother)

/-- The member of an organization is found without the role that was taken away. -/
theorem find_withoutAssignment (world : World) (organizationId userId roleId : String) :
    (world.withoutAssignment organizationId userId roleId).tables.memberships.find?
        (isMemberOf organizationId userId) =
      (world.tables.memberships.find? (isMemberOf organizationId userId)).map
        (·.without roleId) := by
  have hkeys : (isMemberOf organizationId userId ∘ fun member =>
      if isMemberOf organizationId userId member then member.without roleId else member) =
      isMemberOf organizationId userId := by
    funext member
    dsimp only [Function.comp_apply]
    split <;> rfl
  rw [World.withoutAssignment, List.find?_map, hkeys]
  refine Option.map_congr fun member hfind => ?_
  exact if_pos (List.find?_some hfind)

/-- If a role is not stored, taking it away from a member with tidy and different role ids does not
change what the member may do. -/
theorem resolved_withoutAssignment {world : World}
    (lists : world.tables.ListsRolesOnce)
    (htidy : ∀ member ∈ world.tables.memberships, ∀ roleId ∈ member.roleIds, Text.IsTidy roleId)
    (hgone : world.tables.roles.find? (·.id == roleId) = none) :
    (world.withoutAssignment organizationId userId roleId).tables.resolved organizationId userId =
      world.tables.resolved organizationId userId := by
  unfold resolved
  rw [find_withoutAssignment]
  cases hfind : world.tables.memberships.find? (isMemberOf organizationId userId) with
  | none => rfl
  | some member =>
      have hmember := List.mem_of_find?_eq_some hfind
      have hlive := liveRoleIds_without (lists.members member hmember) (htidy member hmember) hgone
      change world.tables.resolvedNames
        (world.tables.heldIds organizationId (member.without roleId)) = _
      rw [heldIds, hlive]
      rfl

end Tables

/-! ## Asking for a role that is gone -/

namespace Roles

variable {world : World} {roleId : String}
  (hgone : world.tables.roles.find? (·.id == roleId) = none)

include hgone

/-- The permissions of a role that is gone cannot be read. -/
theorem runIn_permissions_gone (scope : Option String) :
    (permissions roleId scope).runIn world = (.error (.roleMissing roleId), world) := by
  refine (Action.runIn_bind _ _ _).trans ?_
  rw [runIn_load_none hgone]

/-- The permissions of a role that is gone cannot be set. -/
theorem runIn_setPermissions_gone (scope : Option String) (names : List String) :
    (setPermissions roleId scope names).runIn world = (.error (.roleMissing roleId), world) := by
  refine (Action.runIn_bind _ _ _).trans ?_
  rw [runIn_load_none hgone]

end Roles

/-! ## Updating a member with a role that is gone -/

/-- A member who holds a role can be updated by every patch whose other roles are held or can be
assigned; afterwards the role is held unless the patch leaves it out. -/
theorem Members.update_keeps_or_drops {world : World} {member : Membership} {org : Organization}
    {roleId : String} {patch : Membership.Patch} (distinct : world.tables.HasDistinctKeys)
    (lists : world.tables.ListsRolesOnce) (hmember : member ∈ world.tables.memberships)
    (horg : org ∈ world.tables.organizations) (hid : org.id = member.organizationId)
    (hheld : roleId ∈ member.roleIds)
    (hassign : ∀ requested, patch.roleIds = some requested →
      ∀ other ∈ Text.distinctTrimmed requested, other ∉ member.roleIds →
        world.tables.canAssign org other = true) :
    ∃ updated after,
      (update member.organizationId member.userId patch).runIn world = (.ok updated, after) ∧
      after.tables.memberships.find?
        (Tables.isMemberOf member.organizationId member.userId) = some updated ∧
      (roleId ∈ updated.roleIds ↔
        ∀ requested, patch.roleIds = some requested → roleId ∈ Text.distinctTrimmed requested) := by
  have grants : world.tables.Grants member.organizationId member patch :=
    fun requested hpatch => ⟨org, horg, hid, hassign requested hpatch⟩
  obtain ⟨updated, after, writes, hends, updatedBy⟩ :=
    update_ends_updatedBy distinct lists hmember grants
  refine ⟨updated, after, hends.run, updatedBy.stored, ?_⟩
  cases hpatch : patch.roleIds with
  | none =>
      have hsame : updated.roleIds = member.roleIds := by
        unfold Membership.roleIds
        rw [updatedBy.patched.sameRoles hpatch]
      rw [hsame]
      exact iff_of_true hheld nofun
  | some requested =>
      rw [updatedBy.patched.roleIds requested hpatch, ← Membership.mem_requested]
      constructor
      · rintro hwanted _ ⟨⟩
        exact hwanted
      · exact fun hwanted => hwanted requested rfl

/-! ## Revoked roles -/

/-- Nothing is left of a role but assignments that count for nothing and can be kept or dropped. -/
structure World.HasRevoked (roleId : String) (world : World) : Prop where
  /-- What a user holds in an organization is what it would be without the role. -/
  powerless : ∀ organizationId userId, ∃ names,
    (Resolution.inOrganization organizationId userId).runIn world = (.ok names, world) ∧
      (Resolution.inOrganization organizationId userId).runIn
          (world.withoutAssignment organizationId userId roleId) =
        (.ok names, world.withoutAssignment organizationId userId roleId)
  unreadable : ∀ scope,
    (Roles.permissions roleId scope).runIn world = (.error (.roleMissing roleId), world)
  unwritable : ∀ scope names,
    (Roles.setPermissions roleId scope names).runIn world = (.error (.roleMissing roleId), world)
  /-- Whoever holds the role keeps or drops it with an update, beside roles that the organization
  may assign. -/
  removable : ∀ member ∈ world.tables.memberships, roleId ∈ member.roleIds →
    ∃ org ∈ world.tables.organizations, org.id = member.organizationId ∧
      ∀ patch : Membership.Patch,
        (∀ requested, patch.roleIds = some requested →
          ∀ other ∈ Text.distinctTrimmed requested, other ∉ member.roleIds →
            world.tables.canAssign org other = true) →
        ∃ updated after,
          (Members.update member.organizationId member.userId patch).runIn world =
            (.ok updated, after) ∧
          after.tables.memberships.find?
            (Tables.isMemberOf member.organizationId member.userId) = some updated ∧
          (roleId ∈ updated.roleIds ↔ ∀ requested, patch.roleIds = some requested →
            roleId ∈ Text.distinctTrimmed requested)

/-- A role that is not stored is revoked, in a world whose memberships have organizations and list
different roles by tidy ids. -/
theorem World.hasRevoked_of_gone {world : World} {roleId : String}
    (distinct : world.tables.HasDistinctKeys) (lists : world.tables.ListsRolesOnce)
    (founded : ∀ member ∈ world.tables.memberships,
      (∃ org ∈ world.tables.organizations, org.id = member.organizationId) ∧
        ∀ roleId ∈ member.roleIds, Text.IsTidy roleId)
    (hgone : roleId ∉ world.tables.roles.map (·.id)) : world.HasRevoked roleId where
  powerless organizationId userId := by
    refine ⟨_, Resolution.runIn_inOrganization world organizationId userId, ?_⟩
    rw [Resolution.runIn_inOrganization, Tables.resolved_withoutAssignment lists
      (fun member hmember => (founded member hmember).2) (Tables.find_role_eq_none hgone)]
  unreadable := Roles.runIn_permissions_gone (Tables.find_role_eq_none hgone)
  unwritable := Roles.runIn_setPermissions_gone (Tables.find_role_eq_none hgone)
  removable member hmember hheld := by
    obtain ⟨⟨org, horg, hid⟩, -⟩ := founded member hmember
    exact ⟨org, horg, hid, fun patch hassign =>
      Members.update_keeps_or_drops distinct lists hmember horg hid hheld hassign⟩

end Tenancy
