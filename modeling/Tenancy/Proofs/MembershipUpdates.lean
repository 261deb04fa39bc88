import Tenancy.Proofs.Assignability
import Tenancy.Proofs.MembershipTurns
import Tenancy.Proofs.MembershipWrites
import Tenancy.Proofs.RoleLists
import Tenancy.Proofs.RunWrites

/-!
# Tenancy - What updating a membership comes to

An update names a primary flag, a list of roles, or both.  What is written is the
difference to the membership that was read: the assignments that stay keep their place
and their time, the new ones follow in the order of the request, and if nothing differs
nothing is written.  A role that is held needs no check, so it may be kept after it was
deleted.

Main definitions:

- `Membership.Patched`: a membership before and after an update.
- `Membership.Change.Carries`: a delta brings a membership where a patch wants it.
- `Tables.Grants`: an organization may assign the roles that a patch adds.
- `World.UpdatedBy`: worlds before and after an update, with its writes.

Main results:

- Theorem `Members.withRoles_carries`: the delta that an update computes.
- Theorem `Members.update_ends_unchanged`, `Members.update_ends_changed`: what is written.
- Theorem `memberUpdate_of_endures`: what updating comes to in every reachable world.
-/

namespace Tenancy

/-! ## Deltas for a patch -/

namespace Membership

/-- A membership after a patch at `now`: the flag is the requested one, the roles are the requested
ones with those that were held first, and what was not requested is as it was. -/
structure Patched (member updated : Membership) (patch : Patch)
    (organizations : List Organization) (now : Nat) : Prop where
  isPrimary : updated.isPrimary = patch.isPrimary.getD member.isPrimary
  sameRoles : patch.roleIds = none → updated.roles = member.roles
  /-- Kept assignments stay in their order, and new ones follow in the order of the request. -/
  roles : ∀ requested, patch.roleIds = some requested →
    ∃ org ∈ organizations, org.id = member.organizationId ∧
      updated.roles =
        member.roles.filter ((Text.distinctTrimmed requested).contains ·.roleId) ++
          ((Text.distinctTrimmed requested).filter (!member.hasRole ·)).map fun roleId =>
            RoleAssignment.create org member.userId roleId now
  roleIds : ∀ requested, patch.roleIds = some requested → ∀ roleId,
    roleId ∈ updated.roleIds ↔ roleId ≠ "" ∧ ∃ text ∈ requested, Text.trim text = roleId
  distinct : updated.roleIds.Nodup
  rest : updated =
    { member with
      isPrimary := updated.isPrimary, roles := updated.roles, updatedAt := updated.updatedAt }

/-- A delta brings a membership where a patch wants it at `now`: it names the change to the flag and
to the roles, and nothing else. -/
structure Change.Carries (change : Change) (member : Membership) (patch : Patch)
    (organizations : List Organization) (now : Nat) : Prop where
  place : (change.organizationId, change.userId) = member.key
  time : change.updatedAt = now
  exact : change.IsExactFor member
  flag : change.isPrimary.getD member.isPrimary = patch.isPrimary.getD member.isPrimary
  clears : change.clearsOthers = decide (change.isPrimary = some true)
  sameRoles : patch.roleIds = none → change.added = [] ∧ change.removedRoleIds = []
  roles : ∀ requested, patch.roleIds = some requested →
    ∃ org ∈ organizations, org.id = member.organizationId ∧
      change.added = member.missingRoles org (Text.distinctTrimmed requested) now ∧
      change.removedRoleIds = member.surplusRoles (Text.distinctTrimmed requested)

variable {member updated : Membership} {change : Change} {patch : Patch}
  {organizations : List Organization} {now : Nat}

/-- The distinct trimmed texts of a request are the trimmed ones that are not blank. -/
theorem mem_requested {requested : List String} {roleId : String} :
    roleId ∈ Text.distinctTrimmed requested ↔
      roleId ≠ "" ∧ ∃ text ∈ requested, Text.trim text = roleId := by
  rw [Text.mem_distinctTrimmed, Text.trimmedTexts, List.mem_filter, List.mem_map, and_comm]
  simp

/-- After adding what is missing and removing what is surplus, exactly the wanted roles are held. -/
theorem mem_reassign_wanted {wanted : List String} {org : Organization} {roleId : String} :
    roleId ∈ (reassign member.roles (member.missingRoles org wanted now)
      (member.surplusRoles wanted)).map (·.roleId) ↔ roleId ∈ wanted := by
  have hheld : roleId ∈ member.roles.map (·.roleId) ↔ roleId ∈ member.roleIds := Iff.rfl
  rw [mem_roleIds_reassign, mem_roleIds_missingRoles, surplusRoles, List.mem_filter,
    Bool.not_eq_true', ← Bool.not_eq_true, List.contains_iff_mem]
  tauto

/-- A delta that names nothing changes nothing but the time. -/
theorem applyChange_of_isEmpty (hempty : change.isEmpty = true) :
    member.applyChange change = { member with updatedAt := change.updatedAt } := by
  simp only [Change.isEmpty, Bool.and_eq_true, Option.isNone_iff_eq_none, List.isEmpty_iff]
    at hempty
  obtain ⟨⟨⟨hflag, -⟩, hadded⟩, hremoved⟩ := hempty
  simp [applyChange, reassign, hflag, hadded, hremoved]

namespace Change.Carries

/-- A delta that carries a patch makes the membership a patched one. -/
theorem patched (carries : change.Carries member patch organizations now)
    (lists : member.ListsOnce) :
    member.Patched (member.applyChange change) patch organizations now where
  isPrimary := carries.flag
  sameRoles hnone := by
    obtain ⟨hadded, hremoved⟩ := carries.sameRoles hnone
    simp [applyChange, reassign, hadded, hremoved]
  roles requested hrequested := by
    obtain ⟨org, hmem, hid, hadded, hremoved⟩ := carries.roles requested hrequested
    refine ⟨org, hmem, hid, ?_⟩
    simp only [applyChange, hadded, hremoved]
    exact reassign_wanted (Text.nodup_distinctTrimmed requested) org now
  roleIds requested hrequested roleId := by
    obtain ⟨org, -, -, hadded, hremoved⟩ := carries.roles requested hrequested
    rw [← mem_requested]
    simp only [applyChange, Membership.roleIds, hadded, hremoved]
    exact mem_reassign_wanted
  distinct := lists.applyChange change
  rest := rfl

/-- If a delta that carries a patch names nothing, the membership is patched as it is. -/
theorem patched_self (carries : change.Carries member patch organizations now)
    (lists : member.ListsOnce) (hempty : change.isEmpty = true) :
    member.Patched member patch organizations now := by
  have patched := carries.patched lists
  rw [applyChange_of_isEmpty hempty] at patched
  exact { patched with rest := rfl }

/-- A delta that carries a patch clears others exactly if it makes the membership primary. -/
theorem clearsOthers_eq (carries : change.Carries member patch organizations now) :
    change.clearsOthers =
      (!member.isPrimary && (member.applyChange change).isPrimary) := by
  have hflag := carries.exact.flag
  rw [carries.clears, applyChange]
  cases hchange : change.isPrimary with
  | none => simp
  | some isPrimary =>
      rw [Bool.eq_not.2 (hflag isPrimary hchange).symm]
      cases isPrimary <;> rfl

section Again

variable {earlier : Nat} {before : List Organization}
  (carries : change.Carries updated patch organizations now)
  (patched : member.Patched updated patch before earlier)

include carries patched

/-- After a patch, the flag is as the patch wants it. -/
theorem isPrimary_eq_none : change.isPrimary = none := by
  have hwanted : patch.isPrimary.getD updated.isPrimary = updated.isPrimary := by
    rw [patched.isPrimary]
    cases patch.isPrimary <;> rfl
  cases hchange : change.isPrimary with
  | none => rfl
  | some isPrimary =>
      have hflag := carries.flag
      rw [hchange, Option.getD_some, hwanted] at hflag
      exact absurd hflag (carries.exact.flag isPrimary hchange)

/-- After a patch, no role is missing and none is surplus. -/
theorem roles_eq_nil : change.added = [] ∧ change.removedRoleIds = [] := by
  cases hpatch : patch.roleIds with
  | none => exact carries.sameRoles hpatch
  | some requested =>
      obtain ⟨org, -, -, hadded, hremoved⟩ := carries.roles requested hpatch
      have hheld : ∀ roleId, roleId ∈ updated.roleIds ↔
          roleId ∈ Text.distinctTrimmed requested := fun roleId =>
        (patched.roleIds requested hpatch roleId).trans mem_requested.symm
      rw [hadded, hremoved]
      constructor
      · refine List.map_eq_nil_iff.2 (List.filter_eq_nil_iff.2 fun roleId hmem => ?_)
        simpa using hasRole_iff.2 ((hheld roleId).2 hmem)
      · refine List.filter_eq_nil_iff.2 fun roleId hmem => ?_
        simpa using (hheld roleId).1 hmem

/-- Carrying a patch to a membership that it was applied to already takes an empty delta. -/
theorem isEmpty_of_patched : change.isEmpty = true := by
  have hflag := carries.isPrimary_eq_none patched
  have hroles := carries.roles_eq_nil patched
  simp [Change.isEmpty, hflag, carries.clears, hroles]

end Again

end Change.Carries
end Membership

/-! ## The delta of an update -/

/-- The roles that a patch gives a member of an organization, besides those held, are roles that the
organization may assign. -/
def Tables.Grants (tables : Tables) (organizationId : String) (member : Membership)
    (patch : Membership.Patch) : Prop :=
  ∀ requested, patch.roleIds = some requested →
    ∃ org ∈ tables.organizations, org.id = organizationId ∧
      ∀ roleId ∈ Text.distinctTrimmed requested, roleId ∉ member.roleIds →
        tables.canAssign org roleId = true

namespace Members

variable {world : World} {organizationId userId : String} {member : Membership}
  {patch : Membership.Patch}

/-- The delta that an update begins with. -/
def flagged (member : Membership) (organizationId userId : String) (now : Nat)
    (flag : Option Bool) : Membership.Change :=
  withFlag { noChange member now with organizationId := organizationId, userId := userId } member
    flag

/-- The delta to the flag carries a patch without roles. -/
theorem flagged_carries (hkey : member.key = (organizationId, userId)) (now : Nat)
    (flag : Option Bool) (organizations : List Organization) :
    (flagged member organizationId userId now flag).Carries member
      { isPrimary := flag, roleIds := none } organizations now := by
  have hbase : ({ noChange member now with
      organizationId := organizationId, userId := userId } : Membership.Change).IsExactFor member :=
    ⟨nofun, nofun, nofun, nofun⟩
  have hexact := withFlag_exact hbase flag
  unfold flagged
  cases flag with
  | none => exact ⟨hkey.symm, rfl, hexact, rfl, rfl, fun _ => ⟨rfl, rfl⟩, nofun⟩
  | some isPrimary =>
      unfold withFlag at hexact ⊢
      dsimp only at hexact ⊢
      split
      · rename_i hsame
        rw [if_pos hsame] at hexact
        exact ⟨hkey.symm, rfl, hexact, hsame.symm, rfl, fun _ => ⟨rfl, rfl⟩, nofun⟩
      · rename_i hnew
        rw [if_neg hnew] at hexact
        exact ⟨hkey.symm, rfl, hexact, rfl, by cases isPrimary <;> rfl, fun _ => ⟨rfl, rfl⟩, nofun⟩

/-- The delta with the roles of a patch carries the patch, if the new ones can be assigned. -/
theorem withRoles_carries (distinct : (world.tables.organizations.map (·.id)).Nodup)
    (hkey : member.key = (organizationId, userId))
    (grants : world.tables.Grants organizationId member patch) :
    ∃ change, change.Carries member patch world.tables.organizations world.clock ∧
      (withRoles (flagged member organizationId userId world.clock patch.isPrimary) member
        organizationId world.clock patch.roleIds).runIn world = (.ok change, world) := by
  have flags := flagged_carries hkey world.clock patch.isPrimary world.tables.organizations
  have horg : member.organizationId = organizationId := (Prod.mk.inj hkey).1
  cases hpatch : patch.roleIds with
  | none =>
      refine ⟨_, ⟨flags.place, flags.time, flags.exact, flags.flag, flags.clears, fun _ => ?_, ?_⟩,
        rfl⟩
      · exact flags.sameRoles rfl
      · rw [hpatch]
        exact nofun
  | some requested =>
      obtain ⟨org, hmem, rfl, hassign⟩ := grants requested hpatch
      have hload := Action.runIn_loadOrganization
        (Tables.find_eq_some_of_mem distinct hmem)
      -- Only roles that are not held are looked up, so one that is held may be gone.
      have hall : ∀ roleId ∈ Text.distinctTrimmed
          ((Text.distinctTrimmed requested).filter (!member.hasRole ·)),
          world.tables.canAssign org roleId = true := by
        intro roleId hunheld
        obtain ⟨hwanted, hnew⟩ := mem_unheld.1 hunheld
        exact hassign roleId hwanted hnew
      refine ⟨_, ?_, (Action.runIn_bind_ok hload _).trans
        (Action.runIn_bind_ok (Roles.runIn_assignable hall) _)⟩
      refine ⟨flags.place, flags.time, ⟨flags.exact.flag, flags.exact.clears, ?_, ?_⟩, flags.flag,
        flags.clears, ?_, ?_⟩
      · exact fun roleId hadded => (Membership.mem_roleIds_missingRoles.1 hadded).2
      · exact fun roleId hremoved => List.mem_of_mem_filter hremoved
      · rw [hpatch]
        exact nofun
      · rw [hpatch]
        rintro _ ⟨⟩
        exact ⟨org, hmem, horg.symm, rfl, rfl⟩

/-! ## Runs of updates -/

section Runs

variable {change : Membership.Change}
  (hfind : world.tables.memberships.find? (Tables.isMemberOf organizationId userId) = some member)
  (hroles : (withRoles (flagged member organizationId userId world.clock patch.isPrimary) member
    organizationId world.clock patch.roleIds).runIn world = (.ok change, world))

include hfind in
/-- The membership to update is read. -/
theorem find_ends : (Action.ask (.memberships (.find organizationId userId))).Ends world
    (.ok (some member)) world [] :=
  .ofUses (.ask rfl) (Action.runIn_read rfl (congrArg Except.ok hfind))

include hfind hroles in
/-- Once its delta is known, an update goes on with it. -/
theorem update_ends {result : Except Error Membership} {after : World} {writes : List Effect}
    (hrest : (if change.isEmpty then pure member
      else do
        let updated ← Action.ask (.memberships (.applyChange change))
        Action.note (((AuditNote.within .memberUpdated organizationId).about userId).saying
          ("added=" ++ toString change.added.length ++ ",removed=" ++
            toString change.removedRoleIds.length))
        pure updated : Action Membership).Ends world result after writes) :
    (update organizationId userId patch).Ends world result after writes := by
  have hclock : Action.now.Ends world (.ok world.clock) world [] := .ofUses (.now rfl) rfl
  have hdelta : (withRoles (flagged member organizationId userId world.clock patch.isPrimary) member
      organizationId world.clock patch.roleIds).Ends world (.ok change) world [] :=
    .ofUses (withRoles_uses Effect.plain_reads _ _ _ _ _) hroles
  exact (find_ends hfind).bind (.bind (.pure member world) (hclock.bind (hdelta.bind hrest)))

include hfind hroles in
/-- If the delta names nothing, nothing is written. -/
theorem update_ends_unchanged (hempty : change.isEmpty = true) :
    (update organizationId userId patch).Ends world (.ok member) world [] := by
  refine update_ends hfind hroles ?_
  rw [if_pos hempty]
  exact .pure member world

include hfind hroles in
/-- If the delta names something, it is written once. -/
theorem update_ends_changed
    (hplace : (change.organizationId, change.userId) = (organizationId, userId))
    (hchange : change.isEmpty = false) :
    ∃ after, (update organizationId userId patch).Ends world (.ok (member.applyChange change))
        after [.store (.memberships (.applyChange change))] ∧
      after.tables = (world.tables.perform (.memberships (.applyChange change))).2 := by
  obtain ⟨horg, huser⟩ := Prod.mk.inj hplace
  have hperform := @Tables.perform_applyChange world.tables member change (by
    rw [horg, huser]
    exact hfind)
  have hwritten := @Action.Ends.write (.memberships (.applyChange change)) rfl world
  rw [hperform] at hwritten ⊢
  let note := ((AuditNote.within .memberUpdated organizationId).about userId).saying
    ("added=" ++ toString change.added.length ++ ",removed=" ++
      toString change.removedRoleIds.length)
  refine ⟨{ world with
    tables := _, trail := world.trail.offer note world.clock }, update_ends hfind hroles ?_, rfl⟩
  rw [if_neg (by simp [hchange])]
  exact hwritten.bind (.bind (.ofUses (.note rfl) rfl) (.pure _ _))

end Runs

/-- Without a membership to update, an update fails. -/
theorem not_succeeds_update_missing
    (hfind : world.tables.memberships.find? (Tables.isMemberOf organizationId userId) = none)
    (patch : Membership.Patch) : ¬(update organizationId userId patch).Succeeds world := by
  have hmissing : (Action.ask (.memberships (.find organizationId userId))).runIn world =
      (.ok none, world) := Action.runIn_read rfl (congrArg Except.ok hfind)
  exact Action.not_succeeds_of_runIn (Action.runIn_bind_ok hmissing _)

/-- Without the organization, roles cannot be given. -/
theorem not_succeeds_update_homeless
    (hfind : world.tables.memberships.find? (Tables.isMemberOf organizationId userId) =
      some member)
    (horg : world.tables.organizations.find? (·.id == organizationId) = none)
    {requested : List String} (hpatch : patch.roleIds = some requested) :
    ¬(update organizationId userId patch).Succeeds world := by
  have hload := Action.runIn_loadOrganization_none horg
  have hroles : ∀ change, (withRoles change member organizationId world.clock
      (some requested)).runIn world = (.error (.organizationMissing organizationId), world) := by
    intro change
    refine (Action.runIn_bind _ _ _).trans ?_
    rw [hload]
  unfold update
  rw [Action.succeeds_bind (find_ends hfind).run, Action.succeeds_bind (Action.runIn_demand rfl _),
    @Action.succeeds_bind _ _ world world Action.now world.clock rfl, hpatch]
  exact Action.not_succeeds_bind (hroles _) _

/-- If an update succeeds, the organization may assign the roles that it gives. -/
theorem grants_of_succeeds_update
    (hfind : world.tables.memberships.find? (Tables.isMemberOf organizationId userId) =
      some member)
    (succeeds : (update organizationId userId patch).Succeeds world) :
    world.tables.Grants organizationId member patch := by
  intro requested hpatch
  cases horg : world.tables.organizations.find? (·.id == organizationId) with
  | none => exact absurd succeeds (not_succeeds_update_homeless hfind horg hpatch)
  | some org =>
      exact ⟨org, List.mem_of_find?_eq_some horg, Tables.key_of_find horg,
        (succeeds_update hfind horg hpatch).1 succeeds⟩

end Members

/-! ## Worlds before and after -/

/-- An update by a patch turned a world into another with some writes, and returned what a member
became: that is stored, and of the others only those have changed whose primary flag was withdrawn
because this one became primary. -/
structure World.UpdatedBy (before after : World) (writes : List Effect)
    (member updated : Membership) (patch : Membership.Patch) : Prop where
  patched : member.Patched updated patch before.tables.organizations before.clock
  stored : after.tables.memberships.find?
    (Tables.isMemberOf member.organizationId member.userId) = some updated
  others : after.tables.othersThan member.organizationId member.userId =
    if !member.isPrimary && updated.isPrimary then
      (before.tables.othersThan member.organizationId member.userId).map
        (Membership.withdrawPrimary member.organizationId member.userId member.tenantId
          before.clock)
    else before.tables.othersThan member.organizationId member.userId
  frame : after.tables = { before.tables with
    memberships := after.tables.memberships, membershipWrites := after.tables.membershipWrites }
  /-- A difference is written once. -/
  changed : member.Differs updated →
    updated.updatedAt = before.clock ∧
      after.tables.membershipWrites = before.tables.membershipWrites + 1 ∧
      ∃ change, writes = [.store (.memberships (.applyChange change))]
  /-- Without a difference, nothing is written. -/
  unchanged : ¬member.Differs updated → updated = member ∧ after = before ∧ writes = []

section Updates

variable {world : World} {member : Membership} {patch : Membership.Patch}
  {change : Membership.Change}
  (hfind : world.tables.memberships.find?
    (Tables.isMemberOf member.organizationId member.userId) = some member)
  (lists : member.ListsOnce)
  (carries : change.Carries member patch world.tables.organizations world.clock)

include hfind lists carries

/-- A member whom the patch does not change is as the patch wants it. -/
theorem World.updatedBy_self (hempty : change.isEmpty = true) :
    world.UpdatedBy world [] member member patch where
  patched := carries.patched_self lists hempty
  stored := hfind
  others := by rw [Bool.not_and_self]; rfl
  frame := rfl
  changed hdiffers := absurd hdiffers member.not_differs_self
  unchanged _ := ⟨rfl, rfl, rfl⟩

/-- Writing the delta of a patch makes the member as the patch wants it. -/
theorem World.updatedBy_change (hchange : change.isEmpty = false) {after : World}
    (hafter : after.tables =
      (world.tables.perform (.memberships (.applyChange change))).2) :
    world.UpdatedBy after [.store (.memberships (.applyChange change))] member
      (member.applyChange change) patch := by
  obtain ⟨horg, huser⟩ := Prod.mk.inj carries.place
  have hstored : world.tables.memberships.find?
      (Tables.isMemberOf change.organizationId change.userId) = some member := by
    rw [horg, huser]
    exact hfind
  have hwrites := Tables.writes_applyChange hstored
  rw [← hafter, carries.clearsOthers_eq, carries.time, horg, huser] at hwrites
  exact
    { patched := carries.patched lists
      stored := hwrites.stored
      others := hwrites.others
      frame := hwrites.frame
      changed := fun _ => by
        refine ⟨carries.time, ?_, change, rfl⟩
        rw [hafter, Tables.perform_applyChange hstored]
      unchanged := fun hsame => absurd (carries.exact.differs hchange) hsame }

end Updates

/-- An update of a member that is granted its roles ends as it should. -/
theorem Members.update_ends_updatedBy {world : World} {member : Membership}
    {patch : Membership.Patch} (distinct : world.tables.HasDistinctKeys)
    (lists : world.tables.ListsRolesOnce)
    (hmember : member ∈ world.tables.memberships)
    (grants : world.tables.Grants member.organizationId member patch) :
    ∃ updated after writes,
      (update member.organizationId member.userId patch).Ends world (.ok updated) after writes ∧
      world.UpdatedBy after writes member updated patch := by
  have hfind := distinct.find_member hmember
  have hlists := lists.members member hmember
  obtain ⟨change, carries, hroles⟩ := withRoles_carries distinct.organizations rfl grants
  cases hempty : change.isEmpty with
  | true =>
      exact ⟨member, world, [], update_ends_unchanged hfind hroles hempty,
        World.updatedBy_self hfind hlists carries hempty⟩
  | false =>
      obtain ⟨after, hends, hafter⟩ := update_ends_changed hfind hroles carries.place hempty
      exact ⟨_, after, _, hends, World.updatedBy_change hfind hlists carries hempty hafter⟩

/-- Updating again by the same patch writes nothing, whatever time it is. -/
theorem World.UpdatedBy.again {before after : World} {writes : List Effect}
    {member updated : Membership} {patch : Membership.Patch}
    (updatedBy : before.UpdatedBy after writes member updated patch)
    (distinct : before.tables.HasDistinctKeys)
    (grants : before.tables.Grants member.organizationId member patch) (later : Nat) :
    (Members.update member.organizationId member.userId patch).Ends
      { after with clock := later } (.ok updated) { after with clock := later } [] := by
  have hkey : updated.key = (member.organizationId, member.userId) := by
    rw [updatedBy.patched.rest]
    rfl
  have horganizations : after.tables.organizations = before.tables.organizations := by
    rw [updatedBy.frame]
  have hgrants : after.tables.Grants member.organizationId updated patch := by
    intro requested hpatch
    obtain ⟨org, hmem, hid, -⟩ := grants requested hpatch
    refine ⟨org, horganizations ▸ hmem, hid, fun roleId hwanted hnew => absurd ?_ hnew⟩
    exact (updatedBy.patched.roleIds requested hpatch roleId).2 (Membership.mem_requested.1 hwanted)
  obtain ⟨change, carries, hroles⟩ := @Members.withRoles_carries { after with clock := later } _ _ _
    _ (horganizations ▸ distinct.organizations) hkey hgrants
  exact Members.update_ends_unchanged updatedBy.stored hroles
    (carries.isEmpty_of_patched updatedBy.patched)

/-! ## Updates in reachable worlds -/

/-- In every reachable world, whatever time the clock shows and whatever calls have gone wrong
before: updating a membership succeeds exactly if it is there and the organization may assign the
requested roles that are not held; then the flag and the roles are as requested, a difference is
written once and otherwise nothing is, of the other memberships only primary flags are withdrawn,
and updating again by the same patch writes nothing. -/
theorem memberUpdate_of_endures {regime : Regime} {start : World} {config : Configuration}
    (starts : regime.Starts start) (endures : regime.Endures start config) (now : Nat)
    (organizationId userId : String) (patch : Membership.Patch) :
    let world := { config.world with clock := now }
    let update := Members.update organizationId userId patch
    let after := (update.runIn world).2
    (update.Succeeds world ↔
      ∃ member ∈ world.tables.memberships, member.key = (organizationId, userId) ∧
        world.tables.Grants organizationId member patch) ∧
    ∀ updated, (update.runIn world).1 = .ok updated →
      ∃ member ∈ world.tables.memberships, member.key = (organizationId, userId) ∧
        world.UpdatedBy after (update.writesIn world) member updated patch ∧
        ∀ later, update.Ends { after with clock := later } (.ok updated)
          { after with clock := later } [] := by
  intro world update after
  have distinct : world.tables.HasDistinctKeys := endures.hasDistinctKeys starts
  have lists : world.tables.ListsRolesOnce := endures.listsRolesOnce starts
  have hneeds : update.Succeeds world →
      ∃ member ∈ world.tables.memberships, member.key = (organizationId, userId) ∧
        world.tables.Grants organizationId member patch := by
    intro succeeds
    cases hfind : world.tables.memberships.find? (Tables.isMemberOf organizationId userId) with
    | none => exact absurd succeeds (Members.not_succeeds_update_missing hfind patch)
    | some member =>
        obtain ⟨hmem, hkey⟩ := Tables.find_isMemberOf hfind
        exact ⟨member, hmem, hkey, Members.grants_of_succeeds_update hfind succeeds⟩
  refine ⟨⟨hneeds, ?_⟩, ?_⟩
  · rintro ⟨member, hmem, hkey, grants⟩
    obtain ⟨rfl, rfl⟩ := Prod.mk.inj hkey
    obtain ⟨updated, _, _, hends, -⟩ := Members.update_ends_updatedBy distinct lists hmem grants
    exact Action.succeeds_of_runIn hends.run
  · intro updated hok
    obtain ⟨member, hmem, hkey, grants⟩ := hneeds ⟨updated, hok⟩
    obtain ⟨rfl, rfl⟩ := Prod.mk.inj hkey
    obtain ⟨returned, final, writes, hends, updatedBy⟩ :=
      Members.update_ends_updatedBy distinct lists hmem grants
    have hrun : update.runIn world = (.ok returned, final) := hends.run
    have hwrites : update.writesIn world = writes := hends.writes
    have hfinal : after = final := congrArg Prod.snd hrun
    rw [hrun] at hok
    rw [hfinal, hwrites, ← Except.ok.inj hok]
    exact ⟨member, hmem, hkey, updatedBy, updatedBy.again distinct grants⟩

/-- A member becomes primary in place of another membership, keeps a role that is gone since, loses
one and gets a new one, by a request with blanks and repetitions. -/
theorem memberUpdate_of_endures_dangling_role :
    ∃ (config : Configuration) (patch : Membership.Patch) (updated : Membership),
      Regime.orderly.Reaches (World.blank []) config ∧
      ((Members.update "a" "u" patch).runIn { config.world with clock := 5 }).1 = .ok updated ∧
      (updated.isPrimary, updated.roles.map fun assignment =>
        (assignment.roleId, assignment.createdAt)) = (true, [("aaaa", 0), ("aaaaa", 5)]) ∧
      ∃ member ∈ config.world.tables.memberships, member.key = ("a", "u") ∧
        World.UpdatedBy { config.world with clock := 5 }
          ((Members.update "a" "u" patch).runIn { config.world with clock := 5 }).2
          ((Members.update "a" "u" patch).writesIn { config.world with clock := 5 })
          member updated patch := by
  have starts : Regime.orderly.Starts (World.blank []) := Regime.orderly_starts_blank (by simp)
  let role (name : String) : Operation := .createRole
    { name := name, description := none, isSystem := false, organizationId := some "a"
      tenantId := none }
  let organization (slug : String) : Operation := .createOrganization
    { slug := slug, displayName := slug, tenantId := some "t", metadata := .empty }
  obtain ⟨config, reaches, hworld⟩ := Regime.orderly_operations starts default
    [organization "north", organization "south", role "reader", role "writer", role "editor",
     .addMember
      { organizationId := "aa", userId := "u", tenantId := none, isPrimary := true, roleIds := [] },
     .addMember
      { organizationId := "a", userId := "u", tenantId := none, isPrimary := false
        roleIds := ["aaa", "aaaa"] },
     .deleteRole "aaaa"]
  let patch : Membership.Patch :=
    { isPrimary := some true, roleIds := some [" aaaa ", "", "aaaaa", "aaaa"] }
  obtain ⟨updated, hrun, hshown⟩ := @Action.exists_of_map_ok _ _
    { config.world with clock := 5 } (Members.update "a" "u" patch)
    (fun updated => (updated.isPrimary, updated.roles.map fun assignment =>
      (assignment.roleId, assignment.createdAt)))
    (true, [("aaaa", 0), ("aaaaa", 5)]) (by rw [hworld]; decide +kernel)
  obtain ⟨-, houtcome⟩ := memberUpdate_of_endures starts reaches.endures 5 "a" "u" patch
  obtain ⟨member, hmem, hkey, updatedBy, -⟩ := houtcome updated hrun
  exact ⟨config, patch, updated, reaches, hrun, hshown, member, hmem, hkey, updatedBy⟩

end Tenancy
