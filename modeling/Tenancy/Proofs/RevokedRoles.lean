import Tenancy.Proofs.OrderlyRuns
import Tenancy.Proofs.RevokedAccess
import Tenancy.Proofs.WorldKinds

/-!
# Tenancy - Deleting a role revokes it

Members and pending invitations go on to list a role after it was deleted, and nothing
tidies these lists.  The role is revoked all the same.  What is listed counts for
nothing where permissions are resolved, and no operation that begins after the delete
gives the role to anyone: requested roles are looked up first, an update passes on
without a look only what the member holds already, and the roles of an invitation are
looked up again when it is accepted.  So from the delete on, only operations that were
on their way before it may still write the role into a membership.

Main definitions:

- `Effect.GivesNot`: requests that give a role to nobody and invite nobody to it.
- `Tables.Holds`: a member holds a role.
- `World.Lacks`: a role is not stored.
- `Configuration.GivesNoMore`: operations from some number on give a role to nobody.

Main results:

- Theorem `Operation.action_givesNot`: where a role is not stored, no operation gives it.
- Theorem `World.holds_perform`: who holds a role after a call that does not give it.
- Theorem `deletedRole_revoked`: in a run that never reuses a role id, a role that was
  deleted is revoked for good.
-/

namespace Tenancy

/-! ## Giving a role -/

/-- A request gives a role to nobody and invites nobody to it. -/
def Effect.GivesNot (roleId : String) : Effect → Prop
  | .store (.memberships (.insert member _)) => roleId ∉ member.roleIds
  | .store (.memberships (.applyChange change)) => roleId ∉ change.added.map (·.roleId)
  | .store (.invitations (.create invitation)) => roleId ∉ invitation.roleIds
  | _ => True

/-- Requests that are no writes give no role. -/
theorem Effect.givesNot_of_not_write {roleId : String} (effect : Effect)
    (hread : effect.isWrite = false) : effect.GivesNot roleId := by
  unfold GivesNot
  split
  · cases hread
  · cases hread
  · cases hread
  · trivial

/-- A membership without a role may be inserted. -/
theorem Effect.givesNot_insert {roleId : String} {member : Membership}
    (hgone : roleId ∉ member.roleIds) (clears : Bool) :
    (Effect.store (.memberships (.insert member clears))).GivesNot roleId :=
  hgone

/-- Other roles may be added to a membership. -/
theorem Effect.givesNot_applyChange {roleId : String} {change : Membership.Change}
    (hgone : roleId ∉ change.added.map (·.roleId)) :
    (Effect.store (.memberships (.applyChange change))).GivesNot roleId :=
  hgone

/-- A member of an organization, under its key, holds a role. -/
def Tables.Holds (tables : Tables) (roleId : String) (key : String × String) : Prop :=
  ∃ member ∈ tables.memberships, member.key = key ∧ roleId ∈ member.roleIds

/-- Who holds a role after a request that does not give it has held it before. -/
theorem World.holds_perform {world : World} {effect : Effect} {roleId : String}
    {key : String × String} (givesNot : effect.GivesNot roleId)
    (hholds : (World.perform effect world).2.tables.Holds roleId key) :
    world.tables.Holds roleId key := by
  cases effect with
  | clock | freshId | randomBytes | note => exact hholds
  | store call =>
      obtain ⟨member, hmember, hkey, hheld⟩ := hholds
      rcases Tables.mem_memberships_perform hmember with ⟨before, hbefore, hsame, hroles⟩ |
        ⟨clears, rfl⟩ | ⟨before, hbefore, change, rfl, rfl⟩
      · refine ⟨before, hbefore, hsame.trans hkey, ?_⟩
        unfold Membership.roleIds at hheld ⊢
        rw [hroles]
        exact hheld
      · exact absurd hheld givesNot
      · rcases Membership.mem_roleIds_reassign.1 hheld with ⟨hold, -⟩ | hnew
        · exact ⟨before, hbefore, hkey, hold⟩
        · exact absurd hnew givesNot

/-- An invitation to a role that is stored after a request that does not give the role was stored
before. -/
theorem World.invites_perform {world : World} {effect : Effect} {roleId : String}
    {invitation : Invitation} (givesNot : effect.GivesNot roleId)
    (hmem : invitation ∈ (World.perform effect world).2.tables.invitations)
    (hlisted : roleId ∈ invitation.roleIds) : invitation ∈ world.tables.invitations := by
  cases effect with
  | clock | freshId | randomBytes | note => exact hmem
  | store call =>
      rcases Tables.mem_invitations_perform hmem with hold | rfl
      · exact hold
      · exact absurd hlisted givesNot

/-! ## Operations where a role is gone -/

/-- A world in which a role is not stored. -/
def World.Lacks (roleId : String) (world : World) : Prop :=
  roleId ∉ world.tables.roles.map (·.id)

section Operations

variable {roleId : String}

/-- Looking roles up does not find one that is gone. -/
theorem Roles.findMany_lacks (roleIds : List String) :
    (Action.ask (.roles (.findMany roleIds))).UsesIn (World.Lacks roleId) (Effect.GivesNot roleId)
      fun (found : List Role) => roleId ∉ found.map (·.id) := by
  refine @Action.UsesIn.ask _ _ (.roles (.findMany roleIds)) _ trivial
    fun world lacks found hfound hmem => ?_
  have hanswer : (roleIds.filterMap fun other => world.tables.roles.find? (·.id == other)) =
      found := Except.ok.inj hfound
  obtain ⟨role, hrole, rfl⟩ := List.mem_map.1 hmem
  rw [← hanswer] at hrole
  obtain ⟨other, -, hfind⟩ := List.mem_filterMap.1 hrole
  exact lacks (List.mem_map_of_mem (List.mem_of_find?_eq_some hfind))

/-- A role that is gone does not pass the check of requested roles. -/
theorem Roles.assignable_givesNot (org : Organization) (requested : List String) :
    (Roles.assignable org requested).UsesIn (World.Lacks roleId) (Effect.GivesNot roleId)
      fun roleIds => roleId ∉ Text.distinctTrimmed requested ∧
        roleIds = Text.distinctTrimmed requested := by
  unfold Roles.assignable
  dsimp only
  split
  · rename_i hempty
    exact .pure ⟨by simp [List.isEmpty_iff.1 hempty], rfl⟩
  · refine .bind (Roles.findMany_lacks _) fun found hgone =>
      .afterUses (.checked _) fun _ hchecked => .pure ⟨fun hwanted => ?_, rfl⟩
    obtain ⟨role, hfind, -⟩ :=
      Option.any_eq_true _ _ |>.1 (Roles.checkEach_eq_ok_iff.1 hchecked roleId hwanted)
    have hid : role.id = roleId := Tables.key_of_find hfind
    exact hgone (hid ▸ List.mem_map_of_mem (List.mem_of_find?_eq_some hfind))

/-- A role that is gone is passed over among those of an invitation. -/
theorem Roles.stillAssignable_givesNot (org : Organization) (listed : List String) :
    (Roles.stillAssignable org listed).UsesIn (World.Lacks roleId) (Effect.GivesNot roleId)
      fun roleIds => roleId ∉ roleIds := by
  unfold Roles.stillAssignable
  dsimp only
  split
  · rename_i hempty
    exact .pure (by simp [List.isEmpty_iff.1 hempty])
  · refine .bind (Roles.findMany_lacks _) fun found hgone => .pure fun hmem => ?_
    obtain ⟨role, hrole, hfits⟩ := List.any_eq_true.1 (List.mem_filter.1 hmem).2
    have hid : role.id = roleId := by
      simpa using (Bool.and_eq_true_iff.1 hfits).1
    exact hgone (hid ▸ List.mem_map_of_mem hrole)

/-- A new member is not given a role that is gone. -/
theorem Members.add_givesNot (draft : Membership.Draft) :
    (Members.add draft).UsesIn (World.Lacks roleId) (Effect.GivesNot roleId) fun _ => True := by
  have quiet := @Effect.givesNot_of_not_write roleId
  refine .afterUses (.check _) fun _ _ =>
    .afterUses (Action.loadOrganization_uses (Effect.plain quiet) _) fun org _ =>
    .afterUses (.check _) fun _ _ => .afterUses (.ask (quiet _ rfl)) fun existing _ =>
    .afterUses (.require _ _) fun _ _ => ?_
  refine .bind (Roles.assignable_givesNot org _) fun roleIds hroleIds =>
    .ofUses (.andThen (.now (quiet _ rfl)) fun now =>
    .andThen (.ask (Effect.givesNot_insert ?_ _)) fun _ => .andThen (.note (quiet _ rfl))
    fun _ => .pure trivial)
  obtain ⟨hgone, rfl⟩ := hroleIds
  rw [Membership.roleIds_create]
  exact hgone

/-- An update adds no role that is gone: one that the member does not hold is looked up. -/
theorem Members.withRoles_givesNot {change : Membership.Change} (hadded : change.added = [])
    (member : Membership) (organizationId : String) (now : Nat)
    (requested : Option (List String)) :
    (Members.withRoles change member organizationId now requested).UsesIn (World.Lacks roleId)
      (Effect.GivesNot roleId) fun changed => roleId ∉ changed.added.map (·.roleId) := by
  have quiet := @Effect.givesNot_of_not_write roleId
  unfold Members.withRoles
  split
  · exact .pure (by simp [hadded])
  · refine .afterUses (Action.loadOrganization_uses (Effect.plain quiet) _) fun org _ =>
      .bind (Roles.assignable_givesNot org _) fun _ hunheld => .pure fun hmem => ?_
    exact hunheld.1 (Members.mem_unheld.2 (Membership.mem_roleIds_missingRoles.1 hmem))

/-- An updated member is not given a role that is gone. -/
theorem Members.update_givesNot (organizationId userId : String) (patch : Membership.Patch) :
    (Members.update organizationId userId patch).UsesIn (World.Lacks roleId)
      (Effect.GivesNot roleId) fun _ => True := by
  have quiet := @Effect.givesNot_of_not_write roleId
  refine .afterUses (.ask (quiet _ rfl)) fun found _ => .afterUses (.demand _ _) fun member _ =>
    .afterUses (.now (quiet _ rfl)) fun now _ => ?_
  refine .bind (Members.withRoles_givesNot (Members.withFlag_added _ _ _) _ _ _ _)
    fun change hchange => .ofUses ?_
  split
  · exact .pure trivial
  · exact .andThen (.ask (Effect.givesNot_applyChange hchange)) fun _ =>
      .andThen (.note (quiet _ rfl)) fun _ => .pure trivial

/-- Nobody is invited to a role that is gone. -/
theorem Invitations.create_givesNot (policy : InvitationPolicy) (draft : Invitation.Draft) :
    (Invitations.create policy draft).UsesIn (World.Lacks roleId) (Effect.GivesNot roleId)
      fun _ => True := by
  have quiet := @Effect.givesNot_of_not_write roleId
  refine .afterUses (.check _) fun email _ => .afterUses (.check _) fun _ _ =>
    .afterUses (Action.loadOrganization_uses (Effect.plain quiet) _) fun org _ =>
    .bind (Roles.assignable_givesNot org _) fun roleIds hroleIds => .ofUses ?_
  obtain ⟨hgone, rfl⟩ := hroleIds
  refine .andThen (.now (quiet _ rfl)) fun now => .andThen (.ask (quiet _ rfl)) fun existing =>
    .andThen (Invitations.replaceExpired_uses now existing fun _ => trivial) fun _ =>
    .andThen (.randomBytes (quiet _ rfl)) fun bytes => ?_
  exact .andThen (Invitations.store_uses hgone) fun _ => .andThen (.note (quiet _ rfl)) fun _ =>
    .pure trivial

/-- Joining with other roles does not give one. -/
theorem Invitations.join_givesNot (org : Organization) (userId : String) {roleIds : List String}
    (hgone : roleId ∉ roleIds) (now : Nat) (existing : Option Membership) :
    (Invitations.join org userId roleIds now existing).Uses (Effect.GivesNot roleId)
      fun _ => True := by
  cases existing with
  | none =>
      refine .andThen (.ask (Effect.givesNot_insert ?_ false)) fun _ => .pure trivial
      rw [Membership.roleIds_create]
      exact hgone
  | some member =>
      unfold Invitations.join Invitations.mergeRoles
      dsimp only
      split
      · exact .pure trivial
      · exact .ask (Effect.givesNot_applyChange fun hmem =>
          hgone (Membership.mem_roleIds_missingRoles.1 hmem).1)

/-- Who accepts an invitation is not given a role that is gone. -/
theorem Invitations.accept_givesNot (code : String) (user : User) :
    (Invitations.accept code user).UsesIn (World.Lacks roleId) (Effect.GivesNot roleId)
      fun _ => True := by
  have quiet := @Effect.givesNot_of_not_write roleId
  have ends : ∀ error, (Invitations.endWith code error : Action Acceptance).UsesIn
      (World.Lacks roleId) (Effect.GivesNot roleId) fun _ => True :=
    fun error => .ofUses (.andThen (.ask trivial) fun _ => .throw error)
  refine .afterUses (.ask (quiet _ rfl)) fun found _ => .afterUses (.demand _ _)
    fun invitation _ => .afterUses (.require _ _) fun _ _ => .afterUses (.now (quiet _ rfl))
    fun now _ => ?_
  split
  · exact ends _
  · refine .afterUses (.ask (quiet _ rfl)) fun org _ => ?_
    cases org with
    | none => exact ends _
    | some org =>
        exact .bind (Roles.stillAssignable_givesNot org _) fun roleIds hgone => .ofUses
          (.andThen (.ask (quiet _ rfl)) fun existing =>
          .andThen (Invitations.join_givesNot org user.id hgone now existing) fun member =>
          .andThen (.ask trivial) fun _ => .andThen (.note (quiet _ rfl)) fun _ =>
          .andThen (.note (quiet _ rfl)) fun _ => .pure trivial)

/-- Where a role is not stored, no operation gives it to anyone or invites anyone to it. -/
theorem Operation.action_givesNot (deployment : Deployment) (operation : Operation) :
    (operation.action deployment).UsesIn (World.Lacks roleId) (Effect.GivesNot roleId)
      fun _ => True := by
  cases operation with
  | addMember draft => exact Members.add_givesNot draft
  | updateMember organizationId userId patch => exact Members.update_givesNot _ _ patch
  | createInvitation draft => exact Invitations.create_givesNot _ draft
  | acceptInvitation code user => exact Invitations.accept_givesNot code user
  | _ =>
      refine .ofUses ((Operation.action_uses deployment _).weaken fun effect hmay => ?_)
      unfold Effect.GivesNot
      split
      · cases hmay rfl
      · cases hmay rfl
      · cases hmay rfl
      · trivial

end Operations

/-! ## Runs after a delete -/

/-- Whether an operation has ended. -/
def Task.hasEnded : Task → Bool
  | ⟨_, .done _⟩ => true
  | _ => false

/-- An operation that has ended does nothing, however the run has gone on since. -/
theorem Regime.Continues.advance_ended {regime : Regime} {before after : Configuration}
    (continues : regime.Continues before after) {index : Nat} {task : Task}
    (htask : before.tasks[index]? = some task) (ended : task.hasEnded = true) :
    after.advance index = after := by
  obtain ⟨operation, rest⟩ := task
  cases rest with
  | ask effect next => cases ended
  | done result => simp only [Configuration.advance, continues.task_ended htask]

/-- A configuration in which the operations from a number on give a role to nobody with their next
request, and invite nobody to it. -/
structure Configuration.GivesNoMore (roleId : String) (since : Nat) (config : Configuration) :
    Prop where
  members : ∀ index, since ≤ index → ∀ key,
    (config.advance index).world.tables.Holds roleId key → config.world.tables.Holds roleId key
  invitations : ∀ index, since ≤ index →
    ∀ invitation ∈ (config.advance index).world.tables.invitations,
      roleId ∈ invitation.roleIds → invitation ∈ config.world.tables.invitations

/-- Where the operations from a number on make only requests that do not give a role, they give it
to nobody. -/
theorem Configuration.givesNoMore_of_usesIn {config : Configuration} {roleId : String}
    {since : Nat} {kind : World → Prop}
    (uses : ∀ (index : Nat) (task : Task), since ≤ index → config.tasks[index]? = some task →
      task.rest.UsesIn kind (Effect.GivesNot roleId) fun _ => True) :
    config.GivesNoMore roleId since where
  members index hlater key hholds := by
    rcases config.advance_cases index with hsame | ⟨operation, effect, next, htask⟩
    · rw [hsame] at hholds
      exact hholds
    · rw [Configuration.advance_ask htask] at hholds
      exact World.holds_perform (uses index _ hlater htask).1 hholds
  invitations index hlater invitation hmem hlisted := by
    rcases config.advance_cases index with hsame | ⟨operation, effect, next, htask⟩
    · rw [hsame] at hmem
      exact hmem
    · rw [Configuration.advance_ask htask] at hmem
      exact World.invites_perform (uses index _ hlater htask).1 hmem hlisted

section Runs

variable {regime : Regime} {world : World} {before after : Configuration} {roleId : String}

/-- From the delete of a role on, no operation that begins gives it to anyone. -/
theorem Regime.Continues.givesNoMore (starts : regime.Starts world)
    (reaches : regime.Reaches world before) (continues : regime.Continues before after)
    (fresh : after.NeverReusesRoleIds) (hdeleted : before.hasDeleted roleId = true) :
    after.GivesNoMore roleId before.tasks.length := by
  refine Configuration.givesNoMore_of_usesIn (continues.usesIn ?_ Operation.action_givesNot)
  intro middle hfirst hsecond
  exact hfirst.role_gone starts reaches (fresh.earlier hsecond) hdeleted

/-- If every operation that ran at the delete of a role has ended, then whoever holds the role later
held it at the delete. -/
theorem Regime.Continues.held_before (starts : regime.Starts world)
    (reaches : regime.Reaches world before) (continues : regime.Continues before after)
    (fresh : after.NeverReusesRoleIds) (hdeleted : before.hasDeleted roleId = true)
    (ended : ∀ task ∈ before.tasks, task.hasEnded = true) {key : String × String}
    (hholds : after.world.tables.Holds roleId key) : before.world.tables.Holds roleId key := by
  induction continues with
  | refl => exact hholds
  | @tail middle last continues step ih =>
      have freshMiddle := fresh.earlier (.single step)
      have earlier := ih freshMiddle
      cases step with
      | start deployment operation _ => exact earlier hholds
      | advance moved _ =>
          by_cases hlt : moved < before.tasks.length
          · -- An operation that has ended does nothing any more.
            have hmoved := List.getElem?_eq_getElem hlt
            have hsame := Regime.Continues.advance_ended continues hmoved
              (ended _ (List.getElem_mem hlt))
            rw [hsame] at hholds
            exact earlier hholds
          · have givesNoMore :=
              Regime.Continues.givesNoMore starts reaches continues freshMiddle hdeleted
            exact earlier (givesNoMore.members moved (Nat.le_of_not_lt hlt) key hholds)
      | shift outside _ => exact earlier hholds

/-- In a run in which role ids are never reused, a role that was deleted with success is revoked in
all that the run goes on to, whatever the catalog then holds: what members may do is what it would
be without the role, its permissions can be neither read nor set, and updates keep or drop the
assignments that are left.  No operation that begins after the delete gives the role to anyone who
does not hold it or invites anyone to it.  So if no operation was on its way at the delete, whoever
holds the role later held it then. -/
theorem deletedRole_revoked (starts : regime.Starts world)
    (reaches : regime.Reaches world before) (continues : regime.Continues before after)
    (fresh : after.NeverReusesRoleIds) (hdeleted : before.hasDeleted roleId = true) :
    (∀ outside, (after.world.withOutside outside).HasRevoked roleId) ∧
      after.GivesNoMore roleId before.tasks.length ∧
      ((∀ task ∈ before.tasks, task.hasEnded = true) →
        ∀ key, after.world.tables.Holds roleId key → before.world.tables.Holds roleId key) := by
  have onward := reaches.onward continues
  refine ⟨fun outside => ?_, continues.givesNoMore starts reaches fresh hdeleted,
    fun ended key => continues.held_before starts reaches fresh hdeleted ended⟩
  have distinct := onward.hasDistinctKeys starts
  have lists := onward.endures.listsRolesOnce starts
  exact World.hasRevoked_of_gone
    ⟨distinct.organizations, distinct.memberships, distinct.roles, distinct.grants,
      distinct.invitations⟩
    ⟨lists.members, lists.invitations⟩ (fun member hmember => onward.foundedMembers starts hmember)
    (continues.role_gone starts reaches fresh hdeleted)

/-- A member and an invitation list a role when it is deleted.  The invitation is accepted and the
member is updated; the one does not get the role and the other keeps it, for nothing. -/
theorem deletedRole_revoked_dangling :
    ∃ before after, (Regime.uniform default).Reaches (World.blank [("p", "docs:read")]) before ∧
      before.hasDeleted "aa" = true ∧ (Regime.uniform default).Continues before after ∧
      after.NeverReusesRoleIds ∧
      (before.world.tables.memberships.map fun member => (member.userId, member.roleIds)) =
        [("u", ["aa"])] ∧
      (after.world.tables.memberships.map fun member => (member.userId, member.roleIds)) =
        [("u", ["aa"]), ("v", [])] ∧
      (∀ outside, (after.world.withOutside outside).HasRevoked "aa") ∧
      ∀ key, after.world.tables.Holds "aa" key → before.world.tables.Holds "aa" key := by
  have starts : (Regime.uniform default).Starts (World.blank [("p", "docs:read")]) :=
    Regime.uniform_starts_blank default (by decide)
  have reaches := Regime.uniform_scheduled starts
    [.createOrganization
      { slug := "north", displayName := "North", tenantId := none, metadata := .empty },
     .createRole
      { name := "reader", description := none, isSystem := false, organizationId := some "a"
        tenantId := none },
     .setRolePermissions "aa" (some "a") ["docs:read"],
     .addMember
      { organizationId := "a", userId := "u", tenantId := none, isPrimary := false
        roleIds := ["aa"] },
     .createInvitation
      { organizationId := "a", email := "v@example.com", createdBy := "c", roleIds := ["aa"]
        expiresInHours := none },
     .deleteRole "aa"]
    (List.replicate 9 0 ++ List.replicate 9 1 ++ List.replicate 9 2 ++ List.replicate 9 3 ++
      List.replicate 9 4 ++ List.replicate 9 5)
  have continues := Regime.uniform_continues starts reaches
    [.acceptInvitation "AAAA"
      { id := "v", email := "v@example.com", displayName := none, createdAt := 0 },
     .updateMember "a" "u" { isPrimary := some true, roleIds := some [" aa"] }]
    (List.replicate 9 6 ++ List.replicate 9 7)
  obtain ⟨revoked, -, held⟩ := @deletedRole_revoked _ _ _ _ "aa" starts reaches continues
    (by decide +kernel) (by decide +kernel)
  exact ⟨_, _, reaches, by decide +kernel, continues, by decide +kernel, by decide +kernel,
    by decide +kernel, revoked, held (by decide +kernel)⟩

end Runs
end Tenancy
