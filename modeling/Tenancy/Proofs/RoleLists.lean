import Tenancy.Proofs.FaultyRuns
import Tenancy.Proofs.InvitationAcceptance
import Tenancy.Proofs.InvitationIntegrity

/-!
# Tenancy - Lists of role ids without repetition

Requests may name a role twice and with blanks around it, but what is stored does not.
The check of requested roles and the look at invited ones both hand on each id once, so
a membership or an invitation is stored with a list of different ids; and changing a
membership adds no role that it has.  This needs nothing of the ids or the clock.

Main definitions:

- `Tables.ListsRolesOnce`: what the lists of role ids in a store are like.
- `Tables.rolesPact`: the pact that says so.

Main results:

- Theorem `Tables.ListsRolesOnce.perform`: calls keep the lists, if what they store has
  such lists.
- Theorem `Regime.Endures.keeps`: what all requests of all operations keep holds throughout
  every run, also where calls go wrong.
- Theorem `Regime.Endures.listsRolesOnce`: in every reachable world, no role is listed
  twice.
-/

namespace Tenancy

/-! ## Stored lists -/

namespace Membership

/-- A membership lists no role twice. -/
def ListsOnce (member : Membership) : Prop :=
  member.roleIds.Nodup

/-- A new membership lists no role twice, if it is made with different ones. -/
theorem listsOnce_create {roleIds : List String} (hnodup : roleIds.Nodup) (org : Organization)
    (userId : String) (isPrimary : Bool) (now : Nat) :
    (create org userId isPrimary roleIds now).ListsOnce := by
  unfold ListsOnce
  rw [roleIds_create]
  exact hnodup

/-- A change to a membership lists no role twice. -/
theorem ListsOnce.applyChange {member : Membership} (lists : member.ListsOnce) (change : Change) :
    (member.applyChange change).ListsOnce :=
  nodup_reassign lists change.added change.removedRoleIds

end Membership

/-- An invitation lists no role twice, and each by a tidy id. -/
structure Invitation.ListsOnce (invitation : Invitation) : Prop where
  distinct : invitation.roleIds.Nodup
  tidy : ∀ roleId ∈ invitation.roleIds, Text.IsTidy roleId

/-- Looking through the roles of an invitation again drops none for being repeated or blank. -/
theorem Invitation.ListsOnce.distinctTrimmed_eq {invitation : Invitation}
    (lists : invitation.ListsOnce) :
    Text.distinctTrimmed invitation.roleIds = invitation.roleIds :=
  Text.distinctTrimmed_eq_self lists.tidy lists.distinct

namespace Tables

/-- No membership and no invitation lists a role twice. -/
structure ListsRolesOnce (tables : Tables) : Prop where
  members : ∀ member ∈ tables.memberships, member.ListsOnce
  invitations : ∀ invitation ∈ tables.invitations, invitation.ListsOnce

namespace ListsRolesOnce

variable {tables : Tables}

/-- Calls keep the lists, if a membership or invitation that they store lists no role twice. -/
theorem perform (lists : tables.ListsRolesOnce) (call : Call)
    (hinsert : ∀ member clears, call = .memberships (.insert member clears) → member.ListsOnce)
    (hinvite : ∀ invitation, call = .invitations (.create invitation) → invitation.ListsOnce) :
    (tables.perform call).2.ListsRolesOnce where
  members := by
    intro member hmem
    rcases mem_memberships_perform hmem with ⟨before, hbefore, -, hroles⟩ | ⟨clears, rfl⟩ |
      ⟨before, hbefore, change, -, rfl⟩
    · have hlists := lists.members before hbefore
      unfold Membership.ListsOnce Membership.roleIds at hlists ⊢
      rw [← hroles]
      exact hlists
    · exact hinsert member clears rfl
    · exact (lists.members before hbefore).applyChange change
  invitations := by
    intro invitation hmem
    rcases mem_invitations_perform hmem with hold | hnew
    · exact lists.invitations invitation hold
    · exact hinvite invitation hnew

end ListsRolesOnce

/-- The pact that no role is listed twice. -/
def rolesPact : Pact Unit where
  admits _ := True
  holds _ world := world.tables.ListsRolesOnce
  quiet {_ _ world} hread lists := by
    rw [world.perform_tables_of_not_write hread]
    exact lists
  shift lists := ⟨lists.members, lists.invitations⟩

/-- Requests that are no writes keep the pact. -/
theorem rolesPact_quiet (effect : Effect) (hread : effect.isWrite = false) :
    rolesPact.Keeps effect :=
  rolesPact.keeps_quiet effect hread

/-- Inserting a membership keeps the pact, if it lists no role twice. -/
theorem rolesPact_insert {member : Membership} (hmember : member.ListsOnce) (clears : Bool) :
    rolesPact.Keeps (.store (.memberships (.insert member clears))) := by
  intro _ _ lists
  refine lists.perform (.memberships (.insert member clears)) ?_ nofun
  rintro _ _ ⟨⟩
  exact hmember

/-- Creating an invitation keeps the pact, if it lists no role twice. -/
theorem rolesPact_create {invitation : Invitation} (hinvitation : invitation.ListsOnce) :
    rolesPact.Keeps (.store (.invitations (.create invitation))) := by
  intro _ _ lists
  refine lists.perform (.invitations (.create invitation)) nofun ?_
  rintro _ ⟨⟩
  exact hinvitation

/-- Other calls keep the pact. -/
theorem rolesPact_other {call : Call}
    (hinsert : ∀ member clears, call ≠ .memberships (.insert member clears))
    (hinvite : ∀ invitation, call ≠ .invitations (.create invitation)) :
    rolesPact.Keeps (.store call) :=
  fun _ _ lists => lists.perform call (fun member clears heq => absurd heq (hinsert member clears))
    fun invitation heq => absurd heq (hinvite invitation)

/-- Changing a membership keeps the pact. -/
theorem rolesPact_change (change : Membership.Change) :
    rolesPact.Keeps (.store (.memberships (.applyChange change))) :=
  rolesPact_other nofun nofun

end Tables

/-! ## Operations that store lists -/

section Operations

open Tables

/-- A new member has each requested role once. -/
theorem Members.add_listsOnce (draft : Membership.Draft) :
    (Members.add draft).Uses rolesPact.Keeps fun _ => True := by
  have quiet := rolesPact_quiet
  refine .andThen (.check _) fun _ => .andThen (Action.loadOrganization_uses (Effect.plain quiet) _)
    fun org => .andThen (.check _) fun _ => .andThen (.ask (quiet _ rfl)) fun _ =>
    .andThen (.require _ _) fun _ => ?_
  refine .bind (Roles.assignable_yields quiet org _) fun roleIds hroleIds =>
    .andThen (.now (quiet _ rfl)) fun now => .andThen (.ask (rolesPact_insert ?_ _)) fun _ =>
    .andThen (.note (quiet _ rfl)) fun _ => .pure trivial
  exact Membership.listsOnce_create (hroleIds ▸ Text.nodup_distinctTrimmed _) org _ _ now

/-- A new invitation lists each requested role once. -/
theorem Invitations.create_listsOnce (policy : InvitationPolicy) (draft : Invitation.Draft) :
    (Invitations.create policy draft).Uses rolesPact.Keeps fun _ => True := by
  have quiet := rolesPact_quiet
  refine .andThen (.check _) fun email => .andThen (.check _) fun _ =>
    .andThen (Action.loadOrganization_uses (Effect.plain quiet) _) fun org => ?_
  refine .bind (Roles.assignable_yields quiet org _) fun roleIds hroleIds =>
    .andThen (.now (quiet _ rfl)) fun now => .andThen (.ask (quiet _ rfl)) fun existing =>
    .andThen (Invitations.replaceExpired_uses now existing fun _ =>
      rolesPact_other nofun nofun) fun _ => .andThen (.randomBytes (quiet _ rfl)) fun bytes => ?_
  refine .andThen (Invitations.store_uses (rolesPact_create ?_)) fun _ =>
    .andThen (.note (quiet _ rfl)) fun _ => .pure trivial
  exact
    { distinct := hroleIds ▸ Text.nodup_distinctTrimmed _
      tidy := fun roleId hmem => Text.isTidy_of_mem_distinctTrimmed (hroleIds ▸ hmem) }

/-- The roles of an invitation that can still be assigned come each once. -/
theorem Roles.stillAssignable_nodup {allowed : Effect → Prop}
    (quiet : ∀ effect, effect.isWrite = false → allowed effect) (org : Organization)
    (listed : List String) : (Roles.stillAssignable org listed).Uses allowed List.Nodup := by
  unfold Roles.stillAssignable
  dsimp only
  split
  · exact .pure (Text.nodup_distinctTrimmed listed)
  · exact .andThen (.ask (quiet _ rfl)) fun _ =>
      .pure ((Text.nodup_distinctTrimmed listed).filter _)

/-- Who joins by an invitation has each role once. -/
theorem Invitations.accept_listsOnce (code : String) (user : User) :
    (Invitations.accept code user).Uses rolesPact.Keeps fun _ => True := by
  have quiet := rolesPact_quiet
  have delete : rolesPact.Keeps (.store (.invitations (.delete code))) :=
    rolesPact_other nofun nofun
  have ends : ∀ error, (Invitations.endWith code error : Action Acceptance).Uses rolesPact.Keeps
      fun _ => True := fun error => .andThen (.ask delete) fun _ => .throw error
  refine .andThen (.ask (quiet _ rfl)) fun found => .andThen (.demand _ _) fun invitation =>
    .andThen (.require _ _) fun _ => .andThen (.now (quiet _ rfl)) fun now => ?_
  split
  · exact ends _
  · refine .andThen (.ask (quiet _ rfl)) fun org => ?_
    cases org with
    | none => exact ends _
    | some org =>
        refine .bind (Roles.stillAssignable_nodup quiet org _) fun roleIds hnodup =>
          .andThen (.ask (quiet _ rfl)) fun existing => .andThen (?_ : (Invitations.join org user.id
            roleIds now existing).Uses rolesPact.Keeps fun _ => True) fun member =>
          .andThen (.ask delete) fun _ => .andThen (.note (quiet _ rfl)) fun _ =>
          .andThen (.note (quiet _ rfl)) fun _ => .pure trivial
        cases existing with
        | none =>
            exact .andThen (.ask (rolesPact_insert
              (Membership.listsOnce_create hnodup org user.id false now) false)) fun _ =>
              .pure trivial
        | some existing =>
            unfold Invitations.join Invitations.mergeRoles
            dsimp only
            split
            · exact .pure trivial
            · exact .ask (rolesPact_change _)

/-- Every operation keeps the lists without repetition. -/
theorem Operation.action_listsOnce (deployment : Deployment) (operation : Operation) :
    (operation.action deployment).Uses rolesPact.Keeps fun _ => True := by
  cases operation with
  | addMember draft => exact Members.add_listsOnce draft
  | createInvitation draft => exact Invitations.create_listsOnce _ draft
  | acceptInvitation code user => exact Invitations.accept_listsOnce code user
  | _ =>
      refine Operation.uses_of_writes _ _ fun call hmay => rolesPact_other ?_ ?_
      · rintro member clears rfl
        cases hmay
      · rintro invitation rfl
        cases hmay

end Operations

/-! ## Runs -/

section Runs

variable {regime : Regime} {world : World} {config : Configuration}

/-- A pact that all requests of all operations keep, whatever is replied, holds throughout every
run, also where store calls go wrong. -/
theorem Regime.Endures.keeps {κ : Type} {pact : Pact κ} {known : κ}
    (endures : regime.Endures world config) (begins : pact.holds known world)
    (uses : ∀ deployment operation, regime.deploys deployment →
      (Operation.action deployment operation).Uses pact.Keeps fun _ => True) :
    pact.holds known config.world ∧
      ∀ task ∈ config.tasks, task.rest.Uses pact.Keeps fun _ => True := by
  induction endures with
  | refl => exact ⟨begins, by simp [Configuration.initial]⟩
  | @tail before after _ step ih =>
      obtain ⟨holds, tasks⟩ := ih
      cases step with
      | step step =>
          cases step with
          | start deployment operation deployed =>
              refine ⟨holds, fun task htask => ?_⟩
              rcases List.mem_append.1 htask with htask | htask
              · exact tasks task htask
              · rw [List.mem_singleton.1 htask]
                exact (uses deployment operation deployed).run.mono fun _ _ => trivial
          | advance index _ =>
              rcases before.advance_cases index with hsame | ⟨operation, effect, next, htask⟩
              · rw [hsame]
                exact ⟨holds, tasks⟩
              · obtain ⟨hkeeps, hrest⟩ := tasks _ (List.mem_of_getElem? htask)
                rw [Configuration.advance_ask htask]
                refine ⟨hkeeps known before.world holds, fun task hlater => ?_⟩
                rcases List.mem_or_eq_of_mem_set hlater with hlater | rfl
                · exact tasks task hlater
                · exact hrest _
          | shift outside _ => exact ⟨pact.shift holds, tasks⟩
      | falter index fault =>
          refine ⟨by rw [Configuration.falter_world]; exact holds, ?_⟩
          unfold Configuration.falter
          split
          · rename_i operation call next htask
            split
            · rename_i reply _
              intro task hlater
              rcases List.mem_or_eq_of_mem_set hlater with hlater | rfl
              · exact tasks task hlater
              · exact (tasks _ (List.mem_of_getElem? htask)).2 reply
            · exact tasks
          · exact tasks

/-- In every reachable world, no membership and no invitation lists a role twice, also where store
calls have gone wrong. -/
theorem Regime.Endures.listsRolesOnce (starts : regime.Starts world)
    (endures : regime.Endures world config) : config.world.tables.ListsRolesOnce := by
  have begins : Tables.rolesPact.holds () world := by
    refine ⟨fun member hmem => ?_, fun invitation hmem => ?_⟩
    · rw [starts.noRecords.memberships] at hmem
      cases hmem
    · rw [starts.noRecords.invitations] at hmem
      cases hmem
  exact (endures.keeps begins fun deployment operation _ =>
    operation.action_listsOnce deployment).1

end Runs
end Tenancy
