import Tenancy.Proofs.FaultyRuns
import Tenancy.Proofs.InvitationAcceptance
import Tenancy.Proofs.OrderlyRuns
import Tenancy.Proofs.StoppedRuns

/-!
# Tenancy - Accepting an invitation again after a failure

Accepting an invitation writes the membership first and ends the invitation last.  If a
store call fails on the way, the invitation is still there, and the user may have joined
already.  Joining twice is joining once, so accepting again ends where one undisturbed
acceptance would have ended.

Main definitions:

- `Tables.SameJoining`: two stores in which a user joined in the same way.
- `World.Survives`: what a failed acceptance leaves, and what accepting again comes to.

Main results:

- Theorem `Invitations.accept_passes`: where an acceptance makes its calls, the user has
  not joined or has joined, and nothing else has changed.
- Theorem `accept_survives_failing_call`: an acceptance with one failing store call fails,
  changes nothing but the membership, and can be repeated.
-/

namespace Tenancy

/-! ## Halfway -/

/-- A user may have joined an organization with some roles, and nothing else has changed: only these
roles may be new to the user. -/
structure Tables.MayHaveJoined (before after : Tables) (organizationId userId : String)
    (roleIds : List String) : Prop where
  frame : after =
    { before with memberships := after.memberships, membershipWrites := after.membershipWrites }
  others : after.othersThan organizationId userId = before.othersThan organizationId userId
  roles : ∀ roleId, roleId ∈ roleIds ∨ roleId ∈ after.rolesIn organizationId userId ↔
    roleId ∈ roleIds ∨ roleId ∈ before.rolesIn organizationId userId
  isPrimary : after.isPrimaryIn organizationId userId = before.isPrimaryIn organizationId userId

/-- Before anything has changed, the user has not joined. -/
theorem Tables.mayHaveJoined_refl (tables : Tables) (organizationId userId : String)
    (roleIds : List String) : tables.MayHaveJoined tables organizationId userId roleIds where
  frame := rfl
  others := rfl
  roles _ := Iff.rfl
  isPrimary := rfl

/-- A user who has joined may have joined. -/
theorem Tables.Joined.mayHaveJoined {before after : Tables} {organizationId userId : String}
    {roleIds : List String} (joined : before.Joined after organizationId userId roleIds) :
    before.MayHaveJoined after organizationId userId roleIds where
  frame := joined.frame
  others := joined.others
  roles roleId := by rw [joined.roles, or_self_left]
  isPrimary := joined.isPrimary

/-! ## Where accepting may stop -/

namespace Invitations

/-- Accepting gives up at the first call that fails. -/
theorem accept_givesUp (code : String) (user : User) : (accept code user).GivesUp := by
  have hends : ∀ error : Error, (endWith code error : Action Acceptance).GivesUp :=
    fun error => .bind (.ask _) fun _ => .throw error
  refine .bind (.ask _) fun found => .bind (.demand _ _) fun invitation =>
    .bind (.require _ _) fun _ => .bind .now fun now => ?_
  split
  · exact hends _
  · refine .bind (.ask _) fun org => ?_
    cases org with
    | none => exact hends _
    | some org =>
        refine .bind ?_ fun roleIds => .bind (.ask _) fun existing => .bind ?_ fun member => ?_
        · unfold Roles.stillAssignable
          dsimp only
          split
          · exact .pure _
          · exact .bind (.ask _) fun _ => .pure _
        · cases existing with
          | none => exact .bind (.ask _) fun _ => .pure _
          | some existing =>
              unfold join mergeRoles
              dsimp only
              split
              · exact .pure _
              · exact .ask _
        · exact .bind (.ask _) fun _ => .bind (.note _) fun _ => .bind (.note _) fun _ => .pure _

/-- Joining makes its call, if it makes one, before anything has changed. -/
theorem join_passes {kind : Tables → Prop} {world : World} (hworld : kind world.tables)
    (org : Organization) (userId : String) (roleIds : List String) (now : Nat)
    (existing : Option Membership) :
    (join org userId roleIds now existing).PassesThrough kind world := by
  cases existing with
  | none => exact .bind (.ask hworld) fun _ _ _ => .ofNone rfl
  | some member =>
      unfold join mergeRoles
      dsimp only
      split
      · exact .ofNone rfl
      · exact .ask hworld

/-- Where accepting makes its calls, the user may have joined, and nothing else has changed. -/
theorem accept_passes {world : World} {invitation : Invitation} {org : Organization} {user : User}
    (acceptable : world.CanAccept invitation org user) :
    (accept invitation.code user).PassesThrough
      (world.tables.MayHaveJoined · org.id user.id
        (world.tables.assignableOf org invitation.roleIds)) world := by
  have hexisting : (Action.ask (.memberships (.find org.id user.id))).runIn world =
      (.ok (world.tables.memberships.find? (Tables.isMemberOf org.id user.id)), world) :=
    Action.runIn_read rfl rfl
  obtain ⟨member, joined, hjoin, hjoined⟩ := runIn_join world org user.id
    (world.tables.assignableOf org invitation.roleIds) world.clock
  have hbefore := world.tables.mayHaveJoined_refl org.id user.id
    (world.tables.assignableOf org invitation.roleIds)
  refine .afterRun (.ask hbefore) acceptable.runIn_findByCode <|
    .afterRun (.ofNone rfl) (Action.runIn_demand rfl _) <|
    .afterRun (.require _ _) (Action.runIn_require (beq_iff_eq.2 acceptable.address) _) ?_
  refine @Action.PassesThrough.afterRun _ _ _ world world Action.now _ world.clock (.ofNone rfl)
    rfl ?_
  rw [acceptable.unexpired]
  refine .afterRun (.ask hbefore) acceptable.runIn_findOrganization <| .afterRun
    (.ofUses (Roles.stillAssignable_uses Effect.plain_reads org _) hbefore)
    (Roles.runIn_stillAssignable world org _) <| .afterRun (.ask hbefore) hexisting <|
    .afterRun (join_passes hbefore org _ _ _ _) hjoin ?_
  exact .bind (.ask hjoined.mayHaveJoined) fun _ _ _ => .ofNone rfl

end Invitations

/-! ## Accepting again -/

/-- In two stores, a user joined an organization in the same way: the user is a member with the same
roles and the same primary flag, and the other memberships and the invitations are the same. -/
structure Tables.SameJoining (first second : Tables) (organizationId userId : String) : Prop where
  members : (first.memberships.find? (isMemberOf organizationId userId)).isSome = true ∧
    (second.memberships.find? (isMemberOf organizationId userId)).isSome = true
  roles : ∀ roleId, roleId ∈ first.rolesIn organizationId userId ↔
    roleId ∈ second.rolesIn organizationId userId
  isPrimary : first.isPrimaryIn organizationId userId = second.isPrimaryIn organizationId userId
  others : first.othersThan organizationId userId = second.othersThan organizationId userId
  invitations : first.invitations = second.invitations

/-- What an acceptance that failed leaves of a world: all but the membership is as it was, the
invitation included, and accepting again before the invitation expires succeeds and leaves what one
undisturbed acceptance leaves. -/
structure World.Survives (world failed : World) (invitation : Invitation) (org : Organization)
    (user : User) : Prop where
  frame : failed.tables =
    { world.tables with
      memberships := failed.tables.memberships, membershipWrites := failed.tables.membershipWrites }
  others : failed.tables.othersThan org.id user.id = world.tables.othersThan org.id user.id
  again : ∀ outside : Outside, invitation.isExpiredAt outside.clock = false →
    (Invitations.accept invitation.code user).Achieves world fun undisturbed _ =>
      (Invitations.accept invitation.code user).Achieves (failed.withOutside outside)
        fun repeated _ => undisturbed.tables.SameJoining repeated.tables org.id user.id

/-- An acceptance that failed where the user may have joined survives. -/
theorem Tables.MayHaveJoined.survives {world failed : World} {invitation : Invitation}
    {org : Organization} {user : User} (acceptable : world.CanAccept invitation org user)
    (halfway : world.tables.MayHaveJoined failed.tables org.id user.id
      (world.tables.assignableOf org invitation.roleIds)) :
    world.Survives failed invitation org user := by
  refine ⟨halfway.frame, halfway.others, fun outside hunexpired => ?_⟩
  have horganizations : failed.tables.organizations = world.tables.organizations := by
    rw [halfway.frame]
  have hroles : failed.tables.roles = world.tables.roles := by
    rw [halfway.frame]
  have hinvitations : failed.tables.invitations = world.tables.invitations := by
    rw [halfway.frame]
  have again : (failed.withOutside outside).CanAccept invitation org user :=
    { stored := hinvitations ▸ acceptable.stored
      unexpired := hunexpired
      organization := horganizations ▸ acceptable.organization
      address := acceptable.address }
  have hassignable : (failed.withOutside outside).tables.assignableOf org invitation.roleIds =
      world.tables.assignableOf org invitation.roleIds := by
    have hcan : (failed.withOutside outside).tables.canAssign org = world.tables.canAssign org := by
      funext roleId
      exact congrArg (fun roles : List Role =>
        (roles.find? (·.id == roleId)).any (·.fits org)) hroles
    rw [assignableOf, assignableOf, hcan]
  obtain ⟨first, undisturbed, hfirst, accepted⟩ := Invitations.accept_achieves acceptable
  obtain ⟨second, repeated, hsecond, reaccepted⟩ := Invitations.accept_achieves again
  refine ⟨first, undisturbed, hfirst, second, repeated, hsecond, ?_⟩
  constructor
  case members => exact ⟨accepted.isMember, reaccepted.isMember⟩
  case roles =>
    intro roleId
    rw [accepted.mem_rolesIn, reaccepted.mem_rolesIn, hassignable]
    exact (halfway.roles roleId).symm
  case isPrimary =>
    rw [accepted.isPrimaryIn_eq, reaccepted.isPrimaryIn_eq]
    exact halfway.isPrimary.symm
  case others =>
    rw [accepted.othersThan_eq, reaccepted.othersThan_eq]
    exact halfway.others.symm
  case invitations =>
    rw [accepted.invitations_eq, reaccepted.invitations_eq]
    exact congrArg _ hinvitations.symm

/-- After every interleaving of operations whose calls may go wrong, accepting an unexpired invitation
of an organization that exists, as a user with its address, fails where one of its store calls fails,
and the world survives it. -/
theorem accept_survives_failing_call {regime : Regime} {start : World} {config : Configuration}
    (starts : regime.Starts start) (endures : regime.Endures start config)
    {invitation : Invitation} (hinvitation : invitation ∈ config.world.tables.invitations)
    (hunexpired : invitation.isExpiredAt config.world.clock = false) {org : Organization}
    (horg : org ∈ config.world.tables.organizations) (hid : org.id = invitation.organizationId)
    {user : User} (haddress : Text.Email.normalize user.email = invitation.email) {n : Nat}
    (hcall : n < ((Invitations.accept invitation.code user).callPoints config.world).length)
    (error : StoreError) :
    ∃ failed, (Invitations.accept invitation.code user).runFaulty (.failing n error) config.world =
        (.error (.storage error), failed) ∧
      config.world.Survives failed invitation org user := by
  have keys := endures.hasDistinctKeys starts
  have acceptable : config.world.CanAccept invitation org user :=
    { stored := Tables.find_eq_some_of_mem keys.invitations hinvitation
      unexpired := hunexpired
      organization := hid ▸ Tables.find_eq_some_of_mem keys.organizations horg
      address := haddress }
  have hpoint := List.getElem?_eq_getElem hcall
  refine ⟨_, (Invitations.accept_givesUp _ _).runFaulty_failing hpoint error, ?_⟩
  exact (Invitations.accept_passes acceptable _ (List.getElem_mem hcall)).survives acceptable

/-- The last call of an acceptance fails: the user has joined, and the invitation is still there. -/
theorem accept_survives_failing_call_last :
    ∃ (config : Configuration) (failed : World) (invitation : Invitation) (org : Organization)
      (user : User), Regime.orderly.Reaches (World.blank []) config ∧
      ((Invitations.accept invitation.code user).callPoints config.world).length = 6 ∧
      (Invitations.accept invitation.code user).runFaulty (.failing 5 (.unavailable "down"))
        config.world = (.error (.storage (.unavailable "down")), failed) ∧
      failed.tables.rolesIn org.id user.id = ["aa"] ∧ failed.tables.invitations = [invitation] ∧
      config.world.Survives failed invitation org user := by
  have starts : Regime.orderly.Starts (World.blank []) := Regime.orderly_starts_blank (by simp)
  obtain ⟨config, reaches, hworld⟩ := Regime.orderly_operations starts default
    [.createOrganization
      { slug := "north", displayName := "North", tenantId := none, metadata := .empty },
     .createRole
      { name := "reader", description := none, isSystem := false, organizationId := none
        tenantId := none },
     .createInvitation
      { organizationId := "a", email := "u@example.com", createdBy := "c", roleIds := ["aa"]
        expiresInHours := none }]
  obtain ⟨user, invitation, hinvitation, org, horg, hunexpired, hid, haddress, hlength, hroles,
      hkept⟩ : ∃ user : User, ∃ invitation ∈ config.world.tables.invitations,
        ∃ org ∈ config.world.tables.organizations,
          invitation.isExpiredAt config.world.clock = false ∧
          org.id = invitation.organizationId ∧
          Text.Email.normalize user.email = invitation.email ∧
          ((Invitations.accept invitation.code user).callPoints config.world).length = 6 ∧
          ((Invitations.accept invitation.code user).runFaulty (.failing 5 (.unavailable "down"))
            config.world).2.tables.rolesIn org.id user.id = ["aa"] ∧
          ((Invitations.accept invitation.code user).runFaulty (.failing 5 (.unavailable "down"))
            config.world).2.tables.invitations = [invitation] := by
    rw [hworld]
    exact ⟨{ id := "u", email := "U@example.com ", displayName := none, createdAt := 0 },
      by decide +kernel⟩
  have hcall : 5 < ((Invitations.accept invitation.code user).callPoints config.world).length := by
    rw [hlength]
    decide
  obtain ⟨failed, hrun, survives⟩ := accept_survives_failing_call starts reaches.endures
    hinvitation hunexpired horg hid haddress hcall (.unavailable "down")
  rw [hrun] at hroles hkept
  exact ⟨config, failed, invitation, org, user, reaches, hlength, hrun, hroles, hkept, survives⟩

end Tenancy
