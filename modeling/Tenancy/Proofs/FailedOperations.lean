import Tenancy.Proofs.CheckedValues
import Tenancy.Proofs.FaultyRuns
import Tenancy.Proofs.SerialRuns

/-!
# Tenancy - Operations that fail

An operation decides on everything before it writes, and it writes once.  So if it
fails, it fails before its write or by its write, and the store is as it was.  Inviting
an address writes twice: it removes an expired invitation for the address before it
stores the new one.  Accepting an invitation writes twice as well and is not covered.

Main definitions:

- `Invitation.MakesWay`: expired invitations that a request for another one replaces.
- `Operation.LeavesOnFailure`: the tables that an operation may leave where it fails.

Main results:

- Theorem `Operation.action_withstands`: whatever calls go wrong, operations other than
  accepting an invitation leave such tables where they fail.
- Theorem `failed_leaves_tables`: so they do in every reachable world, under every fault
  plan, even if calls went wrong before.
-/

namespace Tenancy

/-! ## What may be left -/

/-- An invitation that makes way for a requested one: it is for the same address of the same
organization, and it is expired. -/
structure Invitation.MakesWay (existing : Invitation) (draft : Invitation.Draft) (now : Nat) :
    Prop where
  organizationId : existing.organizationId = draft.organizationId
  email : existing.email = Text.Email.normalize draft.email
  expired : existing.isExpiredAt now = true

/-- The tables that an operation may leave in a world where it fails: those that were there, unless
it was about to replace an expired invitation, which may be gone. -/
def Operation.LeavesOnFailure (operation : Operation) (before : World) (tables : Tables) : Prop :=
  tables = before.tables ∨
    ∃ draft, operation = .createInvitation draft ∧
      ∃ existing ∈ before.tables.invitations, existing.MakesWay draft before.clock ∧
        tables = { before.tables with invitations := before.tables.invitations.erase existing }

/-- Among invitations with distinct codes, deleting the code of one removes this one. -/
theorem Tables.filter_code_ne_eq_erase {invitations : List Invitation} {existing : Invitation}
    (distinct : (invitations.map (·.code)).Nodup) (hexisting : existing ∈ invitations) :
    invitations.filter (·.code != existing.code) = invitations.erase existing := by
  rw [(List.Nodup.of_map _ distinct).erase_eq_filter]
  refine List.filter_congr fun other hother => ?_
  rw [Bool.eq_iff_iff, bne_iff_ne, bne_iff_ne]
  refine not_congr ⟨fun hcode => Tables.eq_of_key_eq distinct hother hexisting hcode, ?_⟩
  exact congrArg _

/-! ## Operations that write once -/

section Operations

variable {strikes : Fault → Prop} {failed : Tables → Prop} {world : World}
variable (hfailed : failed world.tables)

include hfailed

/-- After an organization was loaded, it is a stored one. -/
theorem Action.Withstands.afterLoadOrganization {α : Type} {wanted : World → α → Prop} {id : String}
    {next : Organization → Action α}
    (hnext : ∀ org, world.tables.organizations.find? (·.id == id) = some org →
      (next org).Withstands strikes failed wanted world) :
    (Action.loadOrganization id >>= next).Withstands strikes failed wanted world := by
  rw [Action.loadOrganization, bind_assoc]
  refine .afterAsk hfailed fun found after hreply => ?_
  obtain ⟨rfl, hfound⟩ := hreply.read rfl
  refine .demand hfailed fun org horg => hnext org ?_
  subst horg
  rcases hfound with hstored | hsilent
  · exact Except.ok.inj hstored
  · cases hsilent

/-- After a role was loaded, it is a stored one. -/
theorem Action.Withstands.afterLoadRole {α : Type} {wanted : World → α → Prop} {roleId : String}
    {next : Role → Action α}
    (hnext : ∀ role, world.tables.roles.find? (·.id == roleId) = some role →
      (next role).Withstands strikes failed wanted world) :
    (Roles.load roleId >>= next).Withstands strikes failed wanted world := by
  rw [Roles.load, bind_assoc]
  refine .afterAsk hfailed fun found after hreply => ?_
  obtain ⟨rfl, hfound⟩ := hreply.read rfl
  refine .demand hfailed fun role hrole => hnext role ?_
  subst hrole
  rcases hfound with hstored | hsilent
  · exact Except.ok.inj hstored
  · cases hsilent

theorem Organizations.create_withstands (limits : Limits) (draft : Organization.Draft) :
    (Organizations.create limits draft).Withstands strikes failed (fun _ _ => True) world := by
  refine .check hfailed fun slug _ => .check hfailed fun displayName _ =>
    .check hfailed fun _ _ => ?_
  refine .quietly (.ask rfl) hfailed fun _ sameSlug hfailed => .require hfailed fun _ => ?_
  refine .quietly (.ask rfl) hfailed fun _ sameName hfailed => .require hfailed fun _ => ?_
  refine .now <| .quietly (.freshId rfl) hfailed fun _ id hfailed => ?_
  exact .afterAsk hfailed fun _ _ _ => .note fun _ => .pure trivial

theorem Organizations.update_withstands (limits : Limits) (id : String)
    (patch : Organization.Patch) :
    (Organizations.update limits id patch).Withstands strikes failed (fun _ _ => True) world := by
  refine .quietly (Action.loadOrganization_uses Effect.plain_reads id) hfailed
    fun _ org hfailed => ?_
  refine .quietly (patchedName_uses Effect.plain_reads limits org _) hfailed
    fun _ displayName hfailed => ?_
  refine .quietly (patchedMetadata_uses limits org _) hfailed fun _ metadata hfailed => .now ?_
  dsimp only
  split
  · exact .pure trivial
  · exact .afterAsk hfailed fun _ _ _ => .note fun _ => .pure trivial

theorem Members.add_withstands (draft : Membership.Draft) :
    (Members.add draft).Withstands strikes failed (fun _ _ => True) world := by
  refine .check hfailed fun _ _ => ?_
  refine .quietly (Action.loadOrganization_uses Effect.plain_reads _) hfailed
    fun _ org hfailed => ?_
  refine .check hfailed fun _ _ => .quietly (.ask rfl) hfailed fun _ existing hfailed => ?_
  refine .require hfailed fun _ => ?_
  refine .quietly (Roles.assignable_uses Effect.plain_reads org _) hfailed
    fun _ roleIds hfailed => .now ?_
  exact .afterAsk hfailed fun _ _ _ => .note fun _ => .pure trivial

theorem Members.update_withstands (organizationId userId : String) (patch : Membership.Patch) :
    (Members.update organizationId userId patch).Withstands strikes failed (fun _ _ => True)
      world := by
  refine .quietly (.ask rfl) hfailed fun _ found hfailed => .demand hfailed fun member _ => .now ?_
  refine .quietly (Members.withRoles_uses Effect.plain_reads _ _ _ _ _) hfailed
    fun _ change hfailed => ?_
  split
  · exact .pure trivial
  · exact .afterAsk hfailed fun _ _ _ => .note fun _ => .pure trivial

theorem Members.remove_withstands (organizationId userId : String) :
    (Members.remove organizationId userId).Withstands strikes failed (fun _ _ => True) world := by
  refine .afterAsk hfailed fun deleted _ _ => ?_
  split
  · exact .lastNote _
  · exact .pure trivial

theorem Roles.create_withstands (limits : Limits) (draft : Role.Draft) :
    (Roles.create limits draft).Withstands strikes failed (fun _ _ => True) world := by
  refine .check hfailed fun name _ => .check hfailed fun description _ => ?_
  refine .quietly (draftTenant_uses Effect.plain_reads draft) hfailed
    fun _ tenantId hfailed => ?_
  refine .quietly (.ask rfl) hfailed fun _ sameName hfailed => .require hfailed fun _ => .now ?_
  refine .quietly (.freshId rfl) hfailed fun _ id hfailed => ?_
  exact .afterAsk hfailed fun _ _ _ => .note fun _ => .pure trivial

theorem Roles.update_withstands (limits : Limits) (roleId : String) (patch : Role.Patch) :
    (Roles.update limits roleId patch).Withstands strikes failed (fun _ _ => True) world := by
  refine .quietly (load_uses Effect.plain_reads roleId) hfailed fun _ role hfailed => ?_
  refine .quietly (patchedName_uses Effect.plain_reads limits role _) hfailed
    fun _ name hfailed => ?_
  refine .quietly (patchedDescription_uses limits role _) hfailed fun _ description hfailed => ?_
  split
  · exact .pure trivial
  · exact .now <| .afterAsk hfailed fun _ _ _ => .note fun _ => .pure trivial

/-- A role that was found is there to be deleted, so only a call that went wrong says otherwise. -/
theorem Roles.delete_withstands (roleId : String) :
    (Roles.delete roleId).Withstands strikes failed (fun _ _ => True) world := by
  refine .afterLoadRole hfailed fun role hfind => .require hfailed fun _ => ?_
  refine .afterAsk hfailed fun deleted after hreply => ?_
  rcases hreply.answered with hgenuine | ⟨hsilent, rfl⟩
  · have hanswer : world.tables.roles.any (·.id == roleId) = deleted :=
      Except.ok.inj (congrArg Prod.fst hgenuine)
    have hid : role.id = roleId := Tables.key_of_find hfind
    have hstored : world.tables.roles.any (·.id == roleId) = true :=
      List.any_eq_true.2 ⟨role, List.mem_of_find?_eq_some hfind, beq_iff_eq.2 hid⟩
    rw [← hanswer, hstored]
    exact .lastNote _
  · obtain rfl : false = deleted := Option.some.inj hsilent
    exact .throw _ hfailed

theorem Roles.setPermissions_withstands (roleId : String) (scope : Option String)
    (names : List String) :
    (Roles.setPermissions roleId scope names).Withstands strikes failed (fun _ _ => True)
      world := by
  refine .quietly (load_uses Effect.plain_reads roleId) hfailed fun _ role hfailed => ?_
  refine .quietly (scopeTenant_uses Effect.plain_reads role roleId scope) hfailed
    fun _ tenantId hfailed => ?_
  refine .quietly (wantedIds_uses Effect.plain_reads _) hfailed fun _ wanted hfailed => ?_
  refine .quietly (.ask rfl) hfailed fun _ grants hfailed => ?_
  refine .quietly (newGrants_uses Effect.plain_reads role scope tenantId _) hfailed
    fun _ added hfailed => ?_
  split
  · exact .pure trivial
  · exact .afterAsk hfailed fun _ _ _ => .lastNote _

theorem Invitations.revoke_withstands (organizationId code : String) :
    (Invitations.revoke organizationId code).Withstands strikes failed (fun _ _ => True)
      world := by
  refine .quietly (.ask rfl) hfailed fun _ found hfailed => ?_
  split
  · exact .pure trivial
  · refine .afterAsk hfailed fun deleted _ _ => ?_
    split
    · exact .note fun _ => .pure trivial
    · exact .pure trivial

theorem Invitations.purge_withstands :
    Invitations.purge.Withstands strikes failed (fun _ _ => True) world :=
  .now (.lastAsk (.invitations (.deleteExpired world.clock)) hfailed)

/-! ## Inviting -/

/-- Storing an invitation either succeeds or changes nothing. -/
theorem Invitations.store_withstands (invitation : Invitation) :
    (Invitations.store invitation).Withstands strikes failed (fun _ _ => True) world := by
  refine .afterAttempt fun reply after hreply => ?_
  cases reply with
  | ok value => exact .pure trivial
  | error error =>
      have hkept : failed after.tables := hreply.tables_of_error ▸ hfailed
      cases error <;> exact .throw _ hkept

/-- Making way for an invitation removes at most an expired one. -/
theorem Invitations.replaceExpired_withstands (now : Nat) {existing : Option Invitation}
    (hremoved : ∀ invitation, existing = some invitation → invitation.isExpiredAt now = true →
      failed { world.tables with
        invitations := world.tables.invitations.filter (·.code != invitation.code) }) :
    (Invitations.replaceExpired now existing).Withstands strikes failed
      (fun after _ => failed after.tables) world := by
  cases existing with
  | none => exact .pure hfailed
  | some invitation =>
      refine .require hfailed fun hexpired => .afterAsk hfailed fun deleted after hreply => ?_
      rcases hreply.answered with hgenuine | ⟨-, rfl⟩
      · have hafter : after = (world.callStore (.invitations (.delete invitation.code))).2 :=
          (congrArg Prod.snd hgenuine).symm
        rw [hafter]
        exact .pure (hremoved invitation rfl hexpired)
      · exact .pure hfailed

/-- Inviting an address fails before anything is stored; an expired invitation may be gone. -/
theorem Invitations.create_withstands (policy : InvitationPolicy) (draft : Invitation.Draft)
    (hremoved : ∀ existing ∈ world.tables.invitations, existing.MakesWay draft world.clock →
      failed { world.tables with
        invitations := world.tables.invitations.filter (·.code != existing.code) }) :
    (Invitations.create policy draft).Withstands strikes failed (fun _ _ => True) world := by
  refine .check hfailed fun email hemail => .check hfailed fun _ _ => ?_
  refine .afterLoadOrganization hfailed fun org horg => ?_
  refine .afterUses (Roles.assignable_uses Effect.plain_reads org _) hfailed
    fun after roleIds htables hclock _ => .now ?_
  rw [← htables] at hfailed hremoved
  rw [← hclock] at hremoved
  refine .afterAsk hfailed fun existing _ hreply => ?_
  obtain ⟨rfl, hfound⟩ := hreply.read rfl
  refine .bind (replaceExpired_withstands hfailed _ fun invitation hexisting hexpired => ?_)
    fun later _ hfailed => ?_
  · subst hexisting
    have hstored := Except.ok.inj (hfound.resolve_right (by nofun))
    have haddress := List.find?_some hstored
    simp only [Bool.and_eq_true, beq_iff_eq] at haddress
    exact hremoved invitation (List.mem_of_find?_eq_some hstored)
      { organizationId := haddress.1.trans (Tables.key_of_find horg)
        email := haddress.2.trans (checkEmail_eq_ok_iff.1 hemail).1
        expired := hexpired }
  · refine .quietly (.randomBytes rfl) hfailed fun _ bytes hfailed => ?_
    exact .bind (store_withstands hfailed _) fun _ _ _ => .note fun _ => .pure trivial

end Operations

/-! ## All operations -/

/-- However its calls go wrong, an operation that is no acceptance of an invitation leaves nothing
unwanted where it fails. -/
theorem Operation.action_withstands {world : World} (keys : world.tables.HasDistinctKeys)
    (deployment : Deployment) (operation : Operation)
    (hother : ∀ code user, operation ≠ .acceptInvitation code user) :
    (operation.action deployment).Withstands (fun _ => True) (operation.LeavesOnFailure world)
      (fun _ _ => True) world := by
  have hfailed : operation.LeavesOnFailure world world.tables := .inl rfl
  have hreads : (∀ call, ¬operation.MayWrite call) →
      (operation.action deployment).Withstands (fun _ => True) (operation.LeavesOnFailure world)
        (fun _ _ => True) world :=
    fun hnone => .ofUses (action_quiet deployment operation hnone) hfailed
  cases operation with
  | createOrganization draft => exact Organizations.create_withstands hfailed _ _
  | updateOrganization id patch => exact Organizations.update_withstands hfailed _ _ _
  | archiveOrganization id => exact Organizations.update_withstands hfailed _ _ _
  | addMember draft => exact Members.add_withstands hfailed _
  | updateMember organizationId userId patch => exact Members.update_withstands hfailed _ _ _
  | removeMember organizationId userId => exact Members.remove_withstands hfailed _ _
  | createRole draft => exact Roles.create_withstands hfailed _ _
  | updateRole roleId patch => exact Roles.update_withstands hfailed _ _ _
  | deleteRole roleId => exact Roles.delete_withstands hfailed _
  | setRolePermissions roleId scope names => exact Roles.setPermissions_withstands hfailed _ _ _
  | createInvitation draft =>
      refine Invitations.create_withstands hfailed _ _ fun existing hexisting makesWay => ?_
      rw [Tables.filter_code_ne_eq_erase keys.invitations hexisting]
      exact .inr ⟨draft, rfl, existing, hexisting, makesWay, rfl⟩
  | acceptInvitation code user => exact absurd rfl (hother code user)
  | revokeInvitation organizationId code => exact Invitations.revoke_withstands hfailed _ _
  | purgeInvitations => exact Invitations.purge_withstands hfailed
  | getOrganization | getOrganizationBySlug | listOrganizations | getMember | listMemberships
  | pageMembers | getRole | listRoles | listAssignableRoles | getRolePermissions | findInvitation
  | listInvitations | resolvePermissions | resolveInOrganization | contributeClaims
  | additionalPermissions => exact hreads fun _ hwrite => nomatch hwrite

/-- After every interleaving of operations whose calls may go wrong, and under every fault plan, an
operation that is no acceptance of an invitation and that fails leaves the tables as they were; only
an expired invitation that was about to be replaced may be gone. -/
theorem failed_leaves_tables {regime : Regime} {start after : World} {config : Configuration}
    (starts : regime.Starts start) (endures : regime.Endures start config)
    (deployment : Deployment) (operation : Operation)
    (hother : ∀ code user, operation ≠ .acceptInvitation code user) (plan : FaultPlan)
    {error : Error}
    (hrun : operation.runFaulty deployment plan config.world = (.error error, after)) :
    operation.LeavesOnFailure config.world after.tables := by
  have withstands := Operation.action_withstands (endures.hasDistinctKeys starts) deployment
    operation hother
  have hends := withstands.runFaulty plan fun _ _ _ _ => trivial
  have hresult : (operation.action deployment).runFaulty plan config.world =
      (.error error, after) := hrun
  rw [hresult] at hends
  exact hends

/-- An expired invitation is removed to make way for another one, which the store then fails to
take: only the expired one is gone. -/
theorem failed_leaves_tables_expired_removed :
    ∃ (config : Configuration) (operation : Operation) (plan : FaultPlan) (after : World),
      Regime.unrepeating.Reaches (World.blank []) config ∧
      (operation.runFaulty default plan config.world).2 = after ∧
      config.world.tables.invitations.map (·.email) = ["u@example.com", "v@example.com"] ∧
      after.tables.invitations.map (·.email) = ["v@example.com"] ∧
      operation.LeavesOnFailure config.world after.tables := by
  have starts : Regime.unrepeating.Starts (World.blank []) :=
    (Regime.orderly_starts_blank (by simp)).unrepeating
  have visits := ((@World.Visits.start (World.blank [])).runAll default
    [.createOrganization
      { slug := "north", displayName := "North", tenantId := none, metadata := .empty },
     .createInvitation
      { organizationId := "a", email := "u@example.com", createdBy := "c", roleIds := []
        expiresInHours := some 1 },
     .createInvitation
      { organizationId := "a", email := "v@example.com", createdBy := "c", roleIds := []
        expiresInHours := some 9 }]).shift
    { clock := 7200, users := [], catalog := [], catalogAvailable := true, globalPermissions := [] }
  obtain ⟨config, reaches, hworld⟩ := visits.reaches starts
  obtain ⟨operation, plan, hother, herror, hbefore, hafter⟩ :
      ∃ (operation : Operation) (plan : FaultPlan),
        (∀ code user, operation ≠ .acceptInvitation code user) ∧
        (operation.runFaulty default plan config.world).1 =
          .error (.storage (.unavailable "down")) ∧
        config.world.tables.invitations.map (·.email) = ["u@example.com", "v@example.com"] ∧
        (operation.runFaulty default plan config.world).2.tables.invitations.map (·.email) =
          ["v@example.com"] := by
    rw [hworld]
    exact ⟨.createInvitation
        { organizationId := "a", email := " U@example.com", createdBy := "c", roleIds := []
          expiresInHours := none },
      fun _ call =>
        if call.name = "invitation.create" then some (.fails (.unavailable "down")) else none,
      fun _ _ => nofun, by decide +kernel, by decide +kernel, by decide +kernel⟩
  exact ⟨config, operation, plan, _, reaches, rfl, hbefore, hafter,
    failed_leaves_tables starts reaches.endures default operation hother plan (Prod.ext herror rfl)⟩

end Tenancy
