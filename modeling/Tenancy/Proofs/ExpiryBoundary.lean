import Tenancy.Proofs.AcceptanceOutcomes
import Tenancy.Proofs.Assignability
import Tenancy.Proofs.InvitationIntegrity
import Tenancy.Proofs.InvitationOrigins
import Tenancy.Proofs.UnnoticedPurges

/-!
# Tenancy - One expiry boundary

Listing, inviting, accepting and purging each decide for themselves whether an invitation
has expired.  This file shows that they draw the line at the same second, so there is no
time at which an address can neither be invited again nor accept, and that the line is
where the request put it.

Main definitions:

- `World.CanInvite`: an invitation may be asked for, but for an older one.
- `World.AgreesOnExpiry`: all paths agree on whether an invitation has expired.
- `Invitations.issue`: the part of inviting that comes after way has been made.

Main results:

- Theorem `Invitations.runIn_create_refused`, `Invitations.runIn_create_renewed`: inviting
  while there is an invitation for the address.
- Theorem `World.agreesOnExpiry`: a stored invitation has expired on all paths or on none.
- Theorem `expiryBoundary_of_reaches`: the boundary of every invitation is that of its
  request.
-/

namespace Tenancy

variable {world : World} {policy : InvitationPolicy} {draft : Invitation.Draft}
  {org : Organization} {email : String} {invitation : Invitation}

/-! ## Inviting again -/

/-- If addresses are distinct, a stored invitation is the one for its address. -/
theorem Tables.invitationFor_eq_some {tables : Tables} (addresses : tables.HasDistinctAddresses)
    (hstored : invitation ∈ tables.invitations) :
    tables.invitationFor invitation.organizationId invitation.email = some invitation := by
  cases hfound : tables.invitationFor invitation.organizationId invitation.email with
  | none => exact absurd (isFor_iff.2 rfl) (List.find?_eq_none.1 hfound invitation hstored)
  | some other =>
      rw [eq_of_key_eq addresses (List.mem_of_find?_eq_some hfound) hstored
        (address_of_invitationFor hfound)]

/-- An address may be invited on request, if no older invitation is in the way: it passes the check,
somebody invites it, and the organization is stored and may assign the roles. -/
structure World.CanInvite (world : World) (draft : Invitation.Draft) (org : Organization)
    (email : String) : Prop where
  address : checkEmail draft.email = .ok email
  creator : Text.isBlankText draft.createdBy = false
  organization : world.tables.organizations.find? (·.id == draft.organizationId) = some org
  roles : ∀ roleId ∈ Text.distinctTrimmed draft.roleIds, world.tables.canAssign org roleId = true

namespace Invitations

/-- Store a new invitation with a code that is drawn, and leave a note. -/
def issue (policy : InvitationPolicy) (draft : Invitation.Draft) (org : Organization)
    (email : String) (roleIds : List String) (now : Nat) : Action Invitation := do
  let bytes ← Action.randomBytes
  let invitation : Invitation :=
    { code := Text.Base64Url.encode bytes, organizationId := org.id, organizationSlug := org.slug
      organizationName := org.displayName, email := email, roleIds := roleIds
      createdBy := draft.createdBy, createdAt := now
      expiresAt := now + policy.lifetime draft.expiresInHours }
  store invitation
  Action.note (((AuditNote.within .invitationCreated org.id).signedBy invitation.createdBy).saying
    ("roles=" ++ toString invitation.roleIds.length))
  pure invitation

/-- An address that may be invited is invited once way has been made. -/
theorem runIn_create (may : world.CanInvite draft org email) :
    (create policy draft).runIn world =
      (makeWay world.clock org.id email >>= fun _ =>
        issue policy draft org email (Text.distinctTrimmed draft.roleIds)
          world.clock).runIn world := by
  have hblank : checkNotBlank "created_by" draft.createdBy = .ok () := by
    rw [checkNotBlank, may.creator]
    rfl
  refine (Action.runIn_bind_ok (Action.runIn_check may.address) _).trans ?_
  refine (Action.runIn_bind_ok (Action.runIn_check hblank) _).trans ?_
  refine (Action.runIn_bind_ok (Action.runIn_loadOrganization may.organization) _).trans ?_
  refine (Action.runIn_bind_ok (Roles.runIn_assignable may.roles) _).trans ?_
  refine (@Action.runIn_bind_ok _ _ world world Action.now world.clock rfl _).trans ?_
  rw [makeWay, bind_assoc]
  rfl

/-- A new invitation with a new code for an address without one is stored behind the others. -/
theorem runIn_issue (roleIds : List String) (now : Nat)
    (hnew : ∀ other ∈ world.tables.invitations, other.code ≠ world.nextCode ∧
      other.address ≠ (org.id, email)) :
    ∃ issued after, (issue policy draft org email roleIds now).runIn world = (.ok issued, after) ∧
      issued.address = (org.id, email) ∧ issued.createdAt = now ∧
      after.tables.invitations = world.tables.invitations ++ [issued] := by
  let issued : Invitation :=
    { code := world.nextCode, organizationId := org.id, organizationSlug := org.slug
      organizationName := org.displayName, email := email, roleIds := roleIds
      createdBy := draft.createdBy, createdAt := now
      expiresAt := now + policy.lifetime draft.expiresInHours }
  have hdraw : Action.randomBytes.runIn world = (.ok world.drawBytes.1, world.drawBytes.2) := rfl
  have hstore := @runIn_store world.drawBytes.2 issued hnew
  refine ⟨issued, _, (Action.runIn_bind_ok hdraw _).trans <|
    (Action.runIn_bind_ok hstore _).trans rfl, rfl, rfl, ?_⟩
  rfl

/-- While an invitation for the address has not expired, no other is made. -/
theorem runIn_create_refused (may : world.CanInvite draft org email)
    (hfound : world.tables.invitationFor org.id email = some invitation)
    (hunexpired : invitation.isExpiredAt world.clock = false) :
    (create policy draft).runIn world = (.error .alreadyInvited, world) := by
  have hrefused : (makeWay world.clock org.id email).runIn world =
      (.error .alreadyInvited, world) := by
    rw [runIn_makeWay, hfound]
    simp [replaceExpired, Action.require, hunexpired]
  rw [runIn_create may, Action.runIn_bind, hrefused]

/-- An invitation for the address that has expired is replaced by a new one. -/
theorem runIn_create_renewed (may : world.CanInvite draft org email)
    (distinct : world.tables.HasDistinctKeys) (addresses : world.tables.HasDistinctAddresses)
    (hcodes : ∀ other ∈ world.tables.invitations, other.code ≠ world.nextCode)
    (hfound : world.tables.invitationFor org.id email = some invitation)
    (hexpired : invitation.isExpiredAt world.clock = true) :
    ∃ renewed after, (create policy draft).runIn world = (.ok renewed, after) ∧
      renewed.address = (org.id, email) ∧ renewed.createdAt = world.clock ∧
      after.tables.invitations = world.tables.invitations.erase invitation ++ [renewed] := by
  let cleared := (World.perform (.store (.invitations (.delete invitation.code))) world).2
  have hmem := List.mem_of_find?_eq_some hfound
  have hcleared : cleared.tables.invitations = world.tables.invitations.erase invitation :=
    Tables.filter_code_ne_eq_erase distinct.invitations hmem
  have hway : (makeWay world.clock org.id email).runIn world = (.ok (), cleared) := by
    rw [runIn_makeWay, hfound]
    exact runIn_replaceExpired_some hexpired
  have hfree := makeWay_frees addresses hway
  obtain ⟨renewed, after, hissue, haddress, hcreated, hafter⟩ :=
    @runIn_issue cleared policy draft org email (Text.distinctTrimmed draft.roleIds) world.clock
      fun other hother => ⟨hcodes other (List.mem_of_mem_filter hother), hfree other hother⟩
  refine ⟨renewed, after, ?_, haddress, hcreated, by rw [hafter, hcleared]⟩
  rw [runIn_create may, Action.runIn_bind_ok hway]
  exact hissue

/-! ## Listing -/

/-- A list shows the unexpired invitations. -/
theorem runIn_list (world : World) (organizationId : String) :
    (list organizationId).runIn world =
      (.ok (world.tables.listedAt organizationId world.clock), world) :=
  rfl

end Invitations

/-- A stored invitation is listed exactly until it expires. -/
theorem Tables.mem_listedAt_iff {tables : Tables} (hstored : invitation ∈ tables.invitations)
    (now : Nat) :
    invitation ∈ tables.listedAt invitation.organizationId now ↔
      invitation.isExpiredAt now = false := by
  simp [(tables.listedAt_perm _ now).mem_iff, hstored]

/-! ## All paths -/

/-- In a world, all paths agree with a condition on whether an invitation has not expired. -/
structure World.AgreesOnExpiry (world : World) (invitation : Invitation) (unexpired : Prop) :
    Prop where
  /-- The list of its organization shows the invitation. -/
  listing : ∃ listed, (Invitations.list invitation.organizationId).runIn world =
    (.ok listed, world) ∧ (invitation ∈ listed ↔ unexpired)
  /-- Its address counts as invited, when it may be invited otherwise. -/
  inviting : ∀ (policy : InvitationPolicy) (draft : Invitation.Draft) (org : Organization),
    world.CanInvite draft org invitation.email → org.id = invitation.organizationId →
    (((Invitations.create policy draft).runIn world).1 = .error .alreadyInvited ↔ unexpired)
  /-- A user with its address is not told that it has expired. -/
  accepting : ∀ user : User, Text.Email.normalize user.email = invitation.email →
    (((Invitations.accept invitation.code user).runIn world).1 ≠ .error .invitationExpired ↔
      unexpired)
  /-- A purge keeps the invitation. -/
  purging : ∃ count after, Invitations.purge.runIn world = (.ok count, after) ∧
    (invitation ∈ after.tables.invitations ↔ unexpired)

/-- A stored invitation has expired on all paths or on none. -/
theorem World.agreesOnExpiry (distinct : world.tables.HasDistinctKeys)
    (addresses : world.tables.HasDistinctAddresses)
    (hcodes : ∀ other ∈ world.tables.invitations, other.code ≠ world.nextCode)
    (hstored : invitation ∈ world.tables.invitations) :
    world.AgreesOnExpiry invitation (invitation.isExpiredAt world.clock = false) where
  listing := ⟨_, Invitations.runIn_list world _, Tables.mem_listedAt_iff hstored _⟩
  inviting policy draft org may hid := by
    have hfound : world.tables.invitationFor org.id invitation.email = some invitation := by
      rw [hid]
      exact Tables.invitationFor_eq_some addresses hstored
    cases hexpired : invitation.isExpiredAt world.clock with
    | false =>
        rw [Invitations.runIn_create_refused may hfound hexpired]
        exact iff_of_true rfl rfl
    | true =>
        obtain ⟨renewed, after, hrun, -⟩ :=
          @Invitations.runIn_create_renewed _ policy _ _ _ _ may distinct addresses hcodes hfound
            hexpired
        rw [hrun]
        exact iff_of_false nofun nofun
  accepting user haddress := by
    have hfound := Tables.find_eq_some_of_mem distinct.invitations hstored
    cases hexpired : invitation.isExpiredAt world.clock with
    | true =>
        rw [Invitations.runIn_accept_expired hfound haddress hexpired]
        exact iff_of_false (fun hother => hother rfl) nofun
    | false =>
        refine iff_of_true ?_ rfl
        cases horg : world.tables.organizations.find? (·.id == invitation.organizationId) with
        | none =>
            rw [Invitations.runIn_accept_orphaned hfound haddress hexpired horg]
            exact nofun
        | some org =>
            obtain ⟨_, _, hrun, -⟩ :=
              Invitations.accept_achieves ⟨hfound, hexpired, horg, haddress⟩
            rw [hrun]
            exact nofun
  purging := by
    refine ⟨_, _, Invitations.runIn_purge world, ?_⟩
    simp [World.unexpired, hstored]

/-! ## The boundary of a request -/

/-- While its lower bound is at least an hour and not above the upper one, a policy brings the
number of hours that is asked for, or else that by default, between the two. -/
theorem InvitationPolicy.clampHours_eq (hbounds : policy.minHours ≤ policy.maxHours)
    (requested : Option Nat) :
    policy.clampHours requested =
      min (max (requested.getD policy.defaultHours) policy.minHours) policy.maxHours := by
  rw [clampHours, min_eq_left hbounds]

/-- In every reachable world, while no code is drawn twice, an invitation that an operation has
stored on request and that is still there has one expiry boundary, which is as many hours after the
time of its creation as the policy allows of those requested.  Before it, at every time, its
organization lists it, its address counts as invited, a user with its address is not told that it
has expired but can accept it, and a purge keeps it; from then on none of this is so, and inviting its
address again replaces it.  The boundary comes after the creation and fits a word. -/
theorem expiryBoundary_of_reaches {regime : Regime} {start : World} {config : Configuration}
    (starts : regime.Starts start) (reaches : regime.Reaches start config)
    (codes : config.world.drawBytes.2.supply.DistinctCodes) {index : Nat}
    (invites : config.Invites index policy draft invitation)
    (hstored : invitation ∈ config.world.tables.invitations) (hmin : 1 ≤ policy.minHours)
    (hbounds : policy.minHours ≤ policy.maxHours) (hmax : policy.maxHours < 2 ^ 32)
    (hclock : invitation.createdAt < 2 ^ 63) :
    let hours :=
      min (max (draft.expiresInHours.getD policy.defaultHours) policy.minHours) policy.maxHours
    let expiry := invitation.createdAt + 3600 * hours
    (⟨.clock, invitation.createdAt⟩ ∈ transcriptOf config.history index ∧
      invitation.createdAt < expiry ∧ expiry < 2 ^ 64) ∧
    (∀ now, (config.world.atTime now).AgreesOnExpiry invitation (now < expiry)) ∧
    (∀ now < expiry, ∀ user : User, Text.Email.normalize user.email = invitation.email →
      (Invitations.accept invitation.code user).Succeeds (config.world.atTime now)) ∧
    ∀ now, expiry ≤ now → ∀ (policy : InvitationPolicy) (draft : Invitation.Draft)
      (org : Organization), (config.world.atTime now).CanInvite draft org invitation.email →
      org.id = invitation.organizationId →
      ∃ renewed after,
        (Invitations.create policy draft).runIn (config.world.atTime now) = (.ok renewed, after) ∧
        renewed.address = invitation.address ∧ renewed.createdAt = now ∧
        after.tables.invitations =
          config.world.tables.invitations.erase invitation ++ [renewed] := by
  intro hours expiry
  have distinct : config.world.tables.HasDistinctKeys := reaches.hasDistinctKeys starts
  have addresses : config.world.tables.HasDistinctAddresses := reaches.hasDistinctAddresses starts
  have hcodes := reaches.nextCode_is_new starts codes
  obtain ⟨_, follows⟩ := invites.follows
  obtain ⟨hread, hexpires, -⟩ := Invitations.create_traced follows invites.created
  have hhours : policy.lifetime draft.expiresInHours = 3600 * hours := by
    rw [InvitationPolicy.lifetime, InvitationPolicy.clampHours_eq hbounds, Nat.mul_comm]
  have hexpiry : invitation.expiresAt = expiry := by rw [hexpires, hhours]
  have hlast : 1 ≤ hours := le_min (hmin.trans (le_max_right _ _)) (hmin.trans hbounds)
  have hfits : expiry < 2 ^ 64 := by
    rw [← hexpiry, hexpires]
    exact InvitationPolicy.add_lifetime_lt hclock hmax _
  have hunexpired : ∀ now, invitation.isExpiredAt now = false ↔ now < expiry := by
    intro now
    rw [Invitation.isExpiredAt, hexpiry, decide_eq_false_iff_not, not_le]
  refine ⟨⟨hread, by omega, hfits⟩, fun now => ?_, fun now hbefore user haddress => ?_,
    fun now hafter policy draft org may hid => ?_⟩
  · rw [← hunexpired now]
    exact @World.agreesOnExpiry (config.world.atTime now) _ distinct addresses hcodes hstored
  · obtain ⟨org, horg, hid⟩ := reaches.organization_stored starts hstored
    refine (Invitations.succeeds_accept_iff _ _ _).2 ⟨invitation, org, rfl, ?_⟩
    exact @Tables.HasDistinctKeys.canAccept (config.world.atTime now) distinct _ _ _ hstored horg
      hid haddress (hexpiry ▸ hbefore)
  · have hfound : config.world.tables.invitationFor org.id invitation.email = some invitation := by
      rw [hid]
      exact Tables.invitationFor_eq_some addresses hstored
    have hexpired : invitation.isExpiredAt now = true := by
      rw [← Bool.not_eq_false, hunexpired]
      exact not_lt.2 hafter
    obtain ⟨renewed, after, hrun, haddress, hcreated, htables⟩ :=
      @Invitations.runIn_create_renewed (config.world.atTime now) policy _ _ _ _ may distinct
        addresses hcodes hfound hexpired
    exact ⟨renewed, after, hrun, haddress.trans (Prod.ext hid rfl), hcreated, htables⟩

/-- An hour is asked for, but the policy allows no less than two. -/
theorem expiryBoundary_of_reaches_two_hours :
    ∃ config invitation,
      (Regime.uniform { limits := .standard, invitations := ⟨24, 2, 5⟩ }).Reaches (World.blank [])
        config ∧
      config.world.tables.invitations = [invitation] ∧ invitation.createdAt = 0 ∧
      ∀ now, (config.world.atTime now).AgreesOnExpiry invitation (now < 7200) := by
  let deployment : Deployment := { limits := .standard, invitations := ⟨24, 2, 5⟩ }
  let north : Organization.Draft :=
    { slug := "north", displayName := "North", tenantId := none, metadata := .empty }
  let draft : Invitation.Draft :=
    { organizationId := "a", email := "u@example.com", createdBy := "c", roleIds := []
      expiresInHours := some 1 }
  let invitation : Invitation :=
    { code := "AAAA", organizationId := "a", organizationSlug := "north"
      organizationName := "North", email := "u@example.com", roleIds := [], createdBy := "c"
      createdAt := 0, expiresAt := 7200 }
  have starts : (Regime.uniform deployment).Starts (World.blank []) :=
    Regime.uniform_starts_blank _ (by simp)
  let config : Configuration := .scheduled (World.blank []) deployment
    [.createOrganization north, .createInvitation draft]
    (List.replicate 6 0 ++ List.replicate 6 1)
  have reaches : (Regime.uniform deployment).Reaches (World.blank []) config :=
    Regime.uniform_scheduled starts _ _
  have hstored : config.world.tables.invitations = [invitation] := by decide +kernel
  have hmem : invitation ∈ config.world.tables.invitations := by simp [hstored]
  obtain ⟨index, _, asked, rfl, invites⟩ := reaches.exists_invites starts hmem
  have hasked : asked = draft := by
    have hrequested := invites.requested
    have htasks : config.tasks.map (·.operation) =
        [.createOrganization north, .createInvitation draft] :=
      Configuration.map_operation_scheduled _ _ _ _
    rw [← List.getElem?_map, htasks] at hrequested
    match index with
    | 0 => cases hrequested
    | 1 => exact Operation.createInvitation.inj (Option.some.inj hrequested).symm
    | index + 2 => cases hrequested
  rw [hasked] at invites
  obtain ⟨-, hagrees, -⟩ := expiryBoundary_of_reaches starts reaches
    ((reaches.admitted starts).1.perform .randomBytes).distinctCodes invites hmem (by decide)
    (by decide) (by decide) (by decide)
  exact ⟨config, invitation, reaches, hstored, rfl, hagrees⟩

end Tenancy
