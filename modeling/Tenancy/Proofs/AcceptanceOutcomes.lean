import Tenancy.Proofs.FailedOperations
import Tenancy.Proofs.MembershipWrites
import Tenancy.Proofs.RoleLists

/-!
# Tenancy - What accepting an invitation comes to

An acceptance looks at the invitation, at the address, at the clock and at the
organization, in this order, and only then writes.  This file says which of its outcomes
comes about, and what is stored afterwards: whom the address does not fit changes
nothing, an expired invitation is all that is removed, and otherwise the user ends up with
the roles held before and, after them, the invited ones that can be assigned and were not
held.

Main definitions:

- `Tables.gainedBy`: the invited roles that a user gains.
- `Membership.joining`: the membership after an acceptance.
- `Tables.AcceptedAs`: tables before and after an acceptance that returned something.

Main results:

- Theorem `Invitations.runIn_join_joining`: joining stores that membership.
- Theorem `Invitations.runIn_accept_mismatch`, `Invitations.runIn_accept_expired`,
  `Invitations.runIn_accept_ok`: the outcomes.
- Theorem `acceptance_of_endures`: what accepting comes to in every reachable world.
-/

namespace Tenancy

/-! ## What a user gains -/

/-- The invited roles that a user gains in an organization, in the order of the invitation: those
that there are, that fit, and that the user does not hold. -/
def Tables.gainedBy (tables : Tables) (org : Organization) (userId : String)
    (invited : List String) : List String :=
  invited.filter fun roleId =>
    tables.canAssign org roleId && !(tables.rolesIn org.id userId).contains roleId

/-- The membership of a user who gains roles at `now`: the old one with the new roles at the end, or
as it is if there are none, or a new one that is not primary. -/
def Membership.joining (previous : Option Membership) (org : Organization) (userId : String)
    (gained : List String) (now : Nat) : Membership :=
  match previous with
  | some member =>
    if gained = [] then member
    else
      { member with
        roles := member.roles ++ gained.map fun roleId =>
          RoleAssignment.create org userId roleId now
        updatedAt := now }
  | none => Membership.create org userId false gained now

/-- A user accepted an invitation to an organization at `now`, with what was returned. -/
structure Tables.AcceptedAs (before after : Tables) (org : Organization) (invitation : Invitation)
    (user : User) (now : Nat) (acceptance : Acceptance) : Prop where
  /-- The user has the roles held before, and then those gained. -/
  membership : acceptance.membership =
    Membership.joining (before.memberships.find? (isMemberOf org.id user.id)) org user.id
      (before.gainedBy org user.id invitation.roleIds) now
  distinct : acceptance.membership.roleIds.Nodup
  stored : after.memberships.find? (isMemberOf org.id user.id) = some acceptance.membership
  others : after.othersThan org.id user.id = before.othersThan org.id user.id
  invitations : after.invitations = before.invitations.erase invitation
  frame : after =
    { before with
      memberships := after.memberships, membershipWrites := after.membershipWrites
      invitations := after.invitations }
  wasMember : acceptance.wasMember =
    (before.memberships.find? (isMemberOf org.id user.id)).isSome

section Joining

variable {tables : Tables} {org : Organization} {userId : String} {invited : List String}

/-- Of an invitation that lists each role once, the roles gained are the missing ones among those
that can be assigned. -/
theorem Tables.gainedBy_eq (hinvited : Text.distinctTrimmed invited = invited) :
    tables.gainedBy org userId invited =
      (tables.assignableOf org invited).filter (!(tables.rolesIn org.id userId).contains ·) := by
  rw [gainedBy, assignableOf, hinvited, List.filter_filter]
  exact List.filter_congr fun roleId _ => Bool.and_comm _ _

/-- Who is no member gains all roles that can be assigned. -/
theorem Tables.gainedBy_of_none (hinvited : Text.distinctTrimmed invited = invited)
    (hfind : tables.memberships.find? (isMemberOf org.id userId) = none) :
    tables.gainedBy org userId invited = tables.assignableOf org invited := by
  have hroles : tables.rolesIn org.id userId = [] := by rw [rolesIn, hfind, Option.elim_none]
  rw [gainedBy_eq hinvited, hroles]
  exact List.filter_eq_self.2 fun _ _ => rfl

/-- The roles that a member gains are the missing ones. -/
theorem Membership.missingRoles_assignable {member : Membership}
    (hinvited : Text.distinctTrimmed invited = invited)
    (hfind : tables.memberships.find? (Tables.isMemberOf org.id userId) = some member) (now : Nat) :
    member.missingRoles org (tables.assignableOf org invited) now =
      (tables.gainedBy org userId invited).map fun roleId =>
        RoleAssignment.create org userId roleId now := by
  have hroles : tables.rolesIn org.id userId = member.roleIds := by
    rw [Tables.rolesIn, hfind, Option.elim_some]
  have huser : member.userId = userId := (Prod.mk.inj (Tables.find_isMemberOf hfind).2).2
  rw [Tables.gainedBy_eq hinvited, hroles, missingRoles, huser]
  congr 1
  refine List.filter_congr fun roleId _ => ?_
  rw [Bool.not_inj_iff, Bool.eq_iff_iff, hasRole_iff, List.contains_iff_mem]

/-- A member does not hold the roles that it gains. -/
theorem Tables.not_held_of_mem_gainedBy {member : Membership} {roleId : String}
    (hfind : tables.memberships.find? (isMemberOf org.id userId) = some member)
    (hgained : roleId ∈ tables.gainedBy org userId invited) : roleId ∉ member.roleIds := by
  have hroles : tables.rolesIn org.id userId = member.roleIds := by
    rw [rolesIn, hfind, Option.elim_some]
  have hnew := (Bool.and_eq_true_iff.1 (List.mem_filter.1 hgained).2).2
  rw [hroles] at hnew
  simpa using hnew

/-- After joining, no role is listed twice. -/
theorem Membership.nodup_joining {previous : Option Membership} {gained : List String}
    (hprevious : ∀ member, previous = some member → member.ListsOnce)
    (hgained : gained.Nodup)
    (hnew : ∀ member, previous = some member → ∀ roleId ∈ gained, roleId ∉ member.roleIds)
    (now : Nat) : (joining previous org userId gained now).roleIds.Nodup := by
  cases previous with
  | none => exact listsOnce_create hgained org userId false now
  | some member =>
      unfold joining
      dsimp only
      split
      · exact hprevious member rfl
      · have hids : (gained.map fun roleId => RoleAssignment.create org userId roleId now).map
            (·.roleId) = gained := by
          rw [List.map_map]
          exact List.map_id _
        unfold roleIds
        rw [List.map_append, hids]
        refine List.nodup_append.2 ⟨hprevious member rfl, hgained, ?_⟩
        rintro held hheld _ hmem rfl
        exact hnew member rfl held hmem hheld

end Joining

/-! ## Joining -/

namespace Invitations

variable {world : World} {org : Organization} {userId : String} {invited : List String}

/-- Who is no member joins by a new membership with the roles that can be assigned. -/
theorem runIn_join_new
    (hfind : world.tables.memberships.find? (Tables.isMemberOf org.id userId) = none)
    (roleIds : List String) (now : Nat) :
    ∃ after, (join org userId roleIds now none).runIn world =
        (.ok (Membership.create org userId false roleIds now), { world with tables := after }) ∧
      world.tables.Writes after org.id userId (Membership.create org userId false roleIds now)
        (world.tables.othersThan org.id userId) := by
  have hinsert := @Tables.perform_insert world.tables
    (Membership.create org userId false roleIds now) hfind false
  have hwrites := @Tables.writes_insert world.tables
    (Membership.create org userId false roleIds now) hfind
  rw [hinsert] at hwrites
  exact ⟨_, Action.runIn_bind_ok (Action.runIn_answered hinsert) _, hwrites⟩

/-- A member joins by gaining the roles that are missing; if there are none, nothing is written. -/
theorem runIn_join_member {member : Membership}
    (hfind : world.tables.memberships.find? (Tables.isMemberOf org.id userId) = some member)
    (hinvited : Text.distinctTrimmed invited = invited) (now : Nat) :
    ∃ after,
      (join org userId (world.tables.assignableOf org invited) now (some member)).runIn world =
        (.ok (Membership.joining (some member) org userId
          (world.tables.gainedBy org userId invited) now), { world with tables := after }) ∧
      world.tables.Writes after org.id userId (Membership.joining (some member) org userId
        (world.tables.gainedBy org userId invited) now)
        (world.tables.othersThan org.id userId) := by
  have huser : member.userId = userId := (Prod.mk.inj (Tables.find_isMemberOf hfind).2).2
  have hmissing := Membership.missingRoles_assignable hinvited hfind now
  have hassigned : (world.tables.assignableOf org invited).Nodup :=
    (Text.nodup_distinctTrimmed invited).filter _
  unfold join mergeRoles Membership.joining
  dsimp only
  rw [hmissing, List.isEmpty_map]
  by_cases hnone : world.tables.gainedBy org userId invited = []
  · rw [hnone, if_pos rfl]
    exact ⟨world.tables, rfl, Tables.writes_self hfind⟩
  · rw [if_neg (by simpa using hnone), if_neg hnone]
    generalize hchange : Membership.Change.mk _ _ _ _ _ _ _ = change
    have hplace : change.organizationId = org.id ∧ change.userId = userId := by
      rw [← hchange]
      exact ⟨rfl, huser⟩
    have hstored : world.tables.memberships.find?
        (Tables.isMemberOf change.organizationId change.userId) = some member := by
      rw [hplace.1, hplace.2]
      exact hfind
    have hclears : change.clearsOthers = false := by rw [← hchange]
    have happly : member.applyChange change =
        { member with
          roles := member.roles ++ (world.tables.gainedBy org userId invited).map fun roleId =>
            RoleAssignment.create org userId roleId now
          updatedAt := now } := by
      rw [← hchange, ← hmissing, ← Membership.reassign_missing hassigned org now]
      rfl
    have hperform := Tables.perform_applyChange hstored
    have hwrites := Tables.writes_applyChange hstored
    rw [hclears, hplace.1, hplace.2, hperform, happly] at hwrites
    rw [happly] at hperform
    exact ⟨_, Action.runIn_answered hperform, hwrites⟩

/-- Joining by an invitation stores the membership with the roles that are gained, and no other
membership changes. -/
theorem runIn_join_joining (hinvited : Text.distinctTrimmed invited = invited) (now : Nat) :
    ∃ after,
      (join org userId (world.tables.assignableOf org invited) now
        (world.tables.memberships.find? (Tables.isMemberOf org.id userId))).runIn world =
        (.ok (Membership.joining
          (world.tables.memberships.find? (Tables.isMemberOf org.id userId)) org userId
          (world.tables.gainedBy org userId invited) now), { world with tables := after }) ∧
      world.tables.Writes after org.id userId (Membership.joining
        (world.tables.memberships.find? (Tables.isMemberOf org.id userId)) org userId
        (world.tables.gainedBy org userId invited) now)
        (world.tables.othersThan org.id userId) := by
  cases hfind : world.tables.memberships.find? (Tables.isMemberOf org.id userId) with
  | none =>
      rw [Tables.gainedBy_of_none hinvited hfind]
      exact runIn_join_new hfind (world.tables.assignableOf org invited) now
  | some member => exact runIn_join_member hfind hinvited now

/-! ## Outcomes -/

variable {invitation : Invitation} {code : String} {user : User}

/-- An invitation with a code is found. -/
theorem runIn_findByCode (world : World) (code : String) :
    (Action.ask (.invitations (.findByCode code))).runIn world =
      (.ok (world.tables.invitations.find? (·.code == code)), world) :=
  Action.runIn_read rfl rfl

/-- Deleting an invitation and failing. -/
theorem runIn_endWith {α : Type} (code : String) (error : Error) :
    (endWith code error : Action α).runIn world = (.error error, { world with
      tables := { world.tables with
        invitations := world.tables.invitations.filter (·.code != code) } }) :=
  Action.runIn_bind_ok (Action.runIn_answered rfl) _

/-- A code that there is no invitation with cannot be accepted. -/
theorem runIn_accept_missing
    (hfound : world.tables.invitations.find? (·.code == code) = none) (user : User) :
    (accept code user).runIn world = (.error .invitationMissing, world) := by
  have hfind := runIn_findByCode world code
  rw [hfound] at hfind
  exact Action.runIn_bind_ok hfind _

/-- A user whose address is not the invited one cannot accept, and nothing changes. -/
theorem runIn_accept_mismatch
    (hfound : world.tables.invitations.find? (·.code == code) = some invitation)
    (haddress : Text.Email.normalize user.email ≠ invitation.email) :
    (accept code user).runIn world = (.error .addressMismatch, world) := by
  have hfind := runIn_findByCode world code
  rw [hfound] at hfind
  have hrefused : (Text.Email.normalize user.email == invitation.email) = false :=
    beq_eq_false_iff_ne.2 haddress
  refine (Action.runIn_bind_ok hfind _).trans ?_
  refine (Action.runIn_bind_ok (Action.runIn_demand rfl _) _).trans ?_
  rw [hrefused]
  rfl

/-- An invitation that has expired is removed, and nothing else changes. -/
theorem runIn_accept_expired
    (hfound : world.tables.invitations.find? (·.code == code) = some invitation)
    (haddress : Text.Email.normalize user.email = invitation.email)
    (hexpired : invitation.isExpiredAt world.clock = true) :
    (accept code user).runIn world = (.error .invitationExpired, { world with
      tables := { world.tables with
        invitations := world.tables.invitations.filter (·.code != code) } }) := by
  have hfind := runIn_findByCode world code
  rw [hfound] at hfind
  refine (Action.runIn_bind_ok hfind _).trans ?_
  refine (Action.runIn_bind_ok (Action.runIn_demand rfl _) _).trans ?_
  refine (Action.runIn_bind_ok (Action.runIn_require (beq_iff_eq.2 haddress) _) _).trans ?_
  refine (@Action.runIn_bind_ok _ _ world world Action.now world.clock rfl _).trans ?_
  rw [hexpired]
  exact runIn_endWith code _

/-- An invitation to an organization that there is not is removed as well. -/
theorem runIn_accept_orphaned
    (hfound : world.tables.invitations.find? (·.code == code) = some invitation)
    (haddress : Text.Email.normalize user.email = invitation.email)
    (hexpired : invitation.isExpiredAt world.clock = false)
    (hnone : world.tables.organizations.find? (·.id == invitation.organizationId) = none) :
    (accept code user).runIn world = (.error .invitationMissing, { world with
      tables := { world.tables with
        invitations := world.tables.invitations.filter (·.code != code) } }) := by
  have hfind := runIn_findByCode world code
  rw [hfound] at hfind
  have horg : (Action.ask (.organizations (.findById invitation.organizationId))).runIn world =
      (.ok none, world) := Action.runIn_read rfl (congrArg Except.ok hnone)
  refine (Action.runIn_bind_ok hfind _).trans ?_
  refine (Action.runIn_bind_ok (Action.runIn_demand rfl _) _).trans ?_
  refine (Action.runIn_bind_ok (Action.runIn_require (beq_iff_eq.2 haddress) _) _).trans ?_
  refine (@Action.runIn_bind_ok _ _ world world Action.now world.clock rfl _).trans ?_
  rw [hexpired]
  exact (Action.runIn_bind_ok horg _).trans (runIn_endWith code _)

/-- Where an invitation that lists each role once can be accepted, accepting it stores the
membership with the roles that are gained, and removes the invitation. -/
theorem runIn_accept_ok {org : Organization} (acceptable : world.CanAccept invitation org user)
    (distinct : world.tables.HasDistinctKeys) (lists : world.tables.ListsRolesOnce) :
    (accept invitation.code user).Achieves world fun after acceptance =>
      world.tables.AcceptedAs after.tables org invitation user world.clock acceptance := by
  have hinvitation := List.mem_of_find?_eq_some acceptable.stored
  have hlists := lists.invitations invitation hinvitation
  have hexisting : (Action.ask (.memberships (.find org.id user.id))).runIn world =
      (.ok (world.tables.memberships.find? (Tables.isMemberOf org.id user.id)), world) :=
    Action.runIn_read rfl rfl
  obtain ⟨joined, hjoin, hwrites⟩ := @runIn_join_joining world org user.id invitation.roleIds
    hlists.distinctTrimmed_eq world.clock
  refine .bind acceptable.runIn_findByCode <| .bind (Action.runIn_demand rfl _) ?_
  refine .bind (Action.runIn_require (beq_iff_eq.2 acceptable.address) _) ?_
  refine @Action.Achieves.bind _ _ world world Action.now _ world.clock _ rfl ?_
  rw [acceptable.unexpired]
  refine .bind acceptable.runIn_findOrganization <|
    .bind (Roles.runIn_stillAssignable world org _) <| .bind hexisting <|
    .bind hjoin <| .bind (Action.runIn_answered rfl) ⟨_, _, rfl, ?_⟩
  have hinvitations : joined.invitations = world.tables.invitations := by rw [hwrites.frame]
  exact
    { membership := rfl
      distinct := by
        refine Membership.nodup_joining (fun member hfind => lists.members member
          (List.mem_of_find?_eq_some hfind)) (hlists.distinct.filter _) ?_ world.clock
        intro member hfind roleId hgained
        exact Tables.not_held_of_mem_gainedBy hfind hgained
      stored := hwrites.stored
      others := hwrites.others
      invitations := by
        rw [← Tables.filter_code_ne_eq_erase distinct.invitations hinvitation, ← hinvitations]
      frame := by
        rw [hwrites.frame]
      wasMember := rfl }

/-- An acceptance succeeds exactly where the invitation can be accepted. -/
theorem succeeds_accept_iff (world : World) (code : String) (user : User) :
    (accept code user).Succeeds world ↔
      ∃ invitation org, invitation.code = code ∧ world.CanAccept invitation org user := by
  constructor
  · intro succeeds
    cases hfound : world.tables.invitations.find? (·.code == code) with
    | none =>
        exact absurd succeeds (Action.not_succeeds_of_runIn (runIn_accept_missing hfound user))
    | some invitation =>
        have hcode : invitation.code = code := Tables.key_of_find hfound
        by_cases haddress : Text.Email.normalize user.email = invitation.email
        · cases hexpired : invitation.isExpiredAt world.clock with
          | true =>
              exact absurd succeeds
                (Action.not_succeeds_of_runIn (runIn_accept_expired hfound haddress hexpired))
          | false =>
              cases horg : world.tables.organizations.find?
                  (·.id == invitation.organizationId) with
              | none =>
                  exact absurd succeeds (Action.not_succeeds_of_runIn
                    (runIn_accept_orphaned hfound haddress hexpired horg))
              | some org => exact ⟨invitation, org, hcode, hcode ▸ hfound, hexpired, horg, haddress⟩
        · exact absurd succeeds
            (Action.not_succeeds_of_runIn (runIn_accept_mismatch hfound haddress))
  · rintro ⟨invitation, org, rfl, acceptable⟩
    obtain ⟨acceptance, after, hrun, -⟩ := accept_achieves acceptable
    exact Action.succeeds_of_runIn hrun

end Invitations

/-- Among records with distinct keys, an invitation can be accepted by a user if it is stored and
not expired, its organization is stored, and the user has its address. -/
theorem Tables.HasDistinctKeys.canAccept {world : World}
    (distinct : world.tables.HasDistinctKeys) {invitation : Invitation} {org : Organization}
    {user : User} (hinvitation : invitation ∈ world.tables.invitations)
    (horg : org ∈ world.tables.organizations) (hid : org.id = invitation.organizationId)
    (haddress : Text.Email.normalize user.email = invitation.email)
    (hunexpired : world.clock < invitation.expiresAt) : world.CanAccept invitation org user where
  stored := Tables.find_eq_some_of_mem distinct.invitations hinvitation
  unexpired := by simpa [Invitation.isExpiredAt] using hunexpired
  organization := hid ▸ Tables.find_eq_some_of_mem distinct.organizations horg
  address := haddress

/-! ## Acceptances in reachable worlds -/

/-- In every reachable world, whatever time the clock shows and whatever calls have gone wrong
before: accepting succeeds exactly if there is an unexpired invitation with the code and the user's
address, to an organization that there is; then the user gains the invited roles that can be
assigned and are not held, and the invitation is gone.  A user with another address changes nothing,
expired or not, and an expired invitation is all that is removed. -/
theorem acceptance_of_endures {regime : Regime} {start : World} {config : Configuration}
    (starts : regime.Starts start) (endures : regime.Endures start config) (now : Nat)
    (code : String) (user : User) :
    let world := { config.world with clock := now }
    let run := (Invitations.accept code user).runIn world
    ((Invitations.accept code user).Succeeds world ↔
      ∃ invitation ∈ world.tables.invitations, ∃ org ∈ world.tables.organizations,
        invitation.code = code ∧ org.id = invitation.organizationId ∧
        Text.Email.normalize user.email = invitation.email ∧ now < invitation.expiresAt) ∧
    (∀ acceptance, run.1 = .ok acceptance →
      ∃ invitation ∈ world.tables.invitations, ∃ org ∈ world.tables.organizations,
        invitation.code = code ∧ org.id = invitation.organizationId ∧
        world.tables.AcceptedAs run.2.tables org invitation user now acceptance) ∧
    ∀ invitation ∈ world.tables.invitations, invitation.code = code →
      (Text.Email.normalize user.email ≠ invitation.email →
        run = (.error .addressMismatch, world)) ∧
      (Text.Email.normalize user.email = invitation.email → invitation.expiresAt ≤ now →
        run = (.error .invitationExpired, { world with
          tables := { world.tables with
            invitations := world.tables.invitations.erase invitation } })) := by
  intro world run
  have distinct : world.tables.HasDistinctKeys := endures.hasDistinctKeys starts
  have lists : world.tables.ListsRolesOnce := endures.listsRolesOnce starts
  have hcan : (Invitations.accept code user).Succeeds world →
      ∃ invitation ∈ world.tables.invitations, ∃ org ∈ world.tables.organizations,
        invitation.code = code ∧ org.id = invitation.organizationId ∧
        world.CanAccept invitation org user := by
    intro succeeds
    obtain ⟨invitation, org, hcode, acceptable⟩ :=
      (Invitations.succeeds_accept_iff world code user).1 succeeds
    exact ⟨invitation, List.mem_of_find?_eq_some acceptable.stored, org,
      List.mem_of_find?_eq_some acceptable.organization, hcode,
      Tables.key_of_find acceptable.organization, acceptable⟩
  refine ⟨⟨?_, ?_⟩, ?_, ?_⟩
  · intro succeeds
    obtain ⟨invitation, hinvitation, org, horg, hcode, hid, acceptable⟩ := hcan succeeds
    have hunexpired : now < invitation.expiresAt := by
      simpa [Invitation.isExpiredAt] using acceptable.unexpired
    exact ⟨invitation, hinvitation, org, horg, hcode, hid, acceptable.address, hunexpired⟩
  · rintro ⟨invitation, hinvitation, org, horg, hcode, hid, haddress, hunexpired⟩
    exact (Invitations.succeeds_accept_iff world code user).2 ⟨invitation, org, hcode,
      distinct.canAccept hinvitation horg hid haddress hunexpired⟩
  · intro acceptance hok
    obtain ⟨invitation, hinvitation, org, horg, rfl, hid, acceptable⟩ := hcan ⟨acceptance, hok⟩
    obtain ⟨returned, after, hrun, accepted⟩ :=
      Invitations.runIn_accept_ok acceptable distinct lists
    have hsame : run = (.ok returned, after) := hrun
    rw [hsame] at hok ⊢
    rw [← Except.ok.inj hok]
    exact ⟨invitation, hinvitation, org, horg, rfl, hid, accepted⟩
  · rintro invitation hinvitation rfl
    have hfound := Tables.find_eq_some_of_mem distinct.invitations hinvitation
    refine ⟨Invitations.runIn_accept_mismatch hfound, fun haddress hexpired => ?_⟩
    have hrun := Invitations.runIn_accept_expired hfound haddress (decide_eq_true hexpired)
    rwa [Tables.filter_code_ne_eq_erase distinct.invitations hinvitation] at hrun

/-- A member holds a role that is gone since, and is invited to one that is held, one that is gone
and one that is new: the new one comes after those held. -/
theorem acceptance_of_endures_dangling_role :
    ∃ (config : Configuration) (code : String) (user : User) (acceptance : Acceptance),
      Regime.orderly.Reaches (World.blank []) config ∧
      ((Invitations.accept code user).runIn { config.world with clock := 5 }).1 = .ok acceptance ∧
      acceptance.membership.roles.map (fun assignment =>
        (assignment.roleId, assignment.createdAt)) = [("aa", 0), ("aaaaa", 0), ("aaa", 5)] ∧
      ∃ invitation ∈ config.world.tables.invitations, ∃ org ∈ config.world.tables.organizations,
        config.world.tables.AcceptedAs
          ((Invitations.accept code user).runIn { config.world with clock := 5 }).2.tables org
          invitation user 5 acceptance := by
  have starts : Regime.orderly.Starts (World.blank []) := Regime.orderly_starts_blank (by simp)
  let role (name : String) : Operation := .createRole
    { name := name, description := none, isSystem := false, organizationId := some "a"
      tenantId := none }
  obtain ⟨config, reaches, hworld⟩ := Regime.orderly_operations starts default
    [.createOrganization
      { slug := "north", displayName := "North", tenantId := none, metadata := .empty },
     role "reader", role "writer", role "editor", role "guest",
     .addMember
      { organizationId := "a", userId := "u", tenantId := none, isPrimary := true
        roleIds := ["aa", "aaaaa"] },
     .createInvitation
      { organizationId := "a", email := "u@example.com", createdBy := "c"
        roleIds := [" aaa ", "aa", "aaa", "aaaa"], expiresInHours := none },
     .deleteRole "aaaa", .deleteRole "aaaaa"]
  let user : User := { id := "u", email := "U@example.com ", displayName := none, createdAt := 0 }
  obtain ⟨acceptance, hrun, hroles⟩ := @Action.exists_of_map_ok _ _
    { config.world with clock := 5 } (Invitations.accept "AAAA" user)
    (fun acceptance => acceptance.membership.roles.map fun assignment =>
      (assignment.roleId, assignment.createdAt))
    [("aa", 0), ("aaaaa", 0), ("aaa", 5)] (by rw [hworld]; decide +kernel)
  obtain ⟨-, houtcome, -⟩ := acceptance_of_endures starts reaches.endures 5 "AAAA" user
  obtain ⟨invitation, hinvitation, org, horg, -, -, accepted⟩ := houtcome acceptance hrun
  exact ⟨config, "AAAA", user, acceptance, reaches, hrun, hroles, invitation, hinvitation, org,
    horg, accepted⟩

end Tenancy
