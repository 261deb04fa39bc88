import Tenancy.Proofs.InvitationAcceptance
import Tenancy.Proofs.InvitationRecords
import Tenancy.Proofs.MembershipIntegrity
import Tenancy.Proofs.PermissionRoundTrip

/-!
# Tenancy - Every path assigns the same roles

Roles are assigned on several paths: to a new member, to a member, and by invitation;
and permissions are set where a role can be assigned.  The paths check requests at
different places and in different ways, but each of them lets a role pass exactly if it
is among those that the organization is listed to choose from.

Main definitions:

- `World.AgreesOnAssignable`: in a world, all paths agree on a role of an organization.

Main results:

- Theorem `Members.succeeds_add`, `Members.succeeds_update`,
  `Invitations.succeeds_create`, `Roles.succeeds_setPermissions_nil`: which requests
  succeed.
- Theorem `agreesOnAssignable_of_reaches`: all paths agree in every reachable world.
-/

namespace Tenancy

variable {world : World} {org : Organization}

/-! ## Adding a member -/

/-- A user who is no member can be added with the roles that the organization may assign. -/
theorem Members.succeeds_add {draft : Membership.Draft}
    (huser : Text.isBlankText draft.userId = false)
    (horg : world.tables.organizations.find? (·.id == draft.organizationId) = some org)
    (htenant : Members.checkTenant org draft.tenantId = .ok ())
    (hnew : world.tables.memberships.find? (Tables.isMemberOf org.id draft.userId) = none) :
    (Members.add draft).Succeeds world ↔
      ∀ roleId ∈ Text.distinctTrimmed draft.roleIds, world.tables.canAssign org roleId = true := by
  have hblank : checkNotBlank "user_id" draft.userId = .ok () := by
    rw [checkNotBlank, huser]
    rfl
  have hfind : (Action.ask (.memberships (.find org.id draft.userId))).runIn world =
      (.ok none, world) :=
    Action.runIn_read rfl (congrArg Except.ok hnew)
  unfold Members.add
  refine (Action.succeeds_bind (Action.runIn_check hblank) _).trans ?_
  refine (Action.succeeds_bind (Action.runIn_loadOrganization horg) _).trans ?_
  refine (Action.succeeds_bind (Action.runIn_check htenant) _).trans ?_
  refine (Action.succeeds_bind hfind _).trans ?_
  refine (Action.succeeds_bind (Action.runIn_require rfl _) _).trans ?_
  refine Roles.succeeds_assignable_bind fun _ => ?_
  refine (@Action.succeeds_bind _ _ world world Action.now world.clock rfl _).2 ?_
  refine (Action.succeeds_bind (Action.runIn_answered (Tables.perform_insert ?_ _)) _).2 ?_
  · exact hnew
  · exact Action.succeeds_of_runIn rfl

/-! ## Updating a member -/

/-- The wanted roles that a member does not hold are the requested ones that are not held. -/
theorem Members.mem_unheld {member : Membership} {requested : List String} {roleId : String} :
    roleId ∈ Text.distinctTrimmed
        ((Text.distinctTrimmed requested).filter (!member.hasRole ·)) ↔
      roleId ∈ Text.distinctTrimmed requested ∧ roleId ∉ member.roleIds := by
  have htidy : ∀ id ∈ (Text.distinctTrimmed requested).filter (!member.hasRole ·),
      Text.IsTidy id :=
    fun id hmem => Text.isTidy_of_mem_distinctTrimmed (List.mem_of_mem_filter hmem)
  rw [Text.mem_distinctTrimmed_of_tidy htidy, List.mem_filter, Bool.not_eq_true',
    ← Bool.not_eq_true, Membership.hasRole_iff]

/-- A member can be given the roles that the organization may assign, besides those held already. -/
theorem Members.succeeds_update {organizationId userId : String} {member : Membership}
    {patch : Membership.Patch} {requested : List String}
    (hmember : world.tables.memberships.find? (Tables.isMemberOf organizationId userId) =
      some member)
    (horg : world.tables.organizations.find? (·.id == organizationId) = some org)
    (hrequested : patch.roleIds = some requested) :
    (Members.update organizationId userId patch).Succeeds world ↔
      ∀ roleId ∈ Text.distinctTrimmed requested, roleId ∉ member.roleIds →
        world.tables.canAssign org roleId = true := by
  have hfind : (Action.ask (.memberships (.find organizationId userId))).runIn world =
      (.ok (some member), world) :=
    Action.runIn_read rfl (congrArg Except.ok hmember)
  have hunheld : (∀ roleId ∈ Text.distinctTrimmed requested, roleId ∉ member.roleIds →
      world.tables.canAssign org roleId = true) ↔
      ∀ roleId ∈ Text.distinctTrimmed
        ((Text.distinctTrimmed requested).filter (!member.hasRole ·)),
        world.tables.canAssign org roleId = true := by
    refine forall_congr' fun roleId => ?_
    rw [Members.mem_unheld, and_imp]
  rw [hunheld]
  have hfair := Members.withFlag_isFair member organizationId userId world.clock patch.isPrimary
  unfold Members.update
  refine (Action.succeeds_bind hfind _).trans ?_
  refine (Action.succeeds_bind (Action.runIn_demand rfl _) _).trans ?_
  refine (@Action.succeeds_bind _ _ world world Action.now world.clock rfl _).trans ?_
  dsimp only
  generalize Members.withFlag _ member patch.isPrimary = flagged at hfair ⊢
  rw [hrequested]
  have hload := Action.runIn_loadOrganization horg
  constructor
  · intro hsucceeds
    by_contra hnot
    obtain ⟨error, hrefused⟩ := Roles.runIn_assignable_error hnot
    have hroles : (Members.withRoles flagged member organizationId world.clock
        (some requested)).runIn world = (.error error, world) := by
      refine (Action.runIn_bind_ok hload _).trans ?_
      rw [Action.runIn_bind, hrefused]
    exact Action.not_succeeds_bind hroles _ hsucceeds
  · intro hall
    have hroles : (Members.withRoles flagged member organizationId world.clock
        (some requested)).runIn world =
        (.ok { flagged with
          added := member.missingRoles org (Text.distinctTrimmed requested) world.clock
          removedRoleIds := member.surplusRoles (Text.distinctTrimmed requested) }, world) :=
      (Action.runIn_bind_ok hload _).trans (Action.runIn_bind_ok (Roles.runIn_assignable hall) _)
    refine (Action.succeeds_bind hroles _).2 ?_
    split
    · exact Action.succeeds_of_runIn rfl
    · have hkey : world.tables.memberships.find?
          (Tables.isMemberOf flagged.organizationId flagged.userId) = some member := by
        rw [hfair.1, hfair.2.1]
        exact hmember
      have hperform := @Tables.perform_applyChange world.tables member
        { flagged with
          added := member.missingRoles org (Text.distinctTrimmed requested) world.clock
          removedRoleIds := member.surplusRoles (Text.distinctTrimmed requested) } hkey
      refine (Action.succeeds_bind (Action.runIn_answered hperform) _).2 ?_
      exact Action.succeeds_of_runIn rfl

/-! ## Inviting -/

/-- Making way for an invitation to an address that has no unexpired one leaves no invitation to the
address. -/
theorem Invitations.runIn_replaceExpired {email : String}
    (addresses : world.tables.HasDistinctAddresses)
    (hfree : ∀ invitation ∈ world.tables.invitations, invitation.address = (org.id, email) →
      invitation.isExpiredAt world.clock = true) :
    ∃ after : Tables,
      (Invitations.replaceExpired world.clock
        (world.tables.invitations.find? fun invitation =>
          invitation.organizationId == org.id && invitation.email == email)).runIn world =
        (.ok (), { world with tables := after }) ∧
      ∀ invitation ∈ after.invitations, invitation ∈ world.tables.invitations ∧
        invitation.address ≠ (org.id, email) := by
  cases hfind : world.tables.invitations.find? fun invitation =>
      invitation.organizationId == org.id && invitation.email == email with
  | none =>
      refine ⟨world.tables, rfl, fun invitation hmem => ⟨hmem, fun haddress => ?_⟩⟩
      obtain ⟨horg, hemail⟩ := Prod.mk.inj haddress
      exact List.find?_eq_none.1 hfind invitation hmem (by simp [horg, hemail])
  | some existing =>
      have hmem := List.mem_of_find?_eq_some hfind
      have haddress : existing.address = (org.id, email) := by
        have hmatch := List.find?_some hfind
        rw [Bool.and_eq_true, beq_iff_eq, beq_iff_eq] at hmatch
        exact Prod.ext hmatch.1 hmatch.2
      refine ⟨{ world.tables with
        invitations := world.tables.invitations.filter (·.code != existing.code) }, ?_, ?_⟩
      · exact (Action.runIn_bind_ok
          (Action.runIn_require (hfree existing hmem haddress) _) _).trans
          (Action.runIn_bind_ok (Action.runIn_answered rfl) _)
      · intro invitation hleft
        obtain ⟨hstored, hcode⟩ := List.mem_filter.1 hleft
        refine ⟨hstored, fun hsame => ?_⟩
        have heq := Tables.eq_of_key_eq addresses hstored hmem (hsame.trans haddress.symm)
        rw [heq] at hcode
        simp at hcode

/-- An invitation with a new code for an address without one is stored. -/
theorem Invitations.runIn_store {invitation : Invitation}
    (hnew : ∀ other ∈ world.tables.invitations, other.code ≠ invitation.code ∧
      other.address ≠ invitation.address) :
    (Invitations.store invitation).runIn world =
      (.ok (), { world with tables := { world.tables with
        invitations := world.tables.invitations ++ [invitation] } }) := by
  have hperform : world.tables.perform (.invitations (.create invitation)) =
      (.ok (), { world.tables with
        invitations := world.tables.invitations ++ [invitation] }) := by
    refine if_neg ?_
    rw [List.any_eq_true]
    rintro ⟨other, hmem, hclash⟩
    obtain ⟨hcode, haddress⟩ := hnew other hmem
    rcases Bool.or_eq_true_iff.1 hclash with hsame | hsame
    · exact hcode (eq_of_beq hsame)
    · rw [Bool.and_eq_true, beq_iff_eq, beq_iff_eq] at hsame
      exact haddress (Prod.ext hsame.1 hsame.2)
  have hattempt : (Action.attempt (.invitations (.create invitation))).runIn world =
      (.ok (.ok ()), { world with tables := { world.tables with
        invitations := world.tables.invitations ++ [invitation] } }) := by
    change (Except.ok (world.tables.perform (.invitations (.create invitation))).1,
      { world with tables := (world.tables.perform (.invitations (.create invitation))).2 }) = _
    rw [hperform]
  exact Action.runIn_bind_ok hattempt _

/-- An address that has no unexpired invitation can be invited with the roles that the organization
may assign, if the next code is new. -/
theorem Invitations.succeeds_create {policy : InvitationPolicy} {draft : Invitation.Draft}
    {email : String} (hemail : checkEmail draft.email = .ok email)
    (hcreator : Text.isBlankText draft.createdBy = false)
    (horg : world.tables.organizations.find? (·.id == draft.organizationId) = some org)
    (addresses : world.tables.HasDistinctAddresses)
    (hfree : ∀ invitation ∈ world.tables.invitations, invitation.address = (org.id, email) →
      invitation.isExpiredAt world.clock = true)
    (hcode : ∀ invitation ∈ world.tables.invitations, invitation.code ≠ world.nextCode) :
    (Invitations.create policy draft).Succeeds world ↔
      ∀ roleId ∈ Text.distinctTrimmed draft.roleIds, world.tables.canAssign org roleId = true := by
  have hblank : checkNotBlank "created_by" draft.createdBy = .ok () := by
    rw [checkNotBlank, hcreator]
    rfl
  obtain ⟨cleared, hreplace, hcleared⟩ := Invitations.runIn_replaceExpired addresses hfree
  unfold Invitations.create
  refine (Action.succeeds_bind (Action.runIn_check hemail) _).trans ?_
  refine (Action.succeeds_bind (Action.runIn_check hblank) _).trans ?_
  refine (Action.succeeds_bind (Action.runIn_loadOrganization horg) _).trans ?_
  refine Roles.succeeds_assignable_bind fun _ => ?_
  refine (@Action.succeeds_bind _ _ world world Action.now world.clock rfl _).2 ?_
  refine (Action.succeeds_bind (Action.runIn_read rfl rfl) _).2 ?_
  refine (Action.succeeds_bind hreplace _).2 ?_
  refine (@Action.succeeds_bind _ _ { world with tables := cleared } _ Action.randomBytes
    world.drawBytes.1 rfl _).2 ?_
  dsimp only
  generalize hinvitation : Invitation.mk _ _ _ _ _ _ _ _ _ = invitation
  have hstore := @Invitations.runIn_store
    { world.drawBytes.2 with tables := cleared } invitation fun other hmem => by
      obtain ⟨hstored, haddress⟩ := hcleared other hmem
      rw [← hinvitation]
      exact ⟨hcode other hstored, haddress⟩
  refine (Action.succeeds_bind hstore _).2 ?_
  exact Action.succeeds_of_runIn rfl

/-! ## Setting no permissions -/

/-- If nothing is wanted, every grant is surplus. -/
theorem Roles.keepWanted_nil (kept : List String) (grants : List Grant) :
    Roles.keepWanted [] kept grants = (kept, grants.map (·.id)) := by
  induction grants generalizing kept with
  | nil => rfl
  | cons grant rest ih => simp [Roles.keepWanted, ih]

/-- Removing grants succeeds. -/
theorem Roles.succeeds_writeDelta_nil (role : Role) (scope tenantId : Option String)
    (removedIds : List String) (world : World) :
    (Roles.writeDelta role scope tenantId [] removedIds).Succeeds world := by
  refine (@Action.succeeds_bind _ _ world world (Roles.newGrants role scope tenantId []) [] rfl
    _).2 ?_
  split
  · exact Action.succeeds_of_runIn rfl
  · refine (Action.succeeds_bind (Action.runIn_answered rfl) _).2 ?_
    exact Action.succeeds_of_runIn rfl

/-- A role can be granted no permissions in an organization exactly if the organization may assign
it. -/
theorem Roles.succeeds_setPermissions_nil
    (horg : world.tables.organizations.find? (·.id == org.id) = some org) (roleId : String) :
    (Roles.setPermissions roleId (some org.id) []).Succeeds world ↔
      world.tables.canAssign org roleId = true := by
  unfold Tables.canAssign
  rw [Roles.setPermissions_eq]
  cases hfind : world.tables.roles.find? (·.id == roleId) with
  | none =>
      exact iff_of_false (Action.not_succeeds_bind (Roles.runIn_load_none hfind) _) nofun
  | some role =>
      refine (Action.succeeds_bind (Roles.runIn_load hfind) _).trans ?_
      rw [Option.any_some]
      cases hfits : role.fits org with
      | false =>
          have hscope : (Roles.scopeTenant role roleId (some org.id)).runIn world =
              (.error (.roleOutOfScope roleId org.id), world) := by
            refine (Action.runIn_bind_ok (Action.runIn_loadOrganization horg) _).trans ?_
            rw [hfits]
            rfl
          exact iff_of_false (Action.not_succeeds_bind hscope _) nofun
      | true =>
          have hnone : Permission.normalize [] = [] := by
            simp [Permission.normalize, Text.trimmedTexts, Text.keepFirst]
          refine iff_of_true ?_ rfl
          rw [hnone]
          refine (Action.succeeds_bind
            (Roles.runIn_scopeTenant (.inOrganization horg hfits) roleId) _).2 ?_
          refine (@Action.succeeds_bind _ _ world world
            (Roles.wantedIds []) [] rfl _).2 ?_
          refine (Action.succeeds_bind (Action.runIn_read rfl rfl) _).2 ?_
          rw [Roles.keepWanted_nil]
          exact Roles.succeeds_writeDelta_nil role _ _ _ world

/-! ## All paths -/

/-- In a world, all paths on which an organization may assign a role agree with the list of the roles
that it may choose from. -/
structure World.AgreesOnAssignable (world : World) (org : Organization) (roleId : String) :
    Prop where
  /-- A user who is no member can be added with the role. -/
  adding : ∀ draft : Membership.Draft, draft.organizationId = org.id → draft.roleIds = [roleId] →
    draft.tenantId = none → Text.isBlankText draft.userId = false →
    world.tables.memberships.find? (Tables.isMemberOf org.id draft.userId) = none →
    (Roles.Lists world org roleId ↔ (Members.add draft).Succeeds world)
  /-- A member who does not hold the role can be given it besides the held ones. -/
  updating : ∀ member ∈ world.tables.memberships, member.organizationId = org.id →
    roleId ∉ member.roleIds → ∀ (patch : Membership.Patch) (requested : List String),
    patch.roleIds = some requested →
    (∀ id, id ∈ requested ↔ id ∈ member.roleIds ∨ id = roleId) →
    (Roles.Lists world org roleId ↔ (Members.update org.id member.userId patch).Succeeds world)
  /-- An address without unexpired invitation can be invited with the role. -/
  inviting : ∀ (policy : InvitationPolicy) (draft : Invitation.Draft) (email : String),
    draft.organizationId = org.id → draft.roleIds = [roleId] →
    checkEmail draft.email = .ok email → Text.isBlankText draft.createdBy = false →
    (∀ invitation ∈ world.tables.invitations, invitation.organizationId = org.id →
      invitation.email = email → invitation.isExpiredAt world.clock = true) →
    (Roles.Lists world org roleId ↔ (Invitations.create policy draft).Succeeds world)
  /-- A user who does not hold the role does so after accepting an invitation that lists it. -/
  accepting : ∀ invitation ∈ world.tables.invitations, ∀ user : User,
    invitation.organizationId = org.id → invitation.isExpiredAt world.clock = false →
    roleId ∈ invitation.roleIds → Text.Email.normalize user.email = invitation.email →
    roleId ∉ world.tables.rolesIn org.id user.id →
    (Roles.Lists world org roleId ↔
      roleId ∈ ((Invitations.accept invitation.code user).runIn world).2.tables.rolesIn org.id
        user.id)
  /-- Permissions of the role can be set in the organization. -/
  granting : Roles.Lists world org roleId ↔
    (Roles.setPermissions roleId (some org.id) []).Succeeds world

/-- Of a single tidy id, the id is requested. -/
theorem Text.forall_mem_distinctTrimmed_singleton {s : String} (htidy : Text.IsTidy s)
    {p : String → Prop} : (∀ t ∈ Text.distinctTrimmed [s], p t) ↔ p s := by
  have hall : ∀ t ∈ [s], Text.IsTidy t := List.forall_mem_singleton.2 htidy
  simp only [Text.mem_distinctTrimmed_of_tidy hall, List.mem_singleton, forall_eq]

/-- After every interleaving of operations in which ids and codes never repeat, all paths agree on
which roles an organization may assign. -/
theorem agreesOnAssignable_of_reaches {regime : Regime} {start : World} {config : Configuration}
    (starts : regime.Starts start) (reaches : regime.Reaches start config)
    (distinct : ∀ world, regime.admits world → world.supply.DistinctIds)
    (codes : config.world.drawBytes.2.supply.DistinctCodes)
    (horg : org ∈ config.world.tables.organizations) {roleId : String}
    (htidy : Text.IsTidy roleId) : config.world.AgreesOnAssignable org roleId := by
  obtain ⟨ledger, describes⟩ := reaches.described starts distinct
  have keys := reaches.hasDistinctKeys starts
  have hfind := Tables.find_eq_some_of_mem keys.organizations horg
  have hlists := Roles.lists_iff_canAssign starts reaches distinct horg roleId
  constructor
  case adding =>
    intro draft hid hroles htenant huser hnew
    have htenants : Members.checkTenant org draft.tenantId = .ok () := by
      rw [htenant]
      cases htenantOf : org.tenantId <;> simp [Members.checkTenant, htenantOf]
    rw [hlists, Members.succeeds_add huser (hid ▸ hfind) htenants hnew, hroles,
      Text.forall_mem_distinctTrimmed_singleton htidy]
  case updating =>
    intro member hmember hid hunheld patch requested hpatch hrequested
    have hkey := keys.find_member hmember
    rw [hid] at hkey
    have htidies : ∀ id ∈ requested, Text.IsTidy id := by
      intro id hmem
      rcases (hrequested id).1 hmem with hheld | rfl
      · exact (describes.members member hmember).tidy id hheld
      · exact htidy
    rw [hlists, Members.succeeds_update hkey hfind hpatch]
    constructor
    · intro hassign id hmem hnew
      rw [Text.mem_distinctTrimmed_of_tidy htidies, hrequested] at hmem
      rw [hmem.resolve_left hnew]
      exact hassign
    · intro hall
      refine hall roleId ?_ hunheld
      rw [Text.mem_distinctTrimmed_of_tidy htidies, hrequested]
      exact .inr rfl
  case inviting =>
    intro policy draft email hid hroles hemail hcreator hfree
    have hcode := reaches.nextCode_is_new starts codes
    have haddress : ∀ invitation ∈ config.world.tables.invitations,
        invitation.address = (org.id, email) →
        invitation.isExpiredAt config.world.clock = true := by
      intro invitation hmem hsame
      obtain ⟨hsameOrg, hsameEmail⟩ := Prod.mk.inj hsame
      exact hfree invitation hmem hsameOrg hsameEmail
    rw [hlists, Invitations.succeeds_create hemail hcreator (hid ▸ hfind)
      (reaches.hasDistinctAddresses starts) haddress hcode, hroles,
      Text.forall_mem_distinctTrimmed_singleton htidy]
  case accepting =>
    intro invitation hinvitation user hid hunexpired hlisted haddress hunheld
    have acceptable : config.world.CanAccept invitation org user :=
      { stored := Tables.find_eq_some_of_mem keys.invitations hinvitation
        unexpired := hunexpired
        organization := hid ▸ hfind
        address := haddress }
    obtain ⟨_, after, hrun, accepted⟩ := Invitations.accept_achieves acceptable
    have hwanted : roleId ∈ Text.distinctTrimmed invitation.roleIds :=
      Text.mem_distinctTrimmed.2 (Text.mem_trimmedTexts_of_isTidy htidy hlisted)
    rw [hlists, hrun, accepted.mem_rolesIn, Tables.assignableOf, List.mem_filter]
    tauto
  case granting => rw [hlists, Roles.succeeds_setPermissions_nil hfind]

/-- All paths agree on a template of the organization's tenant, which it may assign, and on a role of
another organization, which it may not. -/
theorem agreesOnAssignable_of_reaches_template_and_foreign :
    ∃ config, Regime.orderly.Reaches (World.blank []) config ∧
      ∃ org ∈ config.world.tables.organizations,
        org.id = "a" ∧ config.world.tables.canAssign org "aaa" = true ∧
          config.world.tables.canAssign org "aaaa" = false ∧
          config.world.AgreesOnAssignable org "aaa" ∧
          config.world.AgreesOnAssignable org "aaaa" := by
  have starts : Regime.orderly.Starts (World.blank []) := Regime.orderly_starts_blank (by simp)
  obtain ⟨config, reaches, hworld⟩ := Regime.orderly_operations starts default
    [.createOrganization
      { slug := "north", displayName := "North", tenantId := some "t", metadata := .empty },
     .createOrganization
      { slug := "south", displayName := "South", tenantId := some "t", metadata := .empty },
     .createRole
      { name := "reader", description := none, isSystem := false, organizationId := none
        tenantId := some "t" },
     .createRole
      { name := "writer", description := none, isSystem := false, organizationId := some "aa"
        tenantId := none }]
  obtain ⟨org, horg, hid, htemplate, hforeign⟩ : ∃ org ∈ config.world.tables.organizations,
      org.id = "a" ∧ config.world.tables.canAssign org "aaa" = true ∧
        config.world.tables.canAssign org "aaaa" = false := by
    rw [hworld]
    decide +kernel
  have orderly := reaches.admitted starts
  have codes : config.world.drawBytes.2.supply.DistinctCodes :=
    (World.IsOrderly.perform orderly .randomBytes).distinctCodes
  refine ⟨config, reaches, org, horg, hid, htemplate, hforeign, ?_, ?_⟩
  · exact agreesOnAssignable_of_reaches starts reaches (fun _ orderly => orderly.distinctIds) codes
      horg (by decide +kernel)
  · exact agreesOnAssignable_of_reaches starts reaches (fun _ orderly => orderly.distinctIds) codes
      horg (by decide +kernel)

end Tenancy
