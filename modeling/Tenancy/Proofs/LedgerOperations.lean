import Tenancy.Proofs.LedgerWrites
import Tenancy.Proofs.StoredRecords

/-!
# Tenancy - Operations keep the ledger's pact

Each operation writes only what agrees with the ledger, because what it read
about tenants and scopes stays true until it writes.

Main results:

- Theorem `Roles.assignable_upholds`: requested roles that pass the check may be
  assigned from then on.
- Theorem `Operation.action_upholds`: every operation upholds the pact.
- Theorem `Regime.Reaches.described`: in every reachable world the records agree
  with some ledger.
-/

namespace Tenancy

open Ledger

variable {known : Ledger}

/-! ## Reading -/

/-- An organization that is found has its tenant for good. -/
theorem Organizations.findById_upholds (id : String) :
    (Action.ask (.organizations (.findById id))).Upholds pact
      (fun later (found : Option Organization) => ∀ org, found = some org →
        org.id = id ∧ later.tenantOf org.id = some org.tenantId) known :=
  Organizations.findById_reads (fun later org => later.tenantOf org.id = some org.tenantId)
    (fun _ _ describes => Describes.tenants describes)
    (fun hle htenant => tenantOf_of_le hle htenant) id

/-- An organization that was loaded has its tenant for good. -/
theorem Action.loadOrganization_upholds (id : String) :
    (Action.loadOrganization id).Upholds pact
      (fun later org => org.id = id ∧ later.tenantOf org.id = some org.tenantId) known :=
  Action.loadOrganization_reads (fun later org => later.tenantOf org.id = some org.tenantId)
    (fun _ _ describes => Describes.tenants describes)
    (fun hle htenant => tenantOf_of_le hle htenant) id

/-- A role that was loaded has its scope for good. -/
theorem Roles.load_upholds (roleId : String) :
    (Roles.load roleId).Upholds pact
      (fun later role => role.id = roleId ∧ later.scopeOf role.id = some role.scope) known :=
  Roles.load_reads (fun later role => later.scopeOf role.id = some role.scope)
    (fun _ _ describes => Describes.scopes describes)
    (fun hle hscope => scopeOf_of_le hle hscope) roleId

/-- Roles that are found have their scopes for good. -/
theorem Roles.findMany_upholds (roleIds : List String) :
    (Action.ask (.roles (.findMany roleIds))).Upholds pact
      (fun later (roles : List Role) => ∀ role ∈ roles,
        later.scopeOf role.id = some role.scope) known := by
  refine read_upholds (.roles (.findMany roleIds)) rfl
    fun later world describes roles hroles last hlast role hmem => ?_
  have hfound : roles = roleIds.filterMap fun roleId =>
      world.tables.roles.find? (·.id == roleId) := (Except.ok.inj hroles).symm
  rw [hfound] at hmem
  obtain ⟨roleId, -, hfind⟩ := List.mem_filterMap.1 hmem
  exact scopeOf_of_le hlast (describes.scopes role (List.mem_of_find?_eq_some hfind))

/-- A membership that is found agrees with the ledger for good. -/
theorem Members.find_upholds (organizationId userId : String) :
    (Action.ask (.memberships (.find organizationId userId))).Upholds pact
      (fun later (found : Option Membership) => ∀ member, found = some member →
        member.key = (organizationId, userId) ∧ later.AdmitsMember member) known := by
  refine read_upholds (.memberships (.find organizationId userId)) rfl
    fun later world describes found hfound last hlast member hmember => ?_
  have hfind : world.tables.memberships.find? (Tables.isMemberOf organizationId userId) =
      some member := by
    rw [← hmember]
    exact Except.ok.inj hfound
  obtain ⟨hmem, hkey⟩ := Tables.find_isMemberOf hfind
  exact ⟨hkey, (describes.members member hmem).later hlast⟩

/-! ## Assignable roles -/

/-- Each role of a list that passes the check was found and fits. -/
theorem Roles.checkEach_ok {org : Organization} {roles : List Role} {roleIds : List String}
    (hok : Roles.checkEach org roles roleIds = .ok ()) :
    ∀ roleId ∈ roleIds, ∃ role ∈ roles, role.id = roleId ∧ role.fits org = true := by
  induction roleIds with
  | nil => simp
  | cons head rest ih =>
      unfold Roles.checkEach at hok
      split at hok
      · cases hok
      · rename_i role hfind
        split at hok
        · rename_i hfits
          intro roleId hmem
          rcases List.mem_cons.1 hmem with rfl | hmem
          · have hid : role.id = roleId := Tables.key_of_find hfind
            exact ⟨role, List.mem_of_find?_eq_some hfind, hid, hfits⟩
          · exact ih hok roleId hmem
        · cases hok

/-- A role that was found and fits an organization may be assigned there. -/
theorem Ledger.assigns_of_fits {org : Organization} {role : Role} {roleId : String}
    (htidy : Text.IsTidy roleId) (htenant : known.tenantOf org.id = some org.tenantId)
    (hscope : known.scopeOf role.id = some role.scope) (hid : role.id = roleId)
    (hfits : role.fits org = true) : known.Assigns org.id roleId :=
  ⟨htidy, role.scope, org.tenantId, hid ▸ hscope, htenant, hfits⟩

/-- Requested roles that pass the check are the distinct trimmed ones and may be assigned from then
on. -/
theorem Roles.assignable_upholds {org : Organization} (requested : List String)
    (htenant : known.tenantOf org.id = some org.tenantId) :
    (Roles.assignable org requested).Upholds pact (fun later roleIds =>
      roleIds = Text.distinctTrimmed requested ∧ ∀ roleId ∈ roleIds, later.Assigns org.id roleId)
      known := by
  unfold Roles.assignable
  dsimp only
  split
  · rename_i hempty
    refine .pure fun later _ => ⟨rfl, ?_⟩
    rw [List.isEmpty_iff.1 hempty]
    simp
  · refine .bind (Roles.findMany_upholds _) fun later hlater roles hscopes => .check fun _ hok => ?_
    refine .pure fun last hlast => ⟨rfl, fun roleId hmem => ?_⟩
    obtain ⟨role, hrole, hid, hfits⟩ := Roles.checkEach_ok hok roleId hmem
    exact assigns_of_fits (Text.isTidy_of_mem_distinctTrimmed hmem)
      (tenantOf_of_le (hlater.trans hlast) htenant) (scopeOf_of_le hlast (hscopes role hrole)) hid
      hfits

/-- Listed roles that are left may be assigned from then on. -/
theorem Roles.stillAssignable_upholds {org : Organization} (listed : List String)
    (htenant : known.tenantOf org.id = some org.tenantId) :
    (Roles.stillAssignable org listed).Upholds pact (fun later roleIds =>
      roleIds.Nodup ∧ ∀ roleId ∈ roleIds, later.Assigns org.id roleId) known := by
  have hnodup := Text.nodup_distinctTrimmed listed
  unfold Roles.stillAssignable
  dsimp only
  split
  · rename_i hempty
    refine .pure fun later _ => ⟨hnodup, ?_⟩
    rw [List.isEmpty_iff.1 hempty]
    simp
  · refine .bind (Roles.findMany_upholds _) fun later hlater roles hscopes => ?_
    refine .pure fun last hlast => ⟨hnodup.filter _, fun roleId hmem => ?_⟩
    obtain ⟨hmem, hany⟩ := List.mem_filter.1 hmem
    obtain ⟨role, hrole, hcond⟩ := List.any_eq_true.1 hany
    obtain ⟨hid, hfits⟩ := Bool.and_eq_true_iff.1 hcond
    exact assigns_of_fits (Text.isTidy_of_mem_distinctTrimmed hmem)
      (tenantOf_of_le (hlater.trans hlast) htenant) (scopeOf_of_le hlast (hscopes role hrole))
      (eq_of_beq hid) hfits

/-- A new assignment of a role that may be assigned agrees with the ledger. -/
theorem Ledger.Assigns.create {org : Organization} {roleId : String}
    (hassigns : known.Assigns org.id roleId) (htenant : known.tenantOf org.id = some org.tenantId)
    (userId : String) (now : Nat) :
    known.AdmitsAssignment org.id userId (RoleAssignment.create org userId roleId now) :=
  ⟨rfl, rfl, htenant, hassigns⟩

/-- A new membership with distinct roles that may be assigned agrees with the ledger. -/
theorem Ledger.AdmitsMember.create {org : Organization} {roleIds : List String}
    (htenant : known.tenantOf org.id = some org.tenantId) (hnodup : roleIds.Nodup)
    (hassigns : ∀ roleId ∈ roleIds, known.Assigns org.id roleId) (userId : String)
    (isPrimary : Bool) (now : Nat) :
    known.AdmitsMember (Membership.create org userId isPrimary roleIds now) where
  tenant := htenant
  assignments := by
    intro assignment hmem
    obtain ⟨roleId, hroleId, rfl⟩ := List.mem_map.1 hmem
    exact (hassigns roleId hroleId).create htenant userId now
  distinct := by
    have hids : (Membership.create org userId isPrimary roleIds now).roleIds = roleIds := by
      simp [Membership.create, Membership.roleIds, RoleAssignment.create, Function.comp_def]
    rw [hids]
    exact hnodup

/-- The missing assignments of roles that may be assigned agree with the ledger. -/
theorem Ledger.admitsAssignment_of_mem_missingRoles {org : Organization} {member : Membership}
    {wanted : List String} {now : Nat} (htenant : known.tenantOf org.id = some org.tenantId)
    (hassigns : ∀ roleId ∈ wanted, member.hasRole roleId = false → known.Assigns org.id roleId)
    {assignment : RoleAssignment} (hmem : assignment ∈ member.missingRoles org wanted now) :
    known.AdmitsAssignment org.id member.userId assignment := by
  obtain ⟨roleId, hroleId, rfl⟩ := List.mem_map.1 hmem
  obtain ⟨hwanted, hmissing⟩ := List.mem_filter.1 hroleId
  exact (hassigns roleId hwanted (by simpa using hmissing)).create htenant member.userId now

/-! ## Operations on organizations -/

theorem Organizations.create_upholds (limits : Limits) (draft : Organization.Draft) :
    (Organizations.create limits draft).Upholds pact (fun _ _ => True) known := by
  refine .check fun slug _ => .check fun displayName _ => .check fun _ _ => ?_
  refine .afterUses (.ask (quiet _ rfl)) fun _ _ sameSlug _ => .require fun _ => ?_
  refine .afterUses (.ask (quiet _ rfl)) fun _ _ sameName _ => .require fun _ => ?_
  refine .afterUses (.now (quiet _ rfl)) fun _ _ now _ => ?_
  refine .afterUses (.freshId (quiet _ rfl)) fun _ _ id _ => ?_
  refine .bind (write_upholds (.organizations (.create _)) trivial) fun _ _ _ _ => ?_
  exact .afterUses (.note (quiet _ rfl)) fun _ _ _ _ => .pure fun _ _ => trivial

/-- An update keeps the tenant that the organization was loaded with. -/
theorem Organizations.update_upholds (limits : Limits) (id : String) (patch : Organization.Patch) :
    (Organizations.update limits id patch).Upholds pact (fun _ _ => True) known := by
  refine .bind (Action.loadOrganization_upholds id) fun loaded _ org horg => ?_
  refine .afterUses
    (Organizations.patchedName_uses (Effect.plain quiet) limits org patch.displayName)
    fun named hnamed displayName _ => ?_
  refine .afterUses (Organizations.patchedMetadata_uses limits org patch.metadata)
    fun described hdescribed metadata _ => ?_
  refine .afterUses (.now (quiet _ rfl)) fun timed htimed now _ => ?_
  dsimp only
  split
  · exact .pure fun _ _ => trivial
  · have htenant : timed.tenantOf org.id = some org.tenantId :=
      tenantOf_of_le (hnamed.trans (hdescribed.trans htimed)) horg.2
    refine .bind (write_upholds (.organizations (.update _)) htenant) fun _ _ _ _ => ?_
    exact .afterUses (.note (quiet _ rfl)) fun _ _ _ _ => .pure fun _ _ => trivial

/-! ## Operations on memberships -/

theorem Members.add_upholds (draft : Membership.Draft) :
    (Members.add draft).Upholds pact (fun _ _ => True) known := by
  refine .check fun _ _ => .bind (Action.loadOrganization_upholds _) fun loaded _ org horg => ?_
  refine .check fun _ _ => .afterUses (.ask (quiet _ rfl)) fun looked hlooked existing _ => ?_
  refine .require fun _ => ?_
  have htenant : looked.tenantOf org.id = some org.tenantId := tenantOf_of_le hlooked horg.2
  refine .bind (Roles.assignable_upholds _ htenant) fun checked hchecked roleIds hroles => ?_
  refine .afterUses (.now (quiet _ rfl)) fun timed htimed now _ => ?_
  obtain ⟨rfl, hassigns⟩ := hroles
  have hmember := AdmitsMember.create (tenantOf_of_le (hchecked.trans htimed) htenant)
    (Text.nodup_distinctTrimmed _) (fun roleId hmem => (hassigns roleId hmem).later htimed)
    draft.userId draft.isPrimary now
  refine .bind (write_upholds (.memberships (.insert _ _)) hmember) fun _ _ _ _ => ?_
  exact .afterUses (.note (quiet _ rfl)) fun _ _ _ _ => .pure fun _ _ => trivial

/-- A delta with the roles of a patch assigns only roles that may be assigned. -/
theorem Members.withRoles_upholds {change : Membership.Change} {member : Membership}
    {organizationId : String} {now : Nat} (requested : Option (List String))
    (horg : change.organizationId = organizationId) (huser : change.userId = member.userId)
    (hadded : change.added = []) :
    (Members.withRoles change member organizationId now requested).Upholds pact
      (fun later changed => later.Permits (.memberships (.applyChange changed))) known := by
  cases requested with
  | none =>
      refine .pure fun later _ assignment hmem => ?_
      simp [hadded] at hmem
  | some roleIds =>
      refine .bind (Action.loadOrganization_upholds organizationId) fun loaded _ org horgs => ?_
      obtain ⟨hid, htenant⟩ := horgs
      refine .bind (Roles.assignable_upholds _ htenant) fun checked hchecked allowed hallowed => ?_
      obtain ⟨rfl, hassigns⟩ := hallowed
      refine .pure fun later hlater assignment hmem => ?_
      change later.AdmitsAssignment change.organizationId change.userId assignment
      rw [horg, huser, ← hid]
      refine admitsAssignment_of_mem_missingRoles (tenantOf_of_le (hchecked.trans hlater) htenant)
        (fun roleId hwanted hmissing => ?_) hmem
      -- A wanted role is tidy, so it is among the requested roles that were checked.
      have htidy : Text.IsTidy roleId := Text.isTidy_of_mem_distinctTrimmed hwanted
      have hrequested : roleId ∈ (Text.distinctTrimmed roleIds).filter (!member.hasRole ·) :=
        List.mem_filter.2 ⟨hwanted, by simp [hmissing]⟩
      have hcheckedRole : roleId ∈ Text.distinctTrimmed
          ((Text.distinctTrimmed roleIds).filter (!member.hasRole ·)) :=
        Text.mem_distinctTrimmed.2 (Text.mem_trimmedTexts_of_isTidy htidy hrequested)
      exact (hassigns roleId hcheckedRole).later hlater

theorem Members.update_upholds (organizationId userId : String) (patch : Membership.Patch) :
    (Members.update organizationId userId patch).Upholds pact (fun _ _ => True) known := by
  refine .bind (Members.find_upholds organizationId userId) fun looked _ found hfound =>
    .demand fun member hmember => .afterUses (.now (quiet _ rfl)) fun timed _ now _ => ?_
  have huser : member.userId = userId := (Prod.ext_iff.1 (hfound member hmember).1).2
  have hfair := Members.withFlag_isFair member organizationId userId now patch.isPrimary
  have hadded := Members.withFlag_added { Members.noChange member now with
    organizationId := organizationId, userId := userId } member patch.isPrimary
  dsimp only at hfair hadded ⊢
  generalize Members.withFlag _ member patch.isPrimary = flagged at hfair hadded ⊢
  have huserOf : flagged.userId = member.userId := hfair.2.1.trans huser.symm
  refine .bind (Members.withRoles_upholds patch.roleIds hfair.1 huserOf hadded)
    fun changed _ change hchange => ?_
  split
  · exact .pure fun _ _ => trivial
  · refine .bind (write_upholds (.memberships (.applyChange change)) hchange) fun _ _ _ _ => ?_
    exact .afterUses (.note (quiet _ rfl)) fun _ _ _ _ => .pure fun _ _ => trivial

/-! ## Operations on roles -/

theorem Roles.create_upholds (limits : Limits) (draft : Role.Draft) :
    (Roles.create limits draft).Upholds pact (fun _ _ => True) known := by
  refine .check fun name _ => .check fun description _ => ?_
  refine .afterUses (Roles.draftTenant_uses (Effect.plain quiet) draft) fun _ _ tenantId _ => ?_
  refine .afterUses (.ask (quiet _ rfl)) fun _ _ sameName _ => .require fun _ => ?_
  refine .afterUses (.now (quiet _ rfl)) fun _ _ now _ => ?_
  -- The new role is entered as soon as its id is drawn.
  refine .bind (freshId_upholds ⟨draft.organizationId, tenantId⟩) fun entered _ id hid => ?_
  refine .bind (write_upholds (.roles (.create _)) hid) fun _ _ _ _ => ?_
  exact .afterUses (.note (quiet _ rfl)) fun _ _ _ _ => .pure fun _ _ => trivial

/-- An update keeps the scope that the role was loaded with. -/
theorem Roles.update_upholds (limits : Limits) (roleId : String) (patch : Role.Patch) :
    (Roles.update limits roleId patch).Upholds pact (fun _ _ => True) known := by
  refine .bind (Roles.load_upholds roleId) fun loaded _ role hrole => ?_
  refine .afterUses (Roles.patchedName_uses (Effect.plain quiet) limits role patch.name)
    fun named hnamed name _ => .afterUses
      (Roles.patchedDescription_uses limits role patch.description)
      fun described hdescribed description _ => ?_
  split
  · exact .pure fun _ _ => trivial
  · refine .afterUses (.now (quiet _ rfl)) fun timed htimed now _ => ?_
    have hscope : timed.scopeOf role.id = some role.scope :=
      scopeOf_of_le (hnamed.trans (hdescribed.trans htimed)) hrole.2
    refine .bind (write_upholds (.roles (.update _)) hscope) fun _ _ _ _ => ?_
    exact .afterUses (.note (quiet _ rfl)) fun _ _ _ _ => .pure fun _ _ => trivial

/-- The tenant of grants at a scope makes it one at which the role may be granted permissions. -/
theorem Roles.scopeTenant_upholds (role : Role) (roleId : String) (scope : Option String) :
    (Roles.scopeTenant role roleId scope).Upholds pact
      (fun later tenantId => later.GrantsAt role.scope scope tenantId) known := by
  cases scope with
  | none =>
      refine .require fun htemplate => .pure fun _ _ => ⟨?_, rfl⟩
      simpa [Role.isTemplate, Role.scope] using htemplate
  | some organizationId =>
      refine .bind (Action.loadOrganization_upholds organizationId) fun loaded _ org horg => ?_
      obtain ⟨rfl, htenant⟩ := horg
      refine .require fun hfits => .pure fun later hlater => ?_
      exact ⟨tenantOf_of_le hlater htenant, hfits⟩

/-- New grants at a scope agree with the ledger. -/
theorem Roles.newGrants_upholds {role : Role} {scope tenantId : Option String}
    (hscope : known.scopeOf role.id = some role.scope)
    (hgrants : known.GrantsAt role.scope scope tenantId) (permissionIds : List String) :
    (Roles.newGrants role scope tenantId permissionIds).Upholds pact
      (fun later added => ∀ grant ∈ added, later.AdmitsGrant grant) known := by
  induction permissionIds generalizing known with
  | nil => exact .pure fun _ _ => by simp
  | cons permissionId rest ih =>
      refine .afterUses (.freshId (quiet _ rfl)) fun drawn hdrawn id _ => ?_
      have hothers := ih (scopeOf_of_le hdrawn hscope) (hgrants.later hdrawn)
      refine .bind hothers fun made hmade others hadmits => .pure fun last hlast grant hmem => ?_
      rcases List.mem_cons.1 hmem with rfl | hmem
      · have hle : known ≤ last := hdrawn.trans (hmade.trans hlast)
        exact ⟨role.scope, scopeOf_of_le hle hscope, hgrants.later hle⟩
      · exact (hadmits grant hmem).later hlast

theorem Roles.setPermissions_upholds (roleId : String) (scope : Option String)
    (names : List String) :
    (Roles.setPermissions roleId scope names).Upholds pact (fun _ _ => True) known := by
  refine .bind (Roles.load_upholds roleId) fun loaded _ role hrole =>
    .bind (Roles.scopeTenant_upholds role roleId scope) fun placed hplaced tenantId hgrants =>
    .afterUses (Roles.wantedIds_uses (Effect.plain quiet) _) fun named hnamed wanted _ =>
    .afterUses (.ask (quiet _ rfl)) fun looked hlooked grants _ => ?_
  dsimp only
  generalize Roles.keepWanted wanted [] _ = split
  obtain ⟨kept, removedIds⟩ := split
  have hle := hnamed.trans hlooked
  have hmade := Roles.newGrants_upholds (scopeOf_of_le (hplaced.trans hle) hrole.2)
    (hgrants.later hle) (wanted.filter (!kept.contains ·))
  refine .bind hmade fun made _ added hadded => ?_
  split
  · exact .pure fun _ _ => trivial
  · refine .bind (write_upholds (.roles (.changeGrants added removedIds)) hadded) fun _ _ _ _ => ?_
    exact .mono (.ofUses (.note (quiet _ rfl))) fun _ _ _ => trivial

/-! ## Operations on invitations -/

/-- Joining assigns only roles that may be assigned. -/
theorem Invitations.join_upholds {org : Organization} {userId : String} {roleIds : List String}
    {now : Nat} (htenant : known.tenantOf org.id = some org.tenantId) (hnodup : roleIds.Nodup)
    (hassigns : ∀ roleId ∈ roleIds, known.Assigns org.id roleId) (existing : Option Membership) :
    (Invitations.join org userId roleIds now existing).Upholds pact (fun _ _ => True) known := by
  cases existing with
  | none =>
      have hmember := AdmitsMember.create htenant hnodup hassigns userId false now
      refine .bind (write_upholds (.memberships (.insert _ _)) hmember) fun _ _ _ _ => ?_
      exact .pure fun _ _ => trivial
  | some member =>
      unfold Invitations.join Invitations.mergeRoles
      dsimp only
      split
      · exact .pure fun _ _ => trivial
      · refine write_upholds (.memberships (.applyChange _)) fun assignment hmem => ?_
        exact admitsAssignment_of_mem_missingRoles htenant
          (fun roleId hmem _ => hassigns roleId hmem) hmem

theorem Invitations.accept_upholds (code : String) (user : User) :
    (Invitations.accept code user).Upholds pact (fun _ _ => True) known := by
  have hends : ∀ (known : Ledger) (error : Error),
      (Invitations.endWith code error : Action Acceptance).Upholds pact (fun _ _ => True) known :=
    fun known error => .afterUses (.ask (keeps_invitations _)) fun _ _ _ _ => .throw error
  refine .afterUses (.ask (quiet _ rfl)) fun _ _ found _ => .demand fun invitation _ =>
    .require fun _ => .afterUses (.now (quiet _ rfl)) fun _ _ now _ => ?_
  split
  · exact hends _ _
  · refine .bind (Organizations.findById_upholds _) fun loaded _ found hfound => ?_
    cases found with
    | none => exact hends _ _
    | some org =>
        obtain ⟨-, htenant⟩ := hfound org rfl
        refine .bind (Roles.stillAssignable_upholds _ htenant)
          fun checked hchecked roleIds hroles => ?_
        obtain ⟨hnodup, hassigns⟩ := hroles
        refine .afterUses (.ask (quiet _ rfl)) fun looked hlooked existing _ => ?_
        refine .bind (Invitations.join_upholds (tenantOf_of_le (hchecked.trans hlooked) htenant)
          hnodup (fun roleId hmem => (hassigns roleId hmem).later hlooked) existing)
          fun _ _ member _ => ?_
        refine .afterUses (.ask (keeps_invitations _)) fun _ _ _ _ => ?_
        refine .afterUses (.note (quiet _ rfl)) fun _ _ _ _ => .afterUses (.note (quiet _ rfl)) ?_
        exact fun _ _ _ _ => .pure fun _ _ => trivial

/-! ## All operations -/

/-- Every operation upholds the pact of the ledger. -/
theorem Operation.action_upholds (deployment : Deployment) (operation : Operation) :
    (operation.action deployment).Upholds pact (fun _ _ => True) known := by
  have hreads : (∀ call, ¬operation.MayWrite call) →
      (operation.action deployment).Upholds pact (fun _ _ => True) known :=
    fun hnone => .ofUses ((Operation.action_quiet deployment operation hnone).weaken quiet)
  cases operation with
  | createOrganization draft => exact Organizations.create_upholds _ draft
  | updateOrganization id patch => exact Organizations.update_upholds _ id patch
  | archiveOrganization id => exact Organizations.update_upholds _ id _
  | addMember draft => exact Members.add_upholds draft
  | updateMember organizationId userId patch => exact Members.update_upholds _ _ patch
  | createRole draft => exact Roles.create_upholds _ draft
  | updateRole roleId patch => exact Roles.update_upholds _ roleId patch
  | setRolePermissions roleId scope names => exact Roles.setPermissions_upholds roleId scope names
  | acceptInvitation code user => exact Invitations.accept_upholds code user
  | removeMember organizationId userId =>
      exact .ofUses (Members.remove_uses _ _ (keeps_deleteMembership _ _) fun _ _ => quiet _ rfl)
  | deleteRole roleId =>
      exact .ofUses (Roles.delete_uses (Effect.plain quiet) _ (keeps_deleteRole _))
  | createInvitation draft =>
      exact .ofUses (Invitations.create_uses (Effect.plain quiet) _ _ (fun _ _ => quiet _ rfl)
        (fun _ => keeps_invitations _) fun _ _ => keeps_invitations _)
  | revokeInvitation organizationId code =>
      exact .ofUses (Invitations.revoke_uses (Effect.plain quiet) _ _ (quiet _ rfl)
        fun _ => keeps_invitations _)
  | getOrganization | getOrganizationBySlug | listOrganizations | getMember | listMemberships
  | pageMembers | getRole | listRoles | listAssignableRoles | getRolePermissions | findInvitation
  | listInvitations | resolvePermissions | resolveInOrganization | contributeClaims
  | additionalPermissions => exact hreads fun _ hwrite => nomatch hwrite
  | purgeInvitations =>
      have hpurge : Invitations.purge.Uses pact.Keeps fun _ => True :=
        Invitations.purge_uses (Effect.plain quiet) fun _ => keeps_invitations _
      exact .ofUses hpurge

/-- In every reachable world the records agree with some ledger. -/
theorem Regime.Reaches.described {regime : Regime} {world : World} {config : Configuration}
    (starts : regime.Starts world) (reaches : regime.Reaches world config)
    (distinct : ∀ world, regime.admits world → world.supply.DistinctIds) :
    ∃ ledger : Ledger, ledger.Describes config.world := by
  have begins : Ledger.pact.holds Ledger.empty world := Describes.empty starts.noRecords
  have upheld : ∀ deployment operation (known : Ledger), regime.deploys deployment →
      (Operation.action deployment operation).Upholds Ledger.pact (fun _ _ => True) known :=
    fun deployment operation known _ => Operation.action_upholds deployment operation
  obtain ⟨ledger, describes, -⟩ := reaches.upholds distinct begins upheld
  exact ⟨ledger, describes⟩

end Tenancy
