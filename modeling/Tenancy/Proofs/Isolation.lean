import Tenancy.Proofs.SparingWrites

/-!
# Tenancy - Isolation of organizations

An operation on behalf of one organization changes nothing that another one's
members may do, none of their role assignments and none of the other's
invitations.  Whatever it writes for roles and grants could only matter elsewhere
through an assignment, and a role that belongs to one organization is never
assigned in another.

Main definitions:

- `Operation.Targets`: operations on behalf of an organization.
- `Operation.MayWithdraw`: whose primary flag an operation may withdraw.

Main results:

- Theorem `Operation.action_spares`: an operation on behalf of an organization spares
  every other one.
- Theorem `permissions_isolated`: isolation in every reachable world.
-/

namespace Tenancy

section Spares

variable {world : World} {before : Tables} {organizationId target : String}
  {mayLose : String → Option String → Prop}

/-! ## Organizations and memberships -/

/-- An update of an organization spares them all. -/
theorem Organizations.update_spares (limits : Limits) (id : String) (patch : Organization.Patch)
    (spares : before.Spares organizationId mayLose world.tables) :
    (Organizations.update limits id patch).Preserves (before.Spares organizationId mayLose)
      (fun _ _ => True) world := by
  refine .loadOrganization spares fun org _ => ?_
  refine .afterUses (patchedName_uses Effect.plain_reads limits org _) spares
    fun named displayName hnamed _ => ?_
  rw [← hnamed] at spares
  refine .afterUses (patchedMetadata_uses limits org _) spares fun described metadata hsame _ => ?_
  rw [← hsame] at spares
  refine .now ?_
  dsimp only
  split
  · exact .pure spares trivial
  · exact .write (.organizations (.update _)) (spares.writeOrganization _) fun _ _ hkept =>
      .note _ _ hkept

/-- Adding a member spares other organizations. -/
theorem Members.add_spares (draft : Membership.Draft)
    (spares : before.Spares organizationId mayLose world.tables)
    (hother : draft.organizationId ≠ organizationId)
    (hmay : draft.isPrimary = true → ∀ org ∈ world.tables.organizations,
      org.id = draft.organizationId → mayLose draft.userId org.tenantId) :
    (Members.add draft).Preserves (before.Spares organizationId mayLose) (fun _ _ => True)
      world := by
  refine .check spares fun _ _ => .loadOrganization spares fun org horg => ?_
  have hid : org.id = draft.organizationId := Tables.key_of_find horg
  refine .check spares fun _ _ => .read (.memberships (.find _ _)) rfl spares fun existing _ => ?_
  refine .require spares fun _ => ?_
  refine .afterUses (Roles.assignable_uses Effect.plain_reads org _) spares
    fun checked roleIds hsame _ => .now ?_
  rw [← hsame] at spares
  have hwrite := spares.insertMembership
    (Membership.create org draft.userId draft.isPrimary roleIds checked.clock) draft.isPrimary
    (by simpa [Membership.create, hid] using hother)
    fun hprimary => hmay hprimary org (List.mem_of_find?_eq_some horg) hid
  exact .write (.memberships (.insert _ _)) hwrite fun _ _ hkept => .note _ _ hkept

/-- A delta withdraws other flags only where the patch asks for a primary membership. -/
theorem Members.withFlag_clearsOthers {change : Membership.Change} {member : Membership}
    {flag : Option Bool} (hunchanged : change.clearsOthers = false)
    (hclears : (Members.withFlag change member flag).clearsOthers = true) : flag = some true := by
  unfold Members.withFlag at hclears
  split at hclears
  · rename_i isPrimary
    split at hclears
    · rw [hunchanged] at hclears
      cases hclears
    · have hprimary : isPrimary = true := hclears
      rw [hprimary]
  · rw [hunchanged] at hclears
    cases hclears

/-- Changing a membership spares other organizations. -/
theorem Members.update_spares (targetUserId : String) (patch : Membership.Patch)
    (spares : before.Spares organizationId mayLose world.tables) (hother : target ≠ organizationId)
    (hmay : patch.isPrimary = some true → ∀ member ∈ world.tables.memberships,
      member.key = (target, targetUserId) → mayLose member.userId member.tenantId) :
    (Members.update target targetUserId patch).Preserves (before.Spares organizationId mayLose)
      (fun _ _ => True) world := by
  refine .read (.memberships (.find _ _)) rfl spares fun found _ => .demand spares fun member _ =>
    .now ?_
  have hfair := Members.withFlag_isFair member target targetUserId world.clock patch.isPrimary
  have hclears : (Members.withFlag { Members.noChange member world.clock with
      organizationId := target, userId := targetUserId } member
        patch.isPrimary).clearsOthers = true → patch.isPrimary = some true :=
    Members.withFlag_clearsOthers rfl
  dsimp only at hfair hclears ⊢
  generalize Members.withFlag _ member patch.isPrimary = flagged at hfair hclears ⊢
  refine .afterUses (Members.withRoles_uses Effect.plain_reads flagged member _ _ _) spares
    fun checked change hsame hchange => ?_
  obtain ⟨added, removedRoleIds, rfl⟩ := hchange
  rw [← hsame] at spares hmay
  split
  · exact .pure spares trivial
  · have hwrite := spares.changeMembership
      { flagged with added := added, removedRoleIds := removedRoleIds }
      (by rw [hfair.1]; exact hother)
      fun hflag found hfound hkey => hmay (hclears hflag) found hfound
        (by rw [hkey, hfair.1, hfair.2.1])
    exact .write (.memberships (.applyChange _)) hwrite fun _ _ hkept => .note _ _ hkept

/-- Removing a member spares other organizations. -/
theorem Members.remove_spares (userId : String)
    (spares : before.Spares organizationId mayLose world.tables)
    (hother : target ≠ organizationId) :
    (Members.remove target userId).Preserves (before.Spares organizationId mayLose)
      (fun _ _ => True) world := by
  refine .write (.memberships (.delete target userId)) (spares.deleteMembership userId hother)
    fun _ deleted hkept => ?_
  split
  · exact .ofUses (.note rfl) hkept
  · exact .pure hkept trivial

/-! ## Roles and grants -/

/-- Creating a role spares the organizations in which the fresh id is not assigned. -/
theorem Roles.create_spares (limits : Limits) (draft : Role.Draft)
    (spares : before.Spares organizationId mayLose world.tables)
    (hfree : ¬before.IsAssignedIn organizationId world.drawId.1) :
    (Roles.create limits draft).Preserves (before.Spares organizationId mayLose)
      (fun _ _ => True) world := by
  refine .check spares fun name _ => .check spares fun description _ => ?_
  refine .afterSame (Roles.runIn_draftTenant world draft) spares fun tenantId => ?_
  refine .read (.roles (.findByName _ _ _)) rfl spares fun sameName _ => .require spares fun _ => ?_
  refine .now (.freshId ?_)
  exact .write (.roles (.create _)) (spares.createRole _ hfree) fun _ _ hkept => .note _ _ hkept

/-- Renaming or redescribing a role spares every organization. -/
theorem Roles.update_spares (limits : Limits) (roleId : String) (patch : Role.Patch)
    (spares : before.Spares organizationId mayLose world.tables) :
    (Roles.update limits roleId patch).Preserves (before.Spares organizationId mayLose)
      (fun _ _ => True) world := by
  refine .loadRole spares fun role _ => ?_
  refine .afterUses (Roles.patchedName_uses Effect.plain_reads limits role _) spares
    fun named name hnamed _ => ?_
  rw [← hnamed] at spares
  refine .afterUses (Roles.patchedDescription_uses limits role _) spares
    fun described description hsame _ => ?_
  rw [← hsame] at spares
  split
  · exact .pure spares trivial
  · exact .now (.write (.roles (.update _)) (spares.updateRole _) fun _ _ hkept => .note _ _ hkept)

/-- Deleting a role spares the organizations in which it is not assigned. -/
theorem Roles.delete_spares {roleId : String}
    (spares : before.Spares organizationId mayLose world.tables)
    (hfree : ∀ role, world.tables.roles.find? (·.id == roleId) = some role →
      ¬before.IsAssignedIn organizationId roleId) :
    (Roles.delete roleId).Preserves (before.Spares organizationId mayLose) (fun _ _ => True)
      world := by
  refine .loadRole spares fun role hrole => .require spares fun _ => ?_
  refine .write (.roles (.delete roleId)) (spares.deleteRole (hfree role hrole)) fun _ _ hkept => ?_
  exact .require hkept fun _ => .ofUses (.note rfl) hkept

/-- The ids of grants to remove are ids of the grants at the scope. -/
theorem Roles.mem_removed_of_keepWanted {wanted kept : List String} {grants : List Grant}
    {id : String} (hmem : id ∈ (Roles.keepWanted wanted kept grants).2) :
    ∃ grant ∈ grants, grant.id = id := by
  induction grants generalizing kept with
  | nil => cases hmem
  | cons grant rest ih =>
      unfold Roles.keepWanted at hmem
      split at hmem
      · obtain ⟨other, hother, heq⟩ := ih hmem
        exact ⟨other, List.mem_cons_of_mem _ hother, heq⟩
      · rcases List.mem_cons.1 hmem with rfl | hmem
        · exact ⟨grant, List.mem_cons_self, rfl⟩
        · obtain ⟨other, hother, heq⟩ := ih hmem
          exact ⟨other, List.mem_cons_of_mem _ hother, heq⟩

/-- Setting what a role grants in an organization spares other organizations. -/
theorem Roles.setPermissions_spares (roleId : String) (names : List String)
    (spares : before.Spares organizationId mayLose world.tables)
    (distinct : world.tables.HasDistinctKeys) (hother : target ≠ organizationId) :
    (Roles.setPermissions roleId (some target) names).Preserves
      (before.Spares organizationId mayLose) (fun _ _ => True) world := by
  have hunseen : ∀ grant : Grant, grant.organizationId = some target →
      grant.visibleToOrganization organizationId = false := by
    intro grant hgrant
    simpa [Grant.visibleToOrganization, hgrant] using hother
  refine .loadRole spares fun role _ => ?_
  refine .afterUses (Roles.scopeTenant_uses Effect.plain_reads role roleId _) spares
    fun placed tenantId hplaced _ => ?_
  rw [← hplaced] at spares distinct
  refine .afterUses (Roles.wantedIds_uses Effect.plain_reads _) spares
    fun named wanted hnamed _ => ?_
  rw [← hnamed] at spares distinct
  refine .read (.roles (.grantsOf _)) rfl spares fun grants hgrants => ?_
  -- The grants to remove are at the scope, and no other grants have their ids.
  have hremoved : ∀ grant ∈ named.tables.grants, grant.id ∈ (Roles.keepWanted wanted []
      (grants.filter (Roles.isGrantAt role (some target) tenantId))).2 →
      grant.visibleToOrganization organizationId = false := by
    intro grant hgrant hid
    obtain ⟨other, hmem, hsameId⟩ := Roles.mem_removed_of_keepWanted hid
    obtain ⟨hmem, hat⟩ := List.mem_filter.1 hmem
    have hstored : other ∈ named.tables.grants := by
      rw [← Except.ok.inj hgrants] at hmem
      exact List.mem_of_mem_filter hmem
    have hsame : other = grant := Tables.eq_of_key_eq distinct.grants hstored hgrant hsameId
    subst hsame
    have hscope : other.organizationId = some target := by
      simp only [Roles.isGrantAt, Bool.and_eq_true, beq_iff_eq] at hat
      exact hat.1.2
    exact hunseen other hscope
  dsimp only
  generalize Roles.keepWanted wanted [] _ = split at hremoved ⊢
  obtain ⟨kept, removedIds⟩ := split
  refine .afterUses (Roles.newGrants_uses Effect.plain_reads role _ tenantId _) spares
    fun made added hmade hadded => ?_
  rw [← hmade] at spares hremoved
  split
  · exact .pure spares trivial
  · have hwrite := spares.changeGrants added removedIds
      (fun grant hgrant => hunseen grant (hadded grant hgrant).1) hremoved
    exact .write (.roles (.changeGrants _ _)) hwrite fun _ _ hkept => .ofUses (.note rfl) hkept

/-! ## Invitations -/

/-- Making way for a new invitation spares other organizations. -/
theorem Invitations.replaceExpired_spares {now : Nat} {existing : Option Invitation}
    (spares : before.Spares organizationId mayLose world.tables)
    (hother : ∀ invitation, existing = some invitation → ∀ other ∈ before.invitations,
      other.code = invitation.code → other.organizationId ≠ organizationId) :
    (Invitations.replaceExpired now existing).Preserves (before.Spares organizationId mayLose)
      (fun _ _ => True) world := by
  cases existing with
  | none => exact .pure spares trivial
  | some invitation =>
      refine .require spares fun _ => ?_
      exact .write (.invitations (.delete _)) (spares.deleteInvitation (hother invitation rfl))
        fun _ _ hkept => .pure hkept trivial

/-- Storing an invitation to another organization spares the organization. -/
theorem Invitations.store_spares (invitation : Invitation)
    (spares : before.Spares organizationId mayLose world.tables)
    (hother : invitation.organizationId ≠ organizationId) :
    (Invitations.store invitation).Preserves (before.Spares organizationId mayLose)
      (fun _ _ => True) world := by
  refine .bind (.attempt (.invitations (.create invitation))
    (spares.createInvitation invitation hother)) fun _ result hkept _ => ?_
  split
  · exact .pure hkept trivial
  · exact .throw _ hkept
  · exact .throw _ hkept

/-- Inviting an address spares other organizations. -/
theorem Invitations.create_spares (policy : InvitationPolicy) (draft : Invitation.Draft)
    (spares : before.Spares organizationId mayLose world.tables)
    (hsame : before.invitations = world.tables.invitations)
    (distinct : world.tables.HasDistinctKeys) (hother : draft.organizationId ≠ organizationId) :
    (Invitations.create policy draft).Preserves (before.Spares organizationId mayLose)
      (fun _ _ => True) world := by
  refine .check spares fun email _ => .check spares fun _ _ => .loadOrganization spares
    fun org horg => ?_
  have hid : org.id = draft.organizationId := Tables.key_of_find horg
  refine .afterUses (Roles.assignable_uses Effect.plain_reads org _) spares
    fun checked roleIds hchecked _ => .now ?_
  rw [← hchecked] at spares hsame distinct
  refine .read (.invitations (.findForEmail _ _)) rfl spares fun existing hexisting => ?_
  refine .bind (Invitations.replaceExpired_spares spares ?_) fun _ _ hkept _ => ?_
  · -- The invitation for the address is to the target, and no other has its code.
    rintro invitation rfl other hmem hcode
    have hfind := Except.ok.inj hexisting
    have hfound : invitation.organizationId = org.id := by
      have hcond := List.find?_some hfind
      simp only [Bool.and_eq_true, beq_iff_eq] at hcond
      exact hcond.1
    rw [hsame] at hmem
    have heq : other = invitation := Tables.eq_of_key_eq distinct.invitations hmem
      (List.mem_of_find?_eq_some hfind) hcode
    rw [heq, hfound, hid]
    exact hother
  · refine .randomBytes ?_
    refine .bind (Invitations.store_spares _ hkept ?_) fun _ _ hkept _ => .note _ _ hkept
    rw [← hid] at hother
    exact hother

/-- Joining an organization by invitation spares the others. -/
theorem Invitations.join_spares (org : Organization) (userId : String) (roleIds : List String)
    (now : Nat) (existing : Option Membership)
    (spares : before.Spares organizationId mayLose world.tables)
    (hother : org.id ≠ organizationId) :
    (Invitations.join org userId roleIds now existing).Preserves
      (before.Spares organizationId mayLose) (fun _ _ => True) world := by
  cases existing with
  | none =>
      exact .write (.memberships (.insert _ _)) (spares.insertMembership _ _ hother nofun)
        fun _ _ hkept => .pure hkept trivial
  | some member =>
      unfold Invitations.join Invitations.mergeRoles
      dsimp only
      split
      · exact .pure spares trivial
      · exact .mono (.ask (.memberships (.applyChange _))
          (spares.changeMembership _ hother nofun)) fun _ _ _ => trivial

/-- Accepting an invitation of another organization spares the organization. -/
theorem Invitations.accept_spares (code : String) (user : User)
    (spares : before.Spares organizationId mayLose world.tables)
    (hsame : before.invitations = world.tables.invitations)
    (hother : ∀ invitation ∈ before.invitations, invitation.code = code →
      invitation.organizationId ≠ organizationId) :
    (Invitations.accept code user).Preserves (before.Spares organizationId mayLose)
      (fun _ _ => True) world := by
  have hends : ∀ error, (Invitations.endWith code error : Action Acceptance).Preserves
      (before.Spares organizationId mayLose) (fun _ _ => True) world := fun error =>
    .write (.invitations (.delete code)) (spares.deleteInvitation hother) fun _ _ hkept =>
      .throw _ hkept
  refine .read (.invitations (.findByCode _)) rfl spares fun found hfound => .demand spares
    fun invitation hinvitation => .require spares fun _ => .now ?_
  have hfind : world.tables.invitations.find? (·.code == code) = some invitation := by
    rw [← hinvitation]
    exact Except.ok.inj hfound
  have hne : invitation.organizationId ≠ organizationId := by
    refine hother invitation ?_ (Tables.key_of_find hfind)
    rw [hsame]
    exact List.mem_of_find?_eq_some hfind
  split
  · exact hends _
  · refine .read (.organizations (.findById _)) rfl spares fun organization horganization => ?_
    cases organization with
    | none => exact hends _
    | some org =>
        have hid : org.id = invitation.organizationId := by
          simpa using List.find?_some (Except.ok.inj horganization)
        refine .afterUses (Roles.stillAssignable_uses Effect.plain_reads org _) spares
          fun checked roleIds hchecked _ => ?_
        rw [← hchecked] at spares
        refine .read (.memberships (.find _ _)) rfl spares fun existing _ => ?_
        refine .bind (Invitations.join_spares org user.id roleIds _ existing spares
          (by rw [hid]; exact hne)) fun _ member hkept _ => ?_
        refine .write (.invitations (.delete code)) (hkept.deleteInvitation hother)
          fun _ _ hkept => ?_
        exact .ofUses (.andThen (.note rfl) fun _ => .andThen (.note rfl) fun _ => .pure trivial)
          hkept

/-- Revoking an invitation of another organization spares the organization. -/
theorem Invitations.revoke_spares (code : String)
    (spares : before.Spares organizationId mayLose world.tables)
    (hsame : before.invitations = world.tables.invitations)
    (distinct : world.tables.HasDistinctKeys) (hother : target ≠ organizationId) :
    (Invitations.revoke target code).Preserves (before.Spares organizationId mayLose)
      (fun _ _ => True) world := by
  refine .read (.invitations (.findByCode _)) rfl spares fun found hfound => ?_
  split
  · exact .pure spares trivial
  · rename_i invitation hinvitation
    obtain ⟨rfl, htarget⟩ := Option.filter_eq_some_iff.1 hinvitation
    have hmem := List.mem_of_find?_eq_some (Except.ok.inj hfound)
    refine .write (.invitations (.delete _)) (spares.deleteInvitation ?_) fun _ deleted hkept => ?_
    · intro other hstored hcode
      rw [hsame] at hstored
      have heq : other = invitation := Tables.eq_of_key_eq distinct.invitations hstored hmem hcode
      have htargetId : invitation.organizationId = target := by simpa using htarget
      rw [heq, htargetId]
      exact hother
    · split
      · exact .note _ _ hkept
      · exact .pure hkept trivial

end Spares

/-! ## Operations on behalf of an organization -/

namespace Operation

/-- Operations on behalf of an organization: they name it, or a role or an invitation that belongs
to it if there is one. -/
inductive Targets (tables : Tables) (organizationId : String) : Operation → Prop
  | updateOrganization (patch : Organization.Patch) :
      Targets tables organizationId (.updateOrganization organizationId patch)
  | archiveOrganization : Targets tables organizationId (.archiveOrganization organizationId)
  | addMember (draft : Membership.Draft) (named : draft.organizationId = organizationId) :
      Targets tables organizationId (.addMember draft)
  | updateMember (userId : String) (patch : Membership.Patch) :
      Targets tables organizationId (.updateMember organizationId userId patch)
  | removeMember (userId : String) :
      Targets tables organizationId (.removeMember organizationId userId)
  | createRole (draft : Role.Draft) (owned : draft.organizationId = some organizationId) :
      Targets tables organizationId (.createRole draft)
  | updateRole (roleId : String) (patch : Role.Patch)
      (owned : ∀ role ∈ tables.roles, role.id = roleId →
        role.organizationId = some organizationId) :
      Targets tables organizationId (.updateRole roleId patch)
  | deleteRole (roleId : String)
      (owned : ∀ role ∈ tables.roles, role.id = roleId →
        role.organizationId = some organizationId) :
      Targets tables organizationId (.deleteRole roleId)
  | setRolePermissions (roleId : String) (names : List String) :
      Targets tables organizationId (.setRolePermissions roleId (some organizationId) names)
  | createInvitation (draft : Invitation.Draft) (named : draft.organizationId = organizationId) :
      Targets tables organizationId (.createInvitation draft)
  | acceptInvitation (code : String) (user : User)
      (invites : ∀ invitation ∈ tables.invitations, invitation.code = code →
        invitation.organizationId = organizationId) :
      Targets tables organizationId (.acceptInvitation code user)
  | revokeInvitation (code : String) :
      Targets tables organizationId (.revokeInvitation organizationId code)

/-- The user whose membership an operation makes primary. -/
def promotes : Operation → Option String
  | .addMember draft => if draft.isPrimary then some draft.userId else none
  | .updateMember _ userId patch => if patch.isPrimary = some true then some userId else none
  | _ => none

/-- An operation on behalf of an organization may withdraw flags of the user it makes primary, in
the tenant of the organization. -/
def MayWithdraw (tables : Tables) (organizationId : String) (operation : Operation)
    (userId : String) (tenantId : Option String) : Prop :=
  operation.promotes = some userId ∧
    ∃ org ∈ tables.organizations, org.id = organizationId ∧ org.tenantId = tenantId

end Operation

/-! ## Roles that are not assigned -/

namespace Ledger.Describes

variable {ledger : Ledger} {world : World} {organizationId : String}

/-- An assigned role is known, and fits the organization if it is stored. -/
theorem isAssignedIn_fits (describes : ledger.Describes world) {roleId : String}
    (hassigned : world.tables.IsAssignedIn organizationId roleId) :
    ∃ scope, ledger.scopeOf roleId = some scope ∧
      scope.organizationId.all (· == organizationId) = true := by
  obtain ⟨member, hmember, hrole⟩ := hassigned
  obtain ⟨hstored, horg⟩ := List.mem_filter.1 hmember
  have hid : member.organizationId = organizationId := by simpa using horg
  have hadmits := describes.members member hstored
  rw [Text.mem_distinctTrimmed_of_tidy hadmits.tidy] at hrole
  obtain ⟨assignment, hassignment, rfl⟩ := List.mem_map.1 hrole
  obtain ⟨scope, tenantId, hscope, -, hfits⟩ :=
    (hadmits.assignments assignment hassignment).assigns.fits
  rw [hid] at hfits
  exact ⟨scope, hscope, (Bool.and_eq_true_iff.1 hfits).1⟩

/-- A role of one organization is not assigned in another. -/
theorem not_isAssignedIn_of_owned (describes : ledger.Describes world) {role : Role}
    (hrole : role ∈ world.tables.roles) {target : String}
    (howned : role.organizationId = some target) (hne : target ≠ organizationId) :
    ¬world.tables.IsAssignedIn organizationId role.id := by
  intro hassigned
  obtain ⟨scope, hscope, hfits⟩ := describes.isAssignedIn_fits hassigned
  rw [describes.scopes role hrole] at hscope
  cases hscope
  have howner : role.scope.organizationId = some target := howned
  rw [howner] at hfits
  exact hne (by simpa using hfits)

/-- The next id is not that of an assigned role. -/
theorem not_isAssignedIn_of_fresh (describes : ledger.Describes world)
    (fresh : world.drawId.2.supply.DistinctIds) :
    ¬world.tables.IsAssignedIn organizationId world.drawId.1 := by
  intro hassigned
  obtain ⟨scope, hscope, -⟩ := describes.isAssignedIn_fits hassigned
  obtain ⟨n, hlt, heq⟩ := describes.drawn _ scope hscope
  have hsame : n = world.supply.idsDrawn :=
    fresh n world.supply.idsDrawn (Nat.lt_succ_of_lt hlt) (Nat.lt_succ_self _) heq
  omega

end Ledger.Describes

/-! ## Isolation -/

/-- An operation on behalf of an organization spares every other one. -/
theorem Operation.action_spares {ledger : Ledger} {world : World} {operation : Operation}
    {organizationId target : String} (describes : ledger.Describes world)
    (keys : world.tables.HasDistinctKeys) (fresh : world.drawId.2.supply.DistinctIds)
    (deployment : Deployment) (targets : operation.Targets world.tables target)
    (hne : target ≠ organizationId) :
    (operation.action deployment).Preserves
      (world.tables.Spares organizationId (operation.MayWithdraw world.tables target))
      (fun _ _ => True) world := by
  have begins : world.tables.Spares organizationId (operation.MayWithdraw world.tables target)
      world.tables := .refl _
  cases targets with
  | updateOrganization patch => exact Organizations.update_spares _ _ patch begins
  | archiveOrganization => exact Organizations.update_spares _ _ _ begins
  | addMember draft named =>
      refine Members.add_spares draft begins (by rw [named]; exact hne) ?_
      intro hprimary org horg hid
      exact ⟨by simp [promotes, hprimary], org, horg, hid.trans named, rfl⟩
  | updateMember userId patch =>
      refine Members.update_spares userId patch begins hne ?_
      intro hprimary member hmember hkey
      have horganization : member.organizationId = target := (Prod.ext_iff.1 hkey).1
      have huser : member.userId = userId := (Prod.ext_iff.1 hkey).2
      obtain ⟨org, hfind⟩ := describes.find_organization hmember
      have hid : org.id = member.organizationId := Tables.key_of_find hfind
      have horg := List.mem_of_find?_eq_some hfind
      exact ⟨by simp [promotes, hprimary, huser], org, horg, hid.trans horganization,
        (describes.tenantId_eq hmember horg hid.symm).symm⟩
  | removeMember userId => exact Members.remove_spares userId begins hne
  | createRole draft owned =>
      exact Roles.create_spares _ draft begins (describes.not_isAssignedIn_of_fresh fresh)
  | updateRole roleId patch owned => exact Roles.update_spares _ roleId patch begins
  | deleteRole roleId owned =>
      refine Roles.delete_spares begins fun role hfind => ?_
      have hrole := List.mem_of_find?_eq_some hfind
      have hid : role.id = roleId := Tables.key_of_find hfind
      rw [← hid]
      exact describes.not_isAssignedIn_of_owned hrole (owned role hrole hid) hne
  | setRolePermissions roleId names =>
      exact Roles.setPermissions_spares roleId names begins keys hne
  | createInvitation draft named =>
      have hother : draft.organizationId ≠ organizationId := by
        rw [named]
        exact hne
      exact Invitations.create_spares _ draft begins rfl keys hother
  | acceptInvitation code user invites =>
      have hother : ∀ invitation ∈ world.tables.invitations, invitation.code = code →
          invitation.organizationId ≠ organizationId := by
        intro invitation hinvitation hcode
        rw [invites invitation hinvitation hcode]
        exact hne
      exact Invitations.accept_spares code user begins rfl hother
  | revokeInvitation code => exact Invitations.revoke_spares code begins rfl keys hne

/-- Between two worlds, the users of an organization keep their permissions there, its members keep
all but primary flags that may be lost, and its invitations stay. -/
structure World.KeepsAuthority (organizationId : String)
    (mayLose : String → Option String → Prop) (before after : World) : Prop where
  permissions : ∀ userId,
    ((Resolution.inOrganization organizationId userId).runIn after).1 =
      ((Resolution.inOrganization organizationId userId).runIn before).1
  members : List.Forall₂ (Membership.KeptOrWithdrawn mayLose)
    (before.tables.membersOf organizationId) (after.tables.membersOf organizationId)
  invitations : after.tables.invitationsOf organizationId =
    before.tables.invitationsOf organizationId

/-- In every reachable world, an operation on behalf of an organization keeps the authority in every
other one; at most it withdraws a primary flag of the user it makes primary. -/
theorem permissions_isolated {regime : Regime} {world : World} {config : Configuration}
    (starts : regime.Starts world) (reaches : regime.Reaches world config)
    (distinct : ∀ world, regime.admits world → world.supply.DistinctIds)
    (fresh : config.world.drawId.2.supply.DistinctIds) (deployment : Deployment)
    {operation : Operation} {organizationId target : String}
    (targets : operation.Targets config.world.tables target) (hne : target ≠ organizationId) :
    World.KeepsAuthority organizationId (operation.MayWithdraw config.world.tables target)
      config.world ((operation.action deployment).runIn config.world).2 := by
  obtain ⟨ledger, describes⟩ := reaches.described starts distinct
  have keys := reaches.hasDistinctKeys starts
  have spares := (Operation.action_spares describes keys fresh deployment targets hne).kept
  refine ⟨fun userId => ?_, spares.members, spares.invitations⟩
  rw [Resolution.runIn_inOrganization, Resolution.runIn_inOrganization, spares.resolved]

/-- A user who becomes primary in a second organization of the tenant loses the flag in the first
one and nothing else there. -/
theorem permissions_isolated_second_primary :
    ∃ (config : Configuration) (operation : Operation),
      Regime.orderly.Reaches (World.blank []) config ∧
      operation.promotes = some "u" ∧
      config.world.tables.memberships.map (·.isPrimary) = [true] ∧
      ((operation.action default).runIn config.world).2.tables.memberships.map (·.isPrimary) =
        [false, true] ∧
      World.KeepsAuthority "a" (operation.MayWithdraw config.world.tables "aa") config.world
        ((operation.action default).runIn config.world).2 := by
  have starts : Regime.orderly.Starts (World.blank []) := Regime.orderly_starts_blank (by simp)
  obtain ⟨config, reaches, hworld⟩ := Regime.orderly_operations starts default
    [.createOrganization
      { slug := "north", displayName := "North", tenantId := some "t", metadata := .empty },
     .createOrganization
      { slug := "south", displayName := "South", tenantId := some "t", metadata := .empty },
     .addMember
      { organizationId := "a", userId := "u", tenantId := none, isPrimary := true
        roleIds := [] }]
  have orderly : config.world.IsOrderly := reaches.admitted starts
  refine ⟨config, .addMember { organizationId := "aa", userId := "u", tenantId := none
                               isPrimary := true, roleIds := [] }, reaches, rfl, ?_, ?_, ?_⟩
  · rw [hworld]
    decide +kernel
  · rw [hworld]
    decide +kernel
  · exact permissions_isolated starts reaches (fun _ orderly => orderly.distinctIds)
      (orderly.perform .freshId).distinctIds default (.addMember _ rfl) (by decide)

end Tenancy
