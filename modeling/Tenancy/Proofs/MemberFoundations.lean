import Tenancy.Proofs.RoleLists

/-!
# Tenancy - The foundations of memberships

A membership is stored for an organization that was loaded before, and organizations
stay.  The ids of its roles have come through trimming, on every path: as requested
roles of a new member, as added roles of a changed one, or out of an invitation.  So in
every reachable world the organization of a membership is stored and the ids of its
roles are tidy, also if ids repeat.

Main definitions:

- `Membership.IsFounded`: what is true of every stored membership.
- `Membership.pact`: the pact that says so, beside the register of organizations.

Main results:

- Theorem `Operation.action_founded`: every operation upholds the pact.
- Theorem `Regime.Reaches.foundedMembers`: every stored membership is founded.
-/

namespace Tenancy

namespace Membership

/-- The organization of a membership is in the register, and the ids of its roles are tidy. -/
structure IsFounded (register : Register Organization.Identity) (member : Membership) : Prop where
  organization : ∃ identity, register.entryOf member.organizationId = some identity
  tidy : ∀ roleId ∈ member.roleIds, Text.IsTidy roleId

variable {known grown : Register Organization.Identity}

namespace IsFounded

variable {member : Membership}

theorem later (founded : member.IsFounded known) (hle : known ≤ grown) :
    member.IsFounded grown where
  organization := founded.organization.imp fun _ hentry => Register.entryOf_of_le hle hentry
  tidy := founded.tidy

/-- Only the key and the roles matter. -/
theorem of_same (founded : member.IsFounded known) {other : Membership}
    (hkey : member.key = other.key) (hroles : member.roles = other.roles) :
    other.IsFounded known := by
  obtain ⟨horganization, htidy⟩ := founded
  unfold roleIds at htidy
  rw [(Prod.mk.inj hkey).1] at horganization
  rw [hroles] at htidy
  exact ⟨horganization, htidy⟩

/-- A change that adds roles with tidy ids keeps the foundations. -/
theorem applyChange (founded : member.IsFounded known) {change : Change}
    (hadded : ∀ roleId ∈ change.added.map (·.roleId), Text.IsTidy roleId) :
    (member.applyChange change).IsFounded known where
  organization := founded.organization
  tidy roleId hmem := by
    obtain ⟨assignment, hassignment, rfl⟩ := List.mem_map.1 hmem
    rcases mem_reassign hassignment with hold | hnew
    · exact founded.tidy _ (List.mem_map_of_mem hold)
    · exact hadded _ (List.mem_map_of_mem hnew)

/-- A new membership in an organization of the register, with tidy ids, is founded. -/
theorem create {org : Organization} (hentry : known.entryOf org.id = some org.identity)
    {roleIds : List String} (htidy : ∀ roleId ∈ roleIds, Text.IsTidy roleId) (userId : String)
    (isPrimary : Bool) (now : Nat) :
    (Membership.create org userId isPrimary roleIds now).IsFounded known where
  organization := ⟨_, hentry⟩
  tidy := by
    rw [roleIds_create]
    exact htidy

end IsFounded

/-! ## The pact -/

/-- The pact that stored memberships are founded. -/
def foundedPact : Pact (Register Organization.Identity) where
  admits _ := True
  holds known world := ∀ member ∈ world.tables.memberships, member.IsFounded known
  quiet {_ _ world} hread founded := by
    rw [world.perform_tables_of_not_write hread]
    exact founded
  shift founded := founded

/-- The pact of the register of organizations together with that of founded memberships. -/
def pact : Pact (Register Organization.Identity) :=
  Organization.registerPact.and foundedPact

/-- A call keeps founded memberships, if one that it inserts is founded and the roles that it adds
have tidy ids. -/
theorem founded_perform {tables : Tables} {call : Call}
    (founded : ∀ member ∈ tables.memberships, member.IsFounded known)
    (hinsert : ∀ member clears, call = .memberships (.insert member clears) →
      member.IsFounded known)
    (hchange : ∀ change : Change, call = .memberships (.applyChange change) →
      ∀ roleId ∈ change.added.map (·.roleId), Text.IsTidy roleId) :
    ∀ member ∈ (tables.perform call).2.memberships, member.IsFounded known := by
  intro member hmember
  rcases Tables.mem_memberships_perform hmember with ⟨before, hbefore, hkey, hroles⟩ |
    ⟨clears, hcall⟩ | ⟨before, hbefore, change, hcall, rfl⟩
  · exact (founded before hbefore).of_same hkey hroles
  · exact hinsert member clears hcall
  · exact (founded before hbefore).applyChange (hchange change hcall)

/-- A call that is not about organizations keeps the pact, by what is known before it. -/
theorem keepsFrom_call {call : Call}
    (hother : ∀ organizationCall, call ≠ .organizations organizationCall)
    (hinsert : ∀ member clears, call = .memberships (.insert member clears) →
      member.IsFounded known)
    (hchange : ∀ change : Change, call = .memberships (.applyChange change) →
      ∀ roleId ∈ change.added.map (·.roleId), Text.IsTidy roleId) :
    pact.KeepsFrom known (.store call) := by
  rintro later world hle ⟨registers, founded⟩
  refine ⟨Organization.registerPact_keeps_call hother later world registers, ?_⟩
  exact founded_perform founded
    (fun member clears hcall => (hinsert member clears hcall).later hle) hchange

/-- A founded membership may be inserted. -/
theorem keepsFrom_insert {member : Membership} (founded : member.IsFounded known) (clears : Bool) :
    pact.KeepsFrom known (.store (.memberships (.insert member clears))) := by
  refine keepsFrom_call nofun ?_ nofun
  rintro _ _ ⟨⟩
  exact founded

/-- Roles with tidy ids may be added. -/
theorem keepsFrom_applyChange {change : Change}
    (hadded : ∀ roleId ∈ change.added.map (·.roleId), Text.IsTidy roleId) :
    pact.KeepsFrom known (.store (.memberships (.applyChange change))) := by
  refine keepsFrom_call nofun nofun ?_
  rintro _ ⟨⟩
  exact hadded

/-- A request that neither inserts nor changes a membership keeps them founded beside the
register. -/
theorem keepsBeside {effect : Effect}
    (hinsert : ∀ member clears, effect ≠ .store (.memberships (.insert member clears)))
    (hchange : ∀ change, effect ≠ .store (.memberships (.applyChange change))) :
    Organization.registerPact.KeepsBeside foundedPact effect := by
  intro known grown world hle _ founded
  have hlater : ∀ member ∈ world.tables.memberships, member.IsFounded grown :=
    fun member hmember => (founded member hmember).later hle
  cases effect with
  | clock | freshId | randomBytes | note => exact hlater
  | store call =>
      refine founded_perform hlater ?_ ?_
      · rintro member clears rfl
        exact absurd rfl (hinsert member clears)
      · rintro change rfl
        exact absurd rfl (hchange change)

end Membership

/-! ## Operations that store memberships -/

open Tenancy.Membership

variable {known : Register Organization.Identity}

/-- An organization that was found is in the register. -/
theorem Organizations.findById_founded (id : String) :
    (Action.ask (.organizations (.findById id))).Upholds pact
      (fun later (found : Option Organization) => ∀ org, found = some org →
        later.entryOf org.id = some org.identity) known := by
  refine .mono (Organizations.findById_reads
    (fun later org => later.entryOf org.id = some org.identity) ?_ ?_ id) ?_
  · exact fun _ _ holds => Organization.Registers.recorded holds.1
  · exact fun hle hentry => Register.entryOf_of_le hle hentry
  · exact fun _ _ hread org horg => (hread org horg).2

/-- An organization that was loaded is in the register. -/
theorem Action.loadOrganization_inRegister (id : String) :
    (Action.loadOrganization id).Upholds pact
      (fun later org => later.entryOf org.id = some org.identity) known := by
  refine .bind (Organizations.findById_founded id) fun later _ found hfound => ?_
  cases found with
  | none => exact .throw _
  | some org => exact .pure fun _ hlast => Register.entryOf_of_le hlast (hfound org rfl)

/-- A new member is founded. -/
theorem Members.add_founded (draft : Membership.Draft) :
    (Members.add draft).Upholds pact (fun _ _ => True) known := by
  refine .check fun _ _ => .bind (Action.loadOrganization_inRegister _) fun loaded _ org hentry =>
    .check fun _ _ => .ofUsesFrom ?_
  have hquiet := pact.keepsFrom_quiet loaded
  refine .andThen (.ask (hquiet _ rfl)) fun existing => .andThen (.require _ _) fun _ =>
    .bind (Roles.assignable_yields hquiet org _) fun roleIds hroleIds => ?_
  refine .andThen (.now (hquiet _ rfl)) fun now => .andThen (.ask (keepsFrom_insert ?_ _)) fun _ =>
    .andThen (.note (hquiet _ rfl)) fun _ => .pure trivial
  exact .create hentry
    (fun roleId hmem => Text.isTidy_of_mem_distinctTrimmed (hroleIds ▸ hmem)) _ _ now

/-- The roles that a wanted list adds have tidy ids, if the listed ones do. -/
theorem Membership.tidy_missingRoles {wanted : List String}
    (htidy : ∀ roleId ∈ wanted, Text.IsTidy roleId) (member : Membership) (org : Organization)
    (now : Nat) :
    ∀ roleId ∈ (member.missingRoles org wanted now).map (·.roleId), Text.IsTidy roleId :=
  fun roleId hmem => htidy roleId (mem_roleIds_missingRoles.1 hmem).1

/-- The delta of an update adds roles with tidy ids. -/
theorem Members.withRoles_tidy {allowed : Effect → Prop}
    (quiet : ∀ effect, effect.isPlain = true → allowed effect) {change : Membership.Change}
    (hadded : change.added = []) (member : Membership) (organizationId : String) (now : Nat)
    (requested : Option (List String)) :
    (Members.withRoles change member organizationId now requested).Uses allowed fun changed =>
      ∀ roleId ∈ changed.added.map (·.roleId), Text.IsTidy roleId := by
  unfold Members.withRoles
  split
  · exact .pure (by simp [hadded])
  · refine .andThen (Action.loadOrganization_uses quiet _) fun org =>
      .andThen (Roles.assignable_uses quiet org _) fun _ => .pure ?_
    exact tidy_missingRoles (fun roleId hmem => Text.isTidy_of_mem_distinctTrimmed hmem) member
      org now

/-- A changed member stays founded. -/
theorem Members.update_founded (organizationId userId : String) (patch : Membership.Patch) :
    (Members.update organizationId userId patch).Upholds pact (fun _ _ => True) known := by
  have hquiet := pact.keepsFrom_quiet known
  refine .ofUsesFrom (.andThen (.ask (hquiet _ rfl)) fun found => .andThen (.demand _ _)
    fun member => .andThen (.now (hquiet _ rfl)) fun now => ?_)
  refine .bind (Members.withRoles_tidy (Effect.plain hquiet) (Members.withFlag_added _ _ _) _ _ _ _)
    fun change hchange => ?_
  split
  · exact .pure trivial
  · exact .andThen (.ask (keepsFrom_applyChange hchange)) fun _ =>
      .andThen (.note (hquiet _ rfl)) fun _ => .pure trivial

/-- The roles of an invitation that can still be assigned have tidy ids. -/
theorem Roles.stillAssignable_tidy {allowed : Effect → Prop}
    (quiet : ∀ effect, effect.isWrite = false → allowed effect) (org : Organization)
    (listed : List String) :
    (Roles.stillAssignable org listed).Uses allowed fun roleIds =>
      ∀ roleId ∈ roleIds, Text.IsTidy roleId := by
  unfold Roles.stillAssignable
  dsimp only
  split
  · exact .pure fun roleId hmem => Text.isTidy_of_mem_distinctTrimmed hmem
  · exact .andThen (.ask (quiet _ rfl)) fun _ => .pure fun roleId hmem =>
      Text.isTidy_of_mem_distinctTrimmed (List.mem_of_mem_filter hmem)

/-- Who joins by an invitation is founded. -/
theorem Invitations.join_founded {org : Organization}
    (hentry : known.entryOf org.id = some org.identity) (userId : String) {roleIds : List String}
    (htidy : ∀ roleId ∈ roleIds, Text.IsTidy roleId) (now : Nat) (existing : Option Membership) :
    (Invitations.join org userId roleIds now existing).Uses (pact.KeepsFrom known)
      fun _ => True := by
  cases existing with
  | none =>
      exact .andThen (.ask (keepsFrom_insert (.create hentry htidy userId false now) false))
        fun _ => .pure trivial
  | some member =>
      unfold Invitations.join Invitations.mergeRoles
      dsimp only
      split
      · exact .pure trivial
      · exact .ask (keepsFrom_applyChange (tidy_missingRoles htidy member org now))

/-- Accepting keeps memberships founded. -/
theorem Invitations.accept_founded (code : String) (user : User) :
    (Invitations.accept code user).Upholds pact (fun _ _ => True) known := by
  have quiet := pact.keeps_quiet
  have delete : ∀ known, pact.KeepsFrom known (.store (.invitations (.delete code))) :=
    fun known => keepsFrom_call nofun nofun nofun
  have ends : ∀ (known : Register Organization.Identity) (error : Error),
      (Invitations.endWith code error : Action Acceptance).Upholds pact (fun _ _ => True) known :=
    fun known error => .ofUsesFrom (.andThen (.ask (delete known)) fun _ => .throw error)
  refine .afterUses (.ask (quiet _ rfl)) fun _ _ found _ => .demand fun invitation _ =>
    .require fun _ => .afterUses (.now (quiet _ rfl)) fun _ _ now _ => ?_
  split
  · exact ends _ _
  · refine .bind (Organizations.findById_founded _) fun loaded _ found hfound => ?_
    cases found with
    | none => exact ends _ _
    | some org =>
        have hquiet := pact.keepsFrom_quiet loaded
        refine .ofUsesFrom (.bind (Roles.stillAssignable_tidy hquiet org _) fun roleIds htidy =>
          .andThen (.ask (hquiet _ rfl)) fun existing =>
          .andThen (Invitations.join_founded (hfound org rfl) _ htidy _ _) fun member =>
          .andThen (.ask (delete loaded)) fun _ =>
          .andThen (.note (hquiet _ rfl)) fun _ => .andThen (.note (hquiet _ rfl)) fun _ =>
          .pure trivial)

/-- Every operation upholds the pact. -/
theorem Operation.action_founded (deployment : Deployment) (operation : Operation) :
    (operation.action deployment).Upholds pact (fun _ _ => True) known := by
  have hothers : (∀ member clears, ¬operation.MayWrite (.memberships (.insert member clears))) →
      (∀ change, ¬operation.MayWrite (.memberships (.applyChange change))) →
      (operation.action deployment).Upholds pact (fun _ _ => True) known := by
    intro hinsert hchange
    refine (operation.action_registers deployment).beside
      ((operation.action_uses deployment).weaken fun effect hmay => keepsBeside ?_ ?_)
    · rintro member clears rfl
      exact hinsert member clears (hmay rfl)
    · rintro change rfl
      exact hchange change (hmay rfl)
  cases operation with
  | addMember draft => exact Members.add_founded draft
  | updateMember organizationId userId patch => exact Members.update_founded _ _ patch
  | acceptInvitation code user => exact Invitations.accept_founded code user
  | _ => exact hothers (by rintro _ _ ⟨⟩) (by rintro _ ⟨⟩)

/-! ## The stored memberships -/

/-- In every reachable world, the organization of every membership is stored and the ids of its
roles are tidy. -/
theorem Regime.Reaches.foundedMembers {regime : Regime} {world : World} {config : Configuration}
    (starts : regime.Starts world) (reaches : regime.Reaches world config) {member : Membership}
    (hmember : member ∈ config.world.tables.memberships) :
    (∃ org ∈ config.world.tables.organizations, org.id = member.organizationId) ∧
      ∀ roleId ∈ member.roleIds, Text.IsTidy roleId := by
  have begins : pact.holds .empty world := by
    refine ⟨Organization.Registers.empty starts.noRecords, ?_⟩
    intro member hmember
    rw [starts.noRecords.memberships] at hmember
    cases hmember
  have admits : ∀ world, regime.admits world → pact.admits world := fun _ _ => ⟨trivial, trivial⟩
  obtain ⟨register, ⟨registers, founded⟩, -⟩ := reaches.upholds admits begins
    fun deployment operation _ _ => operation.action_founded deployment
  obtain ⟨⟨identity, hentry⟩, htidy⟩ := founded member hmember
  exact ⟨Organization.Registers.stored registers _ _ hentry, htidy⟩

end Tenancy
