import Tenancy.Proofs.InvitationRecords
import Tenancy.Proofs.OrderlyRuns
import Tenancy.Proofs.Registers

/-!
# Tenancy - The integrity of invitations

An invitation is written once and never changed, so what is true when it is stored
stays true while it is there.  Its address passed the check and is in normal form; the
roles are those that were requested, each once; and its lifetime is one that the
policy allows, however the policy contradicts itself.  Its organization was loaded
before, and organizations stay.

Main definitions:

- `Invitation.IsSound`: what is true of every stored invitation under a policy.
- `Invitation.pact`: the pact of sound invitations to organizations in the register.
- `Tables.HasSoundInvitations`: what the invitations of a store are like.

Main results:

- Theorem `InvitationPolicy.clampHours_mem`: lifetimes are within the policy's bounds.
- Theorem `InvitationPolicy.add_lifetime_lt`: expiry times fit a word.
- Theorem `Operation.action_sound_invitations`: every operation upholds the pact.
- Theorem `soundInvitations_of_reaches`: in every reachable world, invitations are
  sound.
-/

namespace Tenancy

/-! ## Lifetimes -/

namespace InvitationPolicy

variable {policy : InvitationPolicy}

/-- A lifetime is at least the lower bound, brought below the upper one, and at most the upper
bound. -/
theorem clampHours_mem (policy : InvitationPolicy) (requested : Option Nat) :
    policy.clampHours requested ∈ Set.Icc (min policy.minHours policy.maxHours) policy.maxHours := by
  unfold clampHours
  constructor
  · exact le_min (le_max_right _ _) (min_le_right _ _)
  · exact min_le_right _ _

/-- An expiry time fits a word of 64 bits, if the clock fits a signed one and the upper bound one of
32 bits. -/
theorem add_lifetime_lt {now : Nat} (hnow : now < 2 ^ 63) (hmax : policy.maxHours < 2 ^ 32)
    (requested : Option Nat) : now + policy.lifetime requested < 2 ^ 64 := by
  have hhours : policy.clampHours requested ≤ policy.maxHours := (policy.clampHours_mem requested).2
  unfold lifetime
  omega

end InvitationPolicy

/-! ## Sound invitations -/

namespace Invitation

/-- What is true of every stored invitation under a policy: its address is valid and in normal form,
the ids of its roles are tidy and differ, and it lasts for a number of hours within the bounds of
the policy, until a time that fits a word of 64 bits. -/
structure IsSound (policy : InvitationPolicy) (invitation : Invitation) : Prop where
  valid : Text.Email.isValid invitation.email = true
  normal : Text.Email.normalize invitation.email = invitation.email
  tidy : ∀ roleId ∈ invitation.roleIds, Text.IsTidy roleId
  distinct : invitation.roleIds.Nodup
  lifetime : ∃ hours ∈ Set.Icc (min policy.minHours policy.maxHours) policy.maxHours,
    invitation.expiresAt = invitation.createdAt + hours * 3600
  fits : invitation.expiresAt < 2 ^ 64

/-- An invitation is sound and its organization is in the register. -/
def IsFounded (policy : InvitationPolicy) (register : Register Organization.Identity)
    (invitation : Invitation) : Prop :=
  invitation.IsSound policy ∧
    ∃ identity, register.entryOf invitation.organizationId = some identity

variable {policy : InvitationPolicy} {known grown : Register Organization.Identity}

theorem IsFounded.later (hle : known ≤ grown) {invitation : Invitation}
    (hfounded : invitation.IsFounded policy known) : invitation.IsFounded policy grown := by
  obtain ⟨sound, identity, hentry⟩ := hfounded
  exact ⟨sound, identity, Register.entryOf_of_le hle hentry⟩

/-- The pact of sound invitations, for worlds whose clock fits a signed word. -/
def soundPact (policy : InvitationPolicy) : Pact (Register Organization.Identity) :=
  Invitation.shelf.pact (fun world => world.clock < 2 ^ 63) (IsFounded policy)

/-- The pact of the register of organizations together with that of sound invitations. -/
def pact (policy : InvitationPolicy) : Pact (Register Organization.Identity) :=
  Organization.registerPact.and (soundPact policy)

/-- A request that stores no invitation keeps soundness beside the register. -/
theorem keepsBeside {effect : Effect}
    (hnone : ∀ invitation, effect ≠ .store (.invitations (.create invitation))) :
    Organization.registerPact.KeepsBeside (soundPact policy) effect := by
  refine Shelf.keepsBeside (fun hle hfounded => IsFounded.later hle hfounded) ?_
  rintro call rfl invitation rfl
  exact hnone invitation rfl

/-- A call about invitations keeps both pacts, if an invitation that it stores is sound and to an
organization in the register. -/
theorem keepsFrom_call {call : InvitationCall}
    (hstored : ∀ invitation, call = .create invitation → invitation.IsFounded policy known) :
    (pact policy).KeepsFrom known (.store (.invitations call)) := by
  rintro later world hle ⟨registers, holds⟩
  refine ⟨Organization.registerPact_keeps_call (by rintro _ ⟨⟩) later world registers, ?_⟩
  intro invitation hmem
  change invitation ∈ (world.tables.perform (.invitations call)).2.invitations at hmem
  rcases Tables.mem_invitations_perform hmem with hold | hnew
  · exact holds invitation hold
  · exact (hstored invitation (Call.invitations.inj hnew)).later hle

end Invitation

/-! ## Inviting -/

open Invitation

variable {policy : InvitationPolicy} {known : Register Organization.Identity}

/-- The requested roles come to the trimmed ones, each once. -/
theorem Roles.assignable_yields {allowed : Effect → Prop}
    (quiet : ∀ effect, effect.isWrite = false → allowed effect) (org : Organization)
    (requested : List String) :
    (Roles.assignable org requested).Uses allowed fun roleIds =>
      roleIds = Text.distinctTrimmed requested := by
  unfold Roles.assignable
  dsimp only
  split
  · exact .pure rfl
  · exact .andThen (.ask (quiet _ rfl)) fun _ => .andThen (.check _) fun _ => .pure rfl

/-- The time that is read is within the pact. -/
theorem Action.now_bounded :
    Action.now.Upholds (pact policy) (fun _ now => now < 2 ^ 63) known := by
  refine @Action.Upholds.perform _ _ (pact policy) known .clock _ fun later world _ holds admits => ?_
  exact ⟨later, le_rfl, holds, fun _ _ => admits.2⟩

/-- The organization that an invitation is to was loaded, so it is in the register. -/
theorem Action.loadOrganization_founded (id : String) :
    (Action.loadOrganization id).Upholds (pact policy)
      (fun later org => later.entryOf org.id = some org.identity) known := by
  refine (Action.loadOrganization_registers id).beside
    (Action.loadOrganization_uses (Effect.plain fun effect hread => keepsBeside ?_) id)
  rintro invitation rfl
  cases hread

/-- A new invitation is sound. -/
theorem Invitations.create_sound (draft : Invitation.Draft) (hmax : policy.maxHours < 2 ^ 32) :
    (Invitations.create policy draft).Upholds (pact policy) (fun _ _ => True) known := by
  have quiet := (pact policy).keeps_quiet
  refine .check fun email hemail => .check fun _ _ => ?_
  refine .bind (Action.loadOrganization_founded _) fun loaded _ org hentry => ?_
  refine .afterUses (Roles.assignable_yields quiet org _) fun named hnamed roleIds hroleIds => ?_
  refine .bind Action.now_bounded fun timed htimed now hnow => .ofUsesFrom ?_
  have hquiet := (pact policy).keepsFrom_quiet timed
  refine .andThen (.ask (hquiet _ rfl)) fun existing => ?_
  refine .andThen (Invitations.replaceExpired_uses now existing fun _ => keepsFrom_call nofun)
    fun _ => .andThen (.randomBytes (hquiet _ rfl)) fun bytes => ?_
  refine .andThen (Invitations.store_uses (keepsFrom_call ?_)) fun _ =>
    .andThen (.note (hquiet _ rfl)) fun _ => .pure trivial
  rintro _ ⟨⟩
  refine ⟨?_, org.identity, Register.entryOf_of_le (hnamed.trans htimed) hentry⟩
  exact
    { valid := (checkEmail_eq_ok_iff.1 hemail).2
      normal := normalize_of_checkEmail_eq_ok hemail
      tidy := fun roleId hmem => Text.isTidy_of_mem_distinctTrimmed (hroleIds ▸ hmem)
      distinct := hroleIds ▸ Text.nodup_distinctTrimmed _
      lifetime := ⟨_, policy.clampHours_mem draft.expiresInHours, rfl⟩
      fits := InvitationPolicy.add_lifetime_lt hnow hmax _ }

/-- Every operation under the policy upholds the pact. -/
theorem Operation.action_sound_invitations {deployment : Deployment}
    (deployed : deployment.invitations = policy) (hmax : policy.maxHours < 2 ^ 32)
    (operation : Operation) :
    (operation.action deployment).Upholds (pact policy) (fun _ _ => True) known := by
  subst deployed
  have hothers : (∀ invitation, ¬operation.MayWrite (.invitations (.create invitation))) →
      (operation.action deployment).Upholds (pact deployment.invitations) (fun _ _ => True)
        known := by
    intro hnone
    refine (operation.action_registers deployment).beside
      ((operation.action_uses deployment).weaken fun effect hmay => keepsBeside ?_)
    rintro invitation rfl
    exact hnone invitation (hmay rfl)
  cases operation with
  | createInvitation draft => exact Invitations.create_sound draft hmax
  | _ => exact hothers (by rintro _ ⟨⟩)

/-! ## The stored invitations -/

/-- Every invitation is sound, no two are for the same address of an organization, and the
organization of each exists. -/
structure Tables.HasSoundInvitations (policy : InvitationPolicy) (tables : Tables) : Prop where
  sound : ∀ invitation ∈ tables.invitations, invitation.IsSound policy
  addresses : tables.HasDistinctAddresses
  organizations : ∀ invitation ∈ tables.invitations,
    invitation.organizationId ∈ tables.organizations.map (·.id)

/-- Under one policy, whose upper bound fits a word of 32 bits, and while the clock fits a signed
word, invitations are sound in every reachable world. -/
theorem soundInvitations_of_reaches {regime : Regime} {world : World} {config : Configuration}
    (starts : regime.Starts world) (reaches : regime.Reaches world config)
    (deployed : ∀ deployment, regime.deploys deployment → deployment.invitations = policy)
    (hmax : policy.maxHours < 2 ^ 32)
    (hclock : ∀ world, regime.admits world → world.clock < 2 ^ 63) :
    config.world.tables.HasSoundInvitations policy := by
  have begins : (pact policy).holds .empty world :=
    ⟨Organization.Registers.empty starts.noRecords, Shelf.begins starts.noRecords⟩
  have admits : ∀ world, regime.admits world → (pact policy).admits world :=
    fun world hadmits => ⟨trivial, hclock world hadmits⟩
  obtain ⟨register, holds, -⟩ := reaches.upholds admits begins
    fun deployment operation _ hdeploys =>
      Operation.action_sound_invitations (deployed deployment hdeploys) hmax operation
  obtain ⟨registers, hfounded⟩ := holds
  refine ⟨fun invitation hmem => (hfounded invitation hmem).1,
    reaches.hasDistinctAddresses starts, fun invitation hmem => ?_⟩
  obtain ⟨-, identity, hentry⟩ := hfounded invitation hmem
  obtain ⟨org, horg, hid⟩ := Organization.Registers.stored registers _ _ hentry
  exact List.mem_map.2 ⟨org, horg, hid⟩

/-- Under a policy whose upper bound is below its lower one, an invitation that expires at once is
replaced by the next one for its address. -/
theorem soundInvitations_of_reaches_expired_at_once :
    ∃ config, (Regime.uniform { limits := .standard, invitations := ⟨5, 3, 0⟩ }).Reaches
        (World.blank []) config ∧
      config.world.tables.invitations.map (fun invitation =>
        (invitation.code, invitation.email, invitation.roleIds)) =
          [("AAAAAAAA", "u@example.com", ["aa"])] ∧
      config.world.tables.HasSoundInvitations ⟨5, 3, 0⟩ := by
  have starts : (Regime.uniform { limits := .standard, invitations := ⟨5, 3, 0⟩ }).Starts
      (World.blank []) := Regime.uniform_starts_blank _ (by simp)
  obtain ⟨config, reaches, hinvitations⟩ : ∃ config,
      (Regime.uniform { limits := .standard, invitations := ⟨5, 3, 0⟩ }).Reaches
        (World.blank []) config ∧
      config.world.tables.invitations.map (fun invitation =>
        (invitation.code, invitation.email, invitation.roleIds)) =
          [("AAAAAAAA", "u@example.com", ["aa"])] :=
    ⟨_, Regime.uniform_scheduled starts
      [.createOrganization
        { slug := "north", displayName := "North", tenantId := none, metadata := .empty },
       .createRole
        { name := "Member", description := none, isSystem := false, organizationId := some "a"
          tenantId := none },
       .createInvitation
        { organizationId := "a", email := "u@example.com", createdBy := "c", roleIds := []
          expiresInHours := none },
       .createInvitation
        { organizationId := "a", email := " U@Example.com", createdBy := "c"
          roleIds := ["aa", " ", " aa "], expiresInHours := some 7 }]
      (List.replicate 6 0 ++ List.replicate 6 1 ++ List.replicate 6 2 ++ List.replicate 9 3),
      by decide +kernel⟩
  exact ⟨config, reaches, hinvitations, soundInvitations_of_reaches starts reaches
    (fun _ hdeploys => congrArg Deployment.invitations hdeploys) (by decide)
    fun _ hadmits => hadmits.2⟩

end Tenancy
