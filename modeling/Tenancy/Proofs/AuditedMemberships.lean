import Tenancy.Proofs.NotesLast
import Tenancy.Proofs.OrderlyRuns

/-!
# Tenancy - The audit trail of memberships

With a working trail, an operation notes a membership as added or removed exactly when
it appears or disappears.  As updated it notes a membership that was there before in
two cases: its flag or roles are changed on request and differ afterwards, or an
invitation to it is accepted, whether or not anything changes.  What is not noted is
that a membership loses its primary flag because another one is made primary.  An
operation that fails notes nothing about memberships.

Main definitions:

- `World.Noted`: the trail took in an event about a membership.
- `World.Accounts`: what the notes about a membership say of an operation.

Main results:

- Theorem `World.noted_iff`: what is noted is how the roster moved.
- Theorem `membershipNotes_exact`: what every operation notes about memberships.
- Theorem `noted_without_difference`: accepting an invitation for nothing is noted as an
  update.
-/

namespace Tenancy

/-! ## What the trail takes in -/

/-- Between two worlds the trail took in an event about the membership of a user. -/
def World.Noted (before after : World) (event : AuditEvent) (organizationId userId : String) :
    Prop :=
  ∃ entry ∈ after.trail.entries.drop before.trail.entries.length,
    entry.note.event = event ∧ entry.note.organizationId = some organizationId ∧
      entry.note.targetId = some userId

/-- A trail only grows, whatever goes wrong. -/
theorem World.entries_prefix_performFaulty (plan : FaultPlan) (effect : Effect) (world : World)
    (made : Nat) :
    world.trail.entries <+:
      (World.performFaulty plan effect (world, made)).2.1.trail.entries := by
  cases effect with
  | note noted =>
      simp only [World.performFaulty, World.perform, Trail.entries_offer]
      exact List.prefix_append _ _
  | store call =>
      simp only [World.performFaulty]
      split <;> exact List.prefix_refl _
  | clock | freshId | randomBytes => exact List.prefix_refl _

/-- In a run, a trail only grows. -/
theorem Program.entries_prefix_run {α : Type} (program : Program Effect Effect.Reply α)
    (plan : FaultPlan) (world : World) (made : Nat) :
    world.trail.entries <+:
      (program.run (World.performFaulty plan) (world, made)).2.1.trail.entries := by
  induction program generalizing world made with
  | done value => exact List.prefix_refl _
  | ask effect rest ih =>
      exact (World.entries_prefix_performFaulty plan effect world made).trans (ih _ _ _)

/-- What a grown trail took in about memberships is what the roster has more. -/
theorem World.noted_iff_mem {before after : World} {added : List AuditNote}
    (hgrows : before.trail.entries <+: after.trail.entries)
    (hadded : after.roster.notes = before.roster.notes ++ added) {event : AuditEvent}
    (hevent : event.isMembership = true) (organizationId userId : String) :
    before.Noted after event organizationId userId ↔
      ∃ note ∈ added, note.event = event ∧ note.organizationId = some organizationId ∧
        note.targetId = some userId := by
  obtain ⟨rest, hrest⟩ := hgrows
  have hnotes : (rest.map (·.note)).filter (·.event.isMembership) = added := by
    simp only [World.roster, ← hrest, List.map_append, List.filter_append] at hadded
    exact List.append_cancel_left hadded
  rw [World.Noted, ← hrest, List.drop_left, ← hnotes]
  constructor
  · rintro ⟨entry, hmem, hsame, habout⟩
    refine ⟨entry.note, List.mem_filter.2 ⟨List.mem_map_of_mem hmem, ?_⟩, hsame, habout⟩
    rw [hsame, hevent]
  · rintro ⟨note, hmem, habout⟩
    obtain ⟨entry, hentry, rfl⟩ := List.mem_map.1 (List.mem_filter.1 hmem).1
    exact ⟨entry, hentry, habout⟩

/-- What is noted about memberships is how the roster moved. -/
theorem World.noted_iff {before after : World} {move : Option (AuditEvent × String × String)}
    (hgrows : before.trail.entries <+: after.trail.entries)
    (hmoves : before.roster.Moves after.roster move) {event : AuditEvent}
    (hevent : event.isMembership = true) (organizationId userId : String) :
    before.Noted after event organizationId userId ↔
      move = some (event, organizationId, userId) := by
  cases hmoves with
  | idle same =>
      have hadded : after.roster.notes = before.roster.notes ++ [] := by simp [same]
      rw [World.noted_iff_mem hgrows hadded hevent]
      simp
  | noted turn notes isEvent isIn isAbout =>
      rw [World.noted_iff_mem hgrows notes hevent]
      simp [isEvent, isIn, isAbout, Prod.ext_iff]

/-! ## What notes say of operations -/

/-- What the notes about the membership of a user say of an operation that succeeded. -/
structure World.Accounts (before : World) (operation : Operation) (after : World)
    (organizationId userId : String) : Prop where
  added : before.Noted after .memberAdded organizationId userId ↔
    before.roster.memberOf organizationId userId = none ∧
      (after.roster.memberOf organizationId userId).isSome = true
  removed : before.Noted after .memberRemoved organizationId userId ↔
    (before.roster.memberOf organizationId userId).isSome = true ∧
      after.roster.memberOf organizationId userId = none
  updated : before.Noted after .memberUpdated organizationId userId ↔
    ∃ member changed, before.roster.memberOf organizationId userId = some member ∧
      after.roster.memberOf organizationId userId = some changed ∧
      (before.AcceptsInto operation organizationId userId ∨
        (∃ patch, operation = .updateMember organizationId userId patch) ∧
          member.Differs changed)

/-- With a working trail, an operation that succeeds notes a membership as added or removed exactly
when it appears or disappears, and as updated exactly when it was there before and the operation
either changes its flag or roles on request or accepts an invitation to it.  An operation that fails
notes nothing about any membership.  This holds wherever calls may fail. -/
theorem membershipNotes_exact {world after : World} (working : world.trail.IsWorking)
    (deployment : Deployment) (operation : Operation) {plan : FaultPlan} (fails : plan.OnlyFails) :
    (∀ answer, operation.runFaulty deployment plan world = (.ok answer, after) →
      ∀ organizationId userId, world.Accounts operation after organizationId userId) ∧
    (∀ error, operation.runFaulty deployment plan world = (.error error, after) →
      ∀ event organizationId userId, event.isMembership = true →
        ¬world.Noted after event organizationId userId) := by
  have hgrows : ∀ result, operation.runFaulty deployment plan world = (result, after) →
      world.trail.entries <+: after.trail.entries := by
    intro result hrun
    obtain ⟨-, rfl⟩ := Prod.mk.inj hrun
    exact (operation.action deployment).run.entries_prefix_run plan world 0
  constructor
  · intro answer hrun organizationId userId
    obtain ⟨move, hmoves, hupdated⟩ := operation.moves_of_ok working deployment fails hrun
    have hnone : ∀ roster : Roster, roster.memberOf organizationId userId = none ↔
        (organizationId, userId) ∉ roster.keys := by
      intro roster
      rw [← Roster.isSome_memberOf_iff, Option.not_isSome_iff_eq_none]
    constructor
    · rw [World.noted_iff (hgrows _ hrun) hmoves rfl, hmoves.added_iff, hnone,
        Roster.isSome_memberOf_iff]
    · rw [World.noted_iff (hgrows _ hrun) hmoves rfl, hmoves.removed_iff, hnone,
        Roster.isSome_memberOf_iff]
    · rw [World.noted_iff (hgrows _ hrun) hmoves rfl]
      exact hupdated organizationId userId
  · intro error hrun event organizationId userId hevent
    have hsame := operation.notes_of_error deployment plan hrun
    have hadded : after.roster.notes = world.roster.notes ++ [] := by simp [hsame]
    rw [World.noted_iff_mem (hgrows _ hrun) hadded hevent]
    simp

/-! ## Audited runs -/

/-- A world without records, with a trail that takes in every note. -/
def World.audited : World :=
  { World.blank [] with trail := .working }

/-- Runs in orderly worlds may begin with a working trail. -/
theorem Regime.orderly_starts_audited : Regime.orderly.Starts World.audited where
  noRecords := ⟨rfl, rfl, rfl, rfl, rfl⟩
  admitted :=
    have blank := (Regime.orderly_starts_blank (by simp)).admitted
    { ids := blank.ids, codes := blank.codes, catalog := blank.catalog }

/-- A user is added to an organization, and that is noted. -/
theorem membershipNotes_exact_added :
    ∃ (config : Configuration) (draft : Membership.Draft) (after : World),
      Regime.orderly.Reaches World.audited config ∧ config.world.trail.IsWorking ∧
      (Operation.runFaulty default (.addMember draft) .none config.world).2 = after ∧
      config.world.Noted after .memberAdded "a" "u" := by
  obtain ⟨config, reaches, hworld⟩ :=
    Regime.orderly_operations Regime.orderly_starts_audited default
      [.createOrganization
        { slug := "north", displayName := "North", tenantId := none, metadata := .empty }]
  have working : config.world.trail.IsWorking := by
    rw [hworld]
    exact ⟨by decide +kernel, fun _ => rfl⟩
  obtain ⟨draft, hok, hbefore, hafter⟩ :
      ∃ draft : Membership.Draft,
        (Operation.runFaulty default (.addMember draft) .none config.world).1.isOk = true ∧
        config.world.roster.memberOf "a" "u" = none ∧
        ((Operation.runFaulty default (.addMember draft) .none config.world).2.roster.memberOf
          "a" "u").isSome = true := by
    rw [hworld]
    exact ⟨{ organizationId := "a", userId := "u", isPrimary := false, roleIds := []
             tenantId := none },
      by decide +kernel, by decide +kernel, by decide +kernel⟩
  rcases hrun : Operation.runFaulty default (.addMember draft) .none config.world with
    ⟨result, after⟩
  rw [hrun] at hok hafter
  cases result with
  | error error => cases hok
  | ok answer =>
      have haccounts := (membershipNotes_exact working default (.addMember draft)
        FaultPlan.onlyFails_none).1 answer hrun "a" "u"
      exact ⟨config, draft, after, reaches, working, by rw [hrun],
        haccounts.added.2 ⟨hbefore, hafter⟩⟩

/-- A member accepts an invitation without roles.  This is noted as an update of the membership,
which is what it was. -/
theorem noted_without_difference :
    ∃ (config : Configuration) (user : User) (after : World) (member : Membership),
      Regime.orderly.Reaches World.audited config ∧ config.world.trail.IsWorking ∧
      Operation.runFaulty default (.acceptInvitation "AAAA" user) .none config.world =
        (.ok { organizationId := "a", organizationSlug := "north", membership := member
               wasMember := true, userPredatesInvitation := false }, after) ∧
      config.world.Noted after .memberUpdated "a" "u" ∧
      config.world.roster.memberOf "a" "u" = some member ∧
      after.roster.memberOf "a" "u" = some member := by
  obtain ⟨config, reaches, hworld⟩ :=
    Regime.orderly_operations Regime.orderly_starts_audited default
      [.createOrganization
        { slug := "north", displayName := "North", tenantId := none, metadata := .empty },
       .addMember
        { organizationId := "a", userId := "u", isPrimary := false, roleIds := []
          tenantId := none },
       .createInvitation
        { organizationId := "a", email := "u@example.com", createdBy := "c", roleIds := []
          expiresInHours := none }]
  obtain ⟨user, member, working, hanswer, hnoted, hbefore, hafter⟩ :
      ∃ (user : User) (member : Membership), config.world.trail.IsWorking ∧
        (Operation.runFaulty default (.acceptInvitation "AAAA" user) .none config.world).1 =
          .ok { organizationId := "a", organizationSlug := "north", membership := member
                wasMember := true, userPredatesInvitation := false } ∧
        config.world.Noted
          (Operation.runFaulty default (.acceptInvitation "AAAA" user) .none config.world).2
          .memberUpdated "a" "u" ∧
        config.world.roster.memberOf "a" "u" = some member ∧
        (Operation.runFaulty default (.acceptInvitation "AAAA" user) .none
          config.world).2.roster.memberOf "a" "u" = some member := by
    rw [hworld]
    refine ⟨{ id := "u", email := "u@example.com", displayName := none, createdAt := 0 },
      { organizationId := "a", userId := "u", tenantId := none, isPrimary := false, roles := []
        createdAt := 0, updatedAt := 0 },
      ⟨by decide +kernel, fun _ => rfl⟩, by decide +kernel, ?_, by decide +kernel,
      by decide +kernel⟩
    unfold World.Noted
    decide +kernel
  exact ⟨config, user, _, member, reaches, working, Prod.ext hanswer rfl, hnoted, hbefore, hafter⟩

end Tenancy
