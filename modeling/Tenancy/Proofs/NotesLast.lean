import Tenancy.Proofs.AcceptanceRetries
import Tenancy.Proofs.MembershipTurns

/-!
# Tenancy - Notes about memberships come last

An operation that notes something about a membership has nothing left that could fail.
So whatever calls go wrong, an operation that fails has noted nothing about memberships.
And an operation that may write memberships gives up at the first call that fails, so if
it succeeds, none has failed.

Main definitions:

- `Action.NotesLast`: after a note about a membership, an action succeeds.
- `FaultPlan.OnlyFails`: the plans under which calls go wrong only by failing.

Main results:

- Theorem `Program.GivesUp.run_of_ok`: an action that gives up succeeds only where no
  call fails.
- Theorem `Operation.notes_of_error`: an operation that fails notes nothing about
  memberships.
- Theorem `Operation.moves_of_ok`: an operation that succeeds moves the roster as it
  should.
-/

namespace Tenancy

/-! ## Rosters where calls go wrong -/

/-- Whether a request is a note about a membership. -/
def Effect.notesMembership : Effect → Bool
  | .note noted => noted.event.isMembership
  | _ => false

/-- Plain requests are no such notes. -/
theorem Effect.plain_notes (effect : Effect) (hplain : effect.isPlain = true) :
    effect.notesMembership = false := by
  cases effect with
  | note noted => simpa [isPlain, notesMembership] using hplain
  | store | clock | freshId | randomBytes => rfl

/-- Whatever goes wrong, only notes about memberships add to these notes. -/
theorem World.notes_performFaulty (plan : FaultPlan) {effect : Effect}
    (hother : effect.notesMembership = false) (world : World) (made : Nat) :
    (World.performFaulty plan effect (world, made)).2.1.roster.notes = world.roster.notes := by
  cases effect with
  | store call =>
      simp only [World.performFaulty]
      split <;> rfl
  | note noted => exact congrArg Roster.notes (Effect.SparesRoster.note hother world)
  | clock | freshId | randomBytes => rfl

/-- Requests that spare the roster do so where calls go wrong. -/
theorem Effect.SparesRoster.performFaulty {effect : Effect} (spares : effect.SparesRoster)
    (plan : FaultPlan) (world : World) (made : Nat) :
    (World.performFaulty plan effect (world, made)).2.1.roster = world.roster := by
  cases effect with
  | store call =>
      simp only [World.performFaulty]
      split
      · rfl
      · exact spares world
  | clock | freshId | randomBytes | note => exact spares world

/-- A program whose requests spare the roster does so where calls go wrong. -/
theorem Program.Uses.runFaulty_roster {α : Type} {wanted : α → Prop}
    {program : Program Effect Effect.Reply α} (huses : program.Uses Effect.SparesRoster wanted)
    (plan : FaultPlan) (world : World) (made : Nat) :
    (program.run (World.performFaulty plan) (world, made)).2.1.roster = world.roster := by
  induction program generalizing world made with
  | done value => rfl
  | ask effect rest ih =>
      exact (ih _ (huses.2 _) _ _).trans (huses.1.performFaulty plan world made)

/-- Whatever it is replied, a program ends with a value as wanted. -/
theorem Program.Uses.wanted_of_runFaulty {α : Type} {allowed : Effect → Prop} {wanted : α → Prop}
    {program : Program Effect Effect.Reply α} (huses : program.Uses allowed wanted)
    (plan : FaultPlan) (state : World × Nat) :
    wanted (program.run (World.performFaulty plan) state).1 := by
  induction program generalizing state with
  | done value => exact huses
  | ask effect rest ih => exact ih _ (huses.2 _) _

/-! ## Actions that note last -/

/-- Once a program has noted something about a membership, it succeeds, whatever it is replied. -/
def Program.NotesLast {α : Type} : Program Effect Effect.Reply (Except Error α) → Prop
  | .done _ => True
  | .ask effect next =>
    (effect.notesMembership = true →
      ∀ reply, (next reply).Uses (fun _ => True) (·.isOk = true)) ∧
      ∀ reply, (next reply).NotesLast

/-- A run of such a program that fails has noted nothing about memberships. -/
theorem Program.NotesLast.notes_of_error {α : Type}
    {program : Program Effect Effect.Reply (Except Error α)} (hlast : program.NotesLast)
    {plan : FaultPlan} {world : World} {made : Nat} {error : Error}
    (herror : (program.run (World.performFaulty plan) (world, made)).1 = .error error) :
    (program.run (World.performFaulty plan) (world, made)).2.1.roster.notes =
      world.roster.notes := by
  induction program generalizing world made with
  | done value => rfl
  | ask effect rest ih =>
      by_cases hnote : effect.notesMembership = true
      · rw [Program.run_ask] at herror
        have hok := (hlast.1 hnote (World.performFaulty plan effect (world, made)).1)
          |>.wanted_of_runFaulty plan (World.performFaulty plan effect (world, made)).2
        rw [herror] at hok
        cases hok
      · have hstep := World.notes_performFaulty plan (by simpa using hnote) world made
        exact (ih _ (hlast.2 _) herror).trans hstep

/-- Once an action has noted something about a membership, it succeeds. -/
structure Action.NotesLast {α : Type} (action : Action α) : Prop where
  run : action.run.NotesLast

namespace Action.NotesLast

variable {α β : Type}

theorem pure (value : α) : (Pure.pure value : Action α).NotesLast where
  run := trivial

theorem throw (error : Error) : (MonadExcept.throw error : Action α).NotesLast where
  run := trivial

/-- A note before an action ends. -/
theorem note (note : AuditNote) (value : α) :
    (Action.note note >>= fun _ => Pure.pure value).NotesLast where
  run := ⟨fun _ _ => rfl, fun _ => trivial⟩

/-- A note that an action ends with. -/
theorem lastNote (note : AuditNote) : (Action.note note).NotesLast where
  run := ⟨fun _ _ => rfl, fun _ => trivial⟩

/-- An action without notes about memberships comes before one that notes last. -/
theorem afterUses {middle : β → Prop} {action : Action β} {next : β → Action α}
    (huses : action.Uses (fun effect => effect.notesMembership = false) middle)
    (hnext : ∀ value, (next value).NotesLast) : (action >>= next).NotesLast where
  run := by
    obtain ⟨hrun⟩ := huses
    change (Program.bind action.run (ExceptT.bindCont next)).NotesLast
    generalize action.run = program at hrun
    induction program with
    | done result =>
        cases result with
        | ok value => exact (hnext value).run
        | error error => trivial
    | ask effect rest ih =>
        refine ⟨fun hnote => ?_, fun reply => ih reply (hrun.2 reply)⟩
        rw [hrun.1] at hnote
        cases hnote

end Action.NotesLast

namespace Members

theorem add_notesLast (draft : Membership.Draft) : (add draft).NotesLast := by
  have insert : ∀ member : Membership,
      (Action.ask (.memberships (.insert member member.isPrimary))).Uses
        (fun effect => effect.notesMembership = false) fun _ => True := fun _ => .ask rfl
  refine .afterUses (.check _) fun _ =>
    .afterUses (Action.loadOrganization_uses Effect.plain_notes _) fun org =>
    .afterUses (.check _) fun _ => .afterUses (.ask rfl) fun existing =>
    .afterUses (.require _ _) fun _ => ?_
  exact .afterUses (Roles.assignable_uses Effect.plain_notes org _) fun roleIds =>
    .afterUses (.now rfl) fun now => .afterUses (insert _) fun _ => .note _ _

theorem update_notesLast (organizationId userId : String) (patch : Membership.Patch) :
    (update organizationId userId patch).NotesLast := by
  refine .afterUses (.ask rfl) fun found => .afterUses (.demand _ _) fun member =>
    .afterUses (.now rfl) fun now =>
    .afterUses (withRoles_uses Effect.plain_notes _ _ _ _ _) fun change => ?_
  split
  · exact .pure _
  · exact .afterUses (.ask rfl) fun updated => .note _ _

theorem remove_notesLast (organizationId userId : String) :
    (remove organizationId userId).NotesLast := by
  refine .afterUses (.ask rfl) fun deleted => ?_
  split
  · exact .lastNote _
  · exact .pure _

end Members

theorem Invitations.accept_notesLast (code : String) (user : User) :
    (accept code user).NotesLast := by
  have hends : ∀ error, (endWith code error : Action Acceptance).NotesLast :=
    fun error => .afterUses (.ask rfl) fun _ => .throw error
  refine .afterUses (.ask rfl) fun found => .afterUses (.demand _ _) fun invitation =>
    .afterUses (.require _ _) fun _ => .afterUses (.now rfl) fun now => ?_
  split
  · exact hends _
  · refine .afterUses (.ask rfl) fun org => ?_
    cases org with
    | none => exact hends _
    | some org =>
        refine .afterUses (Roles.stillAssignable_uses Effect.plain_notes org _) fun roleIds =>
          .afterUses (.ask rfl) fun existing => ?_
        have hjoin : (join org user.id roleIds now existing).Uses
            (fun effect => effect.notesMembership = false) fun _ => True :=
          join_uses org user.id roleIds now existing (fun _ _ _ => rfl) fun _ _ _ => rfl
        exact .afterUses hjoin fun member => .afterUses (.ask rfl) fun _ =>
          .afterUses (.note rfl) fun _ => .note _ _

/-- An operation that fails notes nothing about memberships, whatever calls go wrong. -/
theorem Operation.notes_of_error (deployment : Deployment) (operation : Operation)
    (plan : FaultPlan) {world after : World} {error : Error}
    (hrun : operation.runFaulty deployment plan world = (.error error, after)) :
    after.roster.notes = world.roster.notes := by
  obtain ⟨herror, rfl⟩ := Prod.mk.inj hrun
  cases hother : operation.concernsMembers with
  | false =>
      have hsame := (operation.spares hother deployment).run.runFaulty_roster plan world 0
      exact congrArg Roster.notes hsame
  | true =>
      have hlast : (operation.action deployment).NotesLast := by
        cases operation with
        | addMember draft => exact Members.add_notesLast draft
        | updateMember organizationId userId patch => exact Members.update_notesLast _ _ patch
        | removeMember organizationId userId => exact Members.remove_notesLast _ _
        | acceptInvitation code user => exact Invitations.accept_notesLast code user
        | _ => cases hother
      exact hlast.run.notes_of_error herror

/-! ## Actions that give up -/

/-- Under a plan, calls go wrong only by failing. -/
def FaultPlan.OnlyFails (plan : FaultPlan) : Prop :=
  ∀ made call fault, plan made call = some fault → ∃ error, fault = .fails error

/-- Nothing goes wrong where no call does. -/
theorem FaultPlan.onlyFails_none : FaultPlan.none.OnlyFails := by
  rintro made call fault ⟨⟩

/-- A program that gives up succeeds only where no call fails, so it runs as if none could. -/
theorem Program.GivesUp.run_of_ok {α : Type}
    {program : Program Effect Effect.Reply (Except Error α)} (hgives : program.GivesUp)
    {plan : FaultPlan} (fails : plan.OnlyFails) {world : World} {made : Nat} {value : α}
    (hvalue : (program.run (World.performFaulty plan) (world, made)).1 = .ok value) :
    program.run World.perform world =
      (.ok value, (program.run (World.performFaulty plan) (world, made)).2.1) := by
  induction program generalizing world made with
  | done result => exact Prod.ext hvalue rfl
  | ask effect rest ih =>
      cases effect with
      | clock | freshId | randomBytes | note => exact ih _ (hgives _) hvalue
      | store call =>
          rw [Program.run_ask] at hvalue ⊢
          rw [Program.run_ask]
          cases hstruck : plan made call with
          | some fault =>
              obtain ⟨error, rfl⟩ := fails made call fault hstruck
              have hfailed : World.performFaulty plan (.store call) (world, made) =
                  (.error error, world, made + 1) := by
                simp [World.performFaulty, hstruck, Fault.reply?]
              rw [hfailed, hgives.1 error] at hvalue
              cases hvalue
          | none =>
              have hspared : World.performFaulty plan (.store call) (world, made) =
                  ((world.callStore call).1, (world.callStore call).2, made + 1) := by
                simp [World.performFaulty, hstruck]
              rw [hspared] at hvalue ⊢
              change (rest (world.callStore call).1).run World.perform (world.callStore call).2 = _
              cases hreply : (world.callStore call).1 with
              | error refusal =>
                  rw [hreply, hgives.1 refusal] at hvalue
                  cases hvalue
              | ok answer =>
                  rw [hreply] at hvalue
                  exact ih _ (hgives.2 answer) hvalue

theorem Action.loadOrganization_givesUp (id : String) : (Action.loadOrganization id).GivesUp :=
  .bind (.ask _) fun _ => .demand _ _

theorem Roles.assignable_givesUp (org : Organization) (requested : List String) :
    (Roles.assignable org requested).GivesUp := by
  unfold Roles.assignable
  dsimp only
  split
  · exact .pure _
  · exact .bind (.ask _) fun _ => .bind (.check _) fun _ => .pure _

namespace Members

theorem add_givesUp (draft : Membership.Draft) : (add draft).GivesUp := by
  refine .bind (.check _) fun _ => .bind (Action.loadOrganization_givesUp _) fun org =>
    .bind (.check _) fun _ => .bind (.ask _) fun existing => .bind (.require _ _) fun _ => ?_
  exact .bind (Roles.assignable_givesUp org _) fun roleIds => .bind .now fun now =>
    .bind (.ask _) fun _ => .bind (.note _) fun _ => .pure _

theorem update_givesUp (organizationId userId : String) (patch : Membership.Patch) :
    (update organizationId userId patch).GivesUp := by
  refine .bind (.ask _) fun found => .bind (.demand _ _) fun member => .bind .now fun now =>
    .bind ?_ fun change => ?_
  · unfold withRoles
    split
    · exact .pure _
    · exact .bind (Action.loadOrganization_givesUp _) fun org =>
        .bind (Roles.assignable_givesUp org _) fun _ => .pure _
  · split
    · exact .pure _
    · exact .bind (.ask _) fun updated => .bind (.note _) fun _ => .pure _

theorem remove_givesUp (organizationId userId : String) :
    (remove organizationId userId).GivesUp := by
  refine .bind (.ask _) fun deleted => ?_
  split
  · exact .note _
  · exact .pure _

end Members

/-- An operation that succeeds moves the roster as it should, even where calls may fail. -/
theorem Operation.moves_of_ok {world after : World} (working : world.trail.IsWorking)
    (deployment : Deployment) (operation : Operation) {plan : FaultPlan} (fails : plan.OnlyFails)
    {answer : operation.Answer}
    (hrun : operation.runFaulty deployment plan world = (.ok answer, after)) :
    ∃ move, world.MovesBy operation world.roster after.roster move := by
  obtain ⟨hvalue, rfl⟩ := Prod.mk.inj hrun
  cases hother : operation.concernsMembers with
  | false =>
      have hsame := (operation.spares hother deployment).run.runFaulty_roster plan world 0
      exact World.MovesBy.of_other hother world hsame
  | true =>
      have hgives : (operation.action deployment).GivesUp := by
        cases operation with
        | addMember draft => exact Members.add_givesUp draft
        | updateMember organizationId userId patch => exact Members.update_givesUp _ _ patch
        | removeMember organizationId userId => exact Members.remove_givesUp _ _
        | acceptInvitation code user => exact Invitations.accept_givesUp code user
        | _ => cases hother
      have hundisturbed := hgives.run.run_of_ok fails hvalue
      have hturns := (operation.alters working deployment).ended answer
        (congrArg Prod.fst hundisturbed)
      rwa [Action.runIn, hundisturbed] at hturns

end Tenancy
