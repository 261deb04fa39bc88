import Tenancy.Proofs.SoloRuns

/-!
# Tenancy - Runs that stop at a failed call

Many actions give up at the first call that fails.  If one of the calls of such an
action fails, the action ends right there, in the world in which it would have made the
call.  So what may be left of it is read off its undisturbed run.

Main definitions:

- `Action.callPoints`: the worlds in which an undisturbed run makes its store calls.
- `Action.GivesUp`: actions that end with the failure of the first call that fails.
- `Action.PassesThrough`: the tables that an undisturbed run passes through.
- `FaultPlan.failing`: the plan under which one call fails.

Main results:

- Theorem `Action.callPoints_bind`: two actions in sequence make the calls of both.
- Theorem `Action.GivesUp.runFaulty_failing`: where one call fails, the run ends in the
  world in which the call was made.
-/

namespace Tenancy

/-! ## Where calls are made -/

/-- The worlds in which an undisturbed run of a program makes its store calls, in their order. -/
def Program.callPoints {α : Type} : Program Effect Effect.Reply α → World → List World
  | .done _, _ => []
  | .ask (.store call) next, world =>
    world :: (next (world.callStore call).1).callPoints (world.callStore call).2
  | .ask effect next, world =>
    (next (World.perform effect world).1).callPoints (World.perform effect world).2

/-- Two programs in sequence make the calls of both. -/
theorem Program.callPoints_bind {α β : Type} (program : Program Effect Effect.Reply α)
    (next : α → Program Effect Effect.Reply β) (world : World) :
    (program.bind next).callPoints world =
      program.callPoints world ++
        (next (program.run World.perform world).1).callPoints
          (program.run World.perform world).2 := by
  induction program generalizing world with
  | done value => rfl
  | ask effect rest ih =>
      cases effect with
      | store call => exact congrArg (world :: ·) (ih _ _)
      | clock | freshId | randomBytes | note => exact ih _ _

namespace Action

variable {α β : Type} {world after : World}

/-- The worlds in which an undisturbed run of an action makes its store calls, in their order. -/
def callPoints (action : Action α) (world : World) : List World :=
  Program.callPoints action.run world

/-- After an action that succeeded, the calls of the next one are made; after one that failed, no
others. -/
theorem callPoints_bind (action : Action β) (next : β → Action α) (world : World) :
    (action >>= next).callPoints world =
      action.callPoints world ++
        match action.runIn world with
        | (.ok value, after) => (next value).callPoints after
        | (.error _, _) => [] := by
  refine (Program.callPoints_bind action.run _ world).trans (congrArg _ ?_)
  unfold runIn
  rcases action.run.run World.perform world with ⟨result, after⟩
  cases result <;> rfl

end Action

/-! ## Giving up -/

/-- A program ends with the failure of the first call that fails. -/
def Program.GivesUp {α : Type} : Program Effect Effect.Reply (Except Error α) → Prop
  | .done _ => True
  | .ask (.store _) next =>
    (∀ error, next (.error error) = .done (.error (.storage error))) ∧
      ∀ answer, (next (.ok answer)).GivesUp
  | .ask _ next => ∀ reply, (next reply).GivesUp

/-- An action ends with the failure of the first call that fails. -/
structure Action.GivesUp {α : Type} (action : Action α) : Prop where
  run : Program.GivesUp action.run

namespace Action.GivesUp

variable {α β : Type}

theorem pure (value : α) : (Pure.pure value : Action α).GivesUp where
  run := trivial

theorem throw (error : Error) : (MonadExcept.throw error : Action α).GivesUp where
  run := trivial

theorem bind {action : Action β} {next : β → Action α} (hgives : action.GivesUp)
    (hnext : ∀ value, (next value).GivesUp) : (action >>= next).GivesUp where
  run := by
    obtain ⟨hrun⟩ := hgives
    change (Program.bind action.run (ExceptT.bindCont next)).GivesUp
    generalize action.run = program at hrun
    induction program with
    | done result =>
        cases result with
        | ok value => exact (hnext value).run
        | error error => trivial
    | ask effect rest ih =>
        cases effect with
        | store call =>
            refine ⟨fun error => ?_, fun answer => ih _ (hrun.2 answer)⟩
            exact congrArg (Program.bind · (ExceptT.bindCont next)) (hrun.1 error)
        | clock | freshId | randomBytes | note => exact fun reply => ih reply (hrun reply)

theorem ask (call : Call) : (Action.ask call).GivesUp where
  run := ⟨fun _ => rfl, fun _ => trivial⟩

theorem now : Action.now.GivesUp where
  run _ := trivial

theorem note (note : AuditNote) : (Action.note note).GivesUp where
  run _ := trivial

theorem require (condition : Bool) (error : Error) : (Action.require condition error).GivesUp := by
  cases condition with
  | false => exact throw error
  | true => exact pure ()

theorem demand (error : Error) (found : Option α) : (Action.demand error found).GivesUp := by
  cases found with
  | none => exact throw error
  | some value => exact pure value

theorem check (result : Except Error α) : (Action.check result).GivesUp := by
  cases result with
  | error error => exact throw error
  | ok value => exact pure value

end Action.GivesUp

/-! ## One call that fails -/

/-- The plan under which the call with a number fails, and nothing else goes wrong. -/
def FaultPlan.failing (number : Nat) (error : StoreError) : FaultPlan :=
  fun made _ => if made = number then some (.fails error) else Option.none

/-- The call with the number of the plan fails. -/
theorem World.performFaulty_failing (call : Call) (error : StoreError) (world : World)
    (made : Nat) :
    World.performFaulty (.failing made error) (.store call) (world, made) =
      (.error error, world, made + 1) := by
  simp [World.performFaulty, FaultPlan.failing, Fault.reply?]

/-- The calls with other numbers reach the store. -/
theorem World.performFaulty_failing_other (call : Call) (error : StoreError) (world : World)
    {made number : Nat} (hother : made ≠ number) :
    World.performFaulty (.failing number error) (.store call) (world, made) =
      ((world.callStore call).1, (world.callStore call).2, made + 1) := by
  simp [World.performFaulty, FaultPlan.failing, hother]

/-- Where one call fails, a program that gives up ends in the world in which the call was made. -/
theorem Program.GivesUp.run_failing {α : Type}
    {program : Program Effect Effect.Reply (Except Error α)} (hgives : program.GivesUp)
    {world point : World} {n : Nat} (hpoint : (program.callPoints world)[n]? = some point)
    (error : StoreError) (made : Nat) :
    program.run (World.performFaulty (.failing (made + n) error)) (world, made) =
      (.error (.storage error), point, made + n + 1) := by
  induction program generalizing world made n with
  | done value => cases hpoint
  | ask effect rest ih =>
      cases effect with
      | clock | freshId | randomBytes | note => exact ih _ (hgives _) hpoint made
      | store call =>
          rw [Program.run_ask]
          cases n with
          | zero =>
              obtain rfl : world = point := Option.some.inj hpoint
              rw [Nat.add_zero, World.performFaulty_failing, hgives.1 error]
              rfl
          | succ n =>
              rw [World.performFaulty_failing_other call error world (by omega)]
              have hlater : ((rest (world.callStore call).1).callPoints
                  (world.callStore call).2)[n]? = some point := hpoint
              -- A call that the store itself refuses is the last one.
              cases hreply : (world.callStore call).1 with
              | error refusal =>
                  rw [hreply, hgives.1 refusal] at hlater
                  cases hlater
              | ok answer =>
                  rw [hreply] at hlater
                  have hrest := ih _ (hgives.2 answer) hlater (made + 1)
                  rwa [Nat.add_right_comm made 1 n] at hrest

/-- Where one call fails, an action that gives up ends in the world in which the call was made. -/
theorem Action.GivesUp.runFaulty_failing {α : Type} {action : Action α} (hgives : action.GivesUp)
    {world point : World} {n : Nat} (hpoint : (action.callPoints world)[n]? = some point)
    (error : StoreError) :
    action.runFaulty (.failing n error) world = (.error (.storage error), point) := by
  have hrun := hgives.run.run_failing hpoint error 0
  rw [Nat.zero_add] at hrun
  unfold Action.runFaulty
  rw [hrun]

/-! ## What undisturbed runs pass through -/

/-- A program without writes makes all its calls on the tables that it begins with. -/
theorem Program.Uses.tables_of_mem_callPoints {α : Type} {fine : α → Prop}
    {program : Program Effect Effect.Reply α}
    (huses : program.Uses (fun effect => effect.isWrite = false) fine) {world point : World}
    (hpoint : point ∈ program.callPoints world) : point.tables = world.tables := by
  induction program generalizing world with
  | done value => cases hpoint
  | ask effect rest ih =>
      cases effect with
      | clock => exact ih _ (huses.2 _) hpoint
      | freshId => exact @ih _ (huses.2 _) world.drawId.2 hpoint
      | randomBytes => exact @ih _ (huses.2 _) world.drawBytes.2 hpoint
      | note note => exact @ih _ (huses.2 _) (World.perform (.note note) world).2 hpoint
      | store call =>
          rcases List.mem_cons.1 hpoint with rfl | hlater
          · rfl
          · exact (ih _ (huses.2 _) hlater).trans (world.tables.perform_of_not_write huses.1)

/-- All tables on which an undisturbed run of an action makes its store calls are of one kind. -/
def Action.PassesThrough {α : Type} (kind : Tables → Prop) (world : World) (action : Action α) :
    Prop :=
  ∀ point ∈ action.callPoints world, kind point.tables

namespace Action.PassesThrough

variable {α β : Type} {kind : Tables → Prop} {world after : World}

theorem ask {call : Call} (hworld : kind world.tables) :
    (Action.ask call).PassesThrough kind world :=
  List.forall_mem_singleton.2 hworld

/-- An action that makes no store call. -/
theorem ofNone {action : Action α} (hnone : action.callPoints world = []) :
    action.PassesThrough kind world := by
  rw [PassesThrough, hnone]
  exact List.forall_mem_nil _

theorem require (condition : Bool) (error : Error) :
    (Action.require condition error).PassesThrough kind world := by
  cases condition <;> exact ofNone rfl

/-- The second action runs where the first one ended, if it succeeded. -/
theorem bind {action : Action β} {next : β → Action α} (hfirst : action.PassesThrough kind world)
    (hnext : ∀ value after, action.runIn world = (.ok value, after) →
      (next value).PassesThrough kind after) :
    (action >>= next).PassesThrough kind world := by
  rw [PassesThrough, callPoints_bind, List.forall_mem_append]
  refine ⟨hfirst, ?_⟩
  rcases hrun : action.runIn world with ⟨result, after⟩
  cases result with
  | ok value => exact hnext value after hrun
  | error error => exact List.forall_mem_nil _

/-- After a run that succeeded, the next action runs. -/
theorem afterRun {action : Action β} {next : β → Action α} {value : β}
    (hfirst : action.PassesThrough kind world) (hrun : action.runIn world = (.ok value, after))
    (hnext : (next value).PassesThrough kind after) :
    (action >>= next).PassesThrough kind world := by
  refine hfirst.bind fun other later hother => ?_
  rw [hrun] at hother
  cases hother
  exact hnext

/-- An action without writes stays with the tables that it begins with. -/
theorem ofUses {fine : α → Prop} {action : Action α}
    (huses : action.Uses (fun effect => effect.isWrite = false) fine) (hworld : kind world.tables) :
    action.PassesThrough kind world := by
  intro point hpoint
  rw [huses.run.tables_of_mem_callPoints hpoint]
  exact hworld

end Action.PassesThrough
end Tenancy
