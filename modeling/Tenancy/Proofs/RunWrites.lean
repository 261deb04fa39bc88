import Tenancy.Proofs.SoloRuns

/-!
# Tenancy - The writes of a run

Whether an operation writes, and how often, depends on what it reads.  This file
follows a run request by request and keeps the writes that it asks for beside the
world that it ends in.

Main definitions:

- `Program.writesIn`, `Action.writesIn`: the writes that a run asks for.
- `Action.Ends`: what a run ends with, where, and after which writes.

Main results:

- Theorem `Program.writesIn_bind`: two programs in sequence ask for the writes of both.
- Theorem `Action.Ends.bind`, `Action.Ends.ofUses`, `Action.Ends.write`: evaluating
  runs with their writes.
-/

namespace Tenancy

/-! ## Writes of programs -/

/-- The writes that a run of a program asks for, in order. -/
def Program.writesIn {α : Type} : Program Effect Effect.Reply α → World → List Effect
  | .done _, _ => []
  | .ask effect next, world =>
    let (reply, after) := World.perform effect world
    (if effect.isWrite then [effect] else []) ++ (next reply).writesIn after

/-- Two programs in sequence ask for the writes of both. -/
theorem Program.writesIn_bind {α β : Type} (program : Program Effect Effect.Reply α)
    (next : α → Program Effect Effect.Reply β) (world : World) :
    (program.bind next).writesIn world = program.writesIn world ++
      (next (program.run World.perform world).1).writesIn (program.run World.perform world).2 := by
  induction program generalizing world with
  | done value => rfl
  | ask effect rest ih =>
      refine (congrArg (_ ++ ·) (ih _ _)).trans ?_
      exact (List.append_assoc _ _ _).symm

/-- A program that makes no write requests asks for no writes. -/
theorem Program.Uses.writesIn {α : Type} {wanted : α → Prop}
    {program : Program Effect Effect.Reply α}
    (huses : program.Uses (fun effect => effect.isWrite = false) wanted) (world : World) :
    program.writesIn world = [] := by
  induction program generalizing world with
  | done value => rfl
  | ask effect rest ih =>
      have hnone : (if effect.isWrite then [effect] else []) = [] := by rw [huses.1]; rfl
      refine (congrArg (_ ++ ·) (ih _ (huses.2 _) _)).trans ?_
      exact (List.append_nil _).trans hnone

namespace Action

variable {α β : Type}

/-- The writes that a run of an action asks for, in order. -/
def writesIn (action : Action α) (world : World) : List Effect :=
  action.run.writesIn world

/-- A run from a world ends with a result in another world, and asks for writes on the way. -/
structure Ends (action : Action α) (world : World) (result : Except Error α) (after : World)
    (writes : List Effect) : Prop where
  run : action.runIn world = (result, after)
  writes : action.writesIn world = writes

namespace Ends

variable {world middle after : World} {result : Except Error α} {first rest : List Effect}

theorem pure (value : α) (world : World) :
    (Pure.pure value : Action α).Ends world (.ok value) world [] where
  run := rfl
  writes := rfl

/-- After an action that succeeded, the next one runs. -/
theorem bind {action : Action β} {next : β → Action α} {value : β}
    (hfirst : action.Ends world (.ok value) middle first)
    (hnext : (next value).Ends middle result after rest) :
    (action >>= next).Ends world result after (first ++ rest) where
  run := (runIn_bind_ok hfirst.run next).trans hnext.run
  writes := by
    have hrun : action.run.run World.perform world = (.ok value, middle) := hfirst.run
    refine (Program.writesIn_bind action.run _ world).trans ?_
    rw [hrun]
    exact congrArg₂ (· ++ ·) hfirst.writes hnext.writes

/-- After an action that failed, nothing else runs. -/
theorem bind_error {action : Action β} (next : β → Action α) {error : Error}
    (hfirst : action.Ends world (.error error) middle first) :
    (action >>= next).Ends world (.error error) middle first where
  run := by rw [runIn_bind, hfirst.run]
  writes := by
    have hrun : action.run.run World.perform world = (.error error, middle) := hfirst.run
    refine (Program.writesIn_bind action.run _ world).trans ?_
    rw [hrun]
    exact (List.append_nil _).trans hfirst.writes

/-- An action that makes no write requests asks for no writes. -/
theorem ofUses {fine : α → Prop} {action : Action α}
    (huses : action.Uses (fun effect => effect.isWrite = false) fine)
    (hrun : action.runIn world = (result, after)) : action.Ends world result after [] where
  run := hrun
  writes := huses.run.writesIn world

/-- A write asks for itself. -/
theorem write {call : Call} (hwrite : call.isWrite = true) (world : World) :
    (Action.ask call).Ends world ((world.tables.perform call).1.mapError .storage)
      { world with tables := (world.tables.perform call).2 } [.store call] where
  run := runIn_ask call world
  writes := by
    have hasked : (if (Effect.store call).isWrite then [Effect.store call] else []) =
        [.store call] := if_pos hwrite
    exact (List.append_nil _).trans hasked

end Ends
end Action
end Tenancy
