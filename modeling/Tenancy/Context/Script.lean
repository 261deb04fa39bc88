import Tenancy.Context.Flow

/-!
# Tenancy - Scripts over the ambient organization

A script is a program that begins and ends scopes, opens flows and looks at the
context it sees.  Running one yields, step by step, what was seen.

Main definitions:

- `Script.Step`: the steps, some with a body of further steps.
- `Script.Observation`: what is seen after a step.
- `Script.run`: the observations of a script.
-/

namespace Tenancy
namespace Script

/-- One step of a script; guards are kept under names. -/
inductive Step
  | begin (guard : String) (context : Context)
  | drop (guard : String)
  /-- A scope that lasts for its body. -/
  | scoped (context : Context) (body : List Step)
  /-- A new flow without frames. -/
  | run (body : List Step)
  /-- A new flow with the frames of the present one and one more. -/
  | within (context : Context) (body : List Step)
  /-- The body in a task of its own, outside every flow. -/
  | spawn (body : List Step)
  | yield
  | current
  /-- Look at the guard that does nothing. -/
  | inert
deriving Inhabited

/-- What is seen after a step. -/
inductive Observation
  | seen (active found : Option Bool) (inner : Option (List Observation)) (current : Context)
      (depth : Nat)
deriving Inhabited

/-- What a script reads and changes: the flow it is in, and the guards by name. -/
structure State where
  surroundings : Surroundings
  guards : List (String × Guard)
deriving Inhabited

namespace State

/-- The state outside every flow, without guards. -/
def initial : State :=
  { surroundings := none, guards := [] }

/-- The state with a guard taken out. -/
def withoutGuard (state : State) (name : String) : State :=
  { state with guards := state.guards.filter (·.1 != name) }

/-- Keep a guard; a guard that had the name is dropped after the new frame was pushed. -/
def keepGuard (state : State) (name : String) (guard : Guard) : State :=
  let replaced := (state.guards.lookup name).getD .inert
  { surroundings := state.surroundings.drop replaced
    guards := (name, guard) :: (state.withoutGuard name).guards }

end State

/-- What is seen in a state. -/
def observe (accessor : Accessor) (state : State) (active found : Option Bool)
    (inner : Option (List Observation)) : Observation :=
  .seen active found inner (accessor.current state.surroundings) state.surroundings.depth

mutual

/-- Run one step. -/
def runStep (accessor : Accessor) (state : State) : Step → State × Observation
  | .begin name context =>
    let (surroundings, guard) := accessor.begin state.surroundings context
    let after := { state with surroundings := surroundings }.keepGuard name guard
    (after, observe accessor after (some guard.isActive) none none)
  | .drop name =>
    match state.guards.lookup name with
    | some guard =>
      let after := { state with surroundings := state.surroundings.drop guard }.withoutGuard name
      (after, observe accessor after none (some true) none)
    | none => (state, observe accessor state none (some false) none)
  | .scoped context body =>
    let (surroundings, guard) := accessor.begin state.surroundings context
    let (after, inner) := runSteps accessor { state with surroundings := surroundings } body
    let after := { after with surroundings := after.surroundings.drop guard }
    (after, observe accessor after (some guard.isActive) none (some inner))
  | .run body =>
    let (after, inner) := runSteps accessor { state with surroundings := some [] } body
    let after := { after with surroundings := state.surroundings }
    (after, observe accessor after none none (some inner))
  | .within context body =>
    let flow := state.surroundings.extended context
    let (after, inner) := runSteps accessor { state with surroundings := some flow } body
    let after := { after with surroundings := state.surroundings }
    (after, observe accessor after none none (some inner))
  | .spawn body =>
    let (after, inner) := runSteps accessor { state with surroundings := none } body
    let after := { after with surroundings := state.surroundings }
    (after, observe accessor after none none (some inner))
  | .yield => (state, observe accessor state none none none)
  | .current => (state, observe accessor state none none none)
  | .inert => (state, observe accessor state (some Guard.inert.isActive) none none)

/-- Run steps one after the other. -/
def runSteps (accessor : Accessor) (state : State) : List Step → State × List Observation
  | [] => (state, [])
  | step :: rest =>
    let (state, first) := runStep accessor state step
    let (state, others) := runSteps accessor state rest
    (state, first :: others)

end

/-- What is seen after each step of a script that starts outside every flow. -/
def run (accessor : Accessor) (steps : List Step) : List Observation :=
  (runSteps accessor .initial steps).2

end Script
end Tenancy
