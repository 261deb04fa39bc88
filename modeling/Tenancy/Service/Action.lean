import Tenancy.Store.World

/-!
# Tenancy - Actions

An action is a program over the world's requests that may fail with an `Error`.
It knows nothing of the world it runs in.

Main definitions:

- `Action`: programs that may fail.
- `Action.ask`, `Action.attempt`: store calls, with and without giving up on failure.
- `Action.require`, `Action.demand`, `Action.check`: giving up with a reason.
- `Action.runIn`: a run in a world.
-/

namespace Tenancy

/-- A program over the world's requests that may fail. -/
abbrev Action := ExceptT Error (Program Effect Effect.Reply)

namespace Action

/-- Make a request that cannot fail. -/
def perform (effect : Effect) : Action effect.Reply :=
  ExceptT.lift (Program.request effect)

/-- Call the store and return what it says, failure or answer. -/
def attempt (call : Call) : Action (Except StoreError call.Answer) :=
  perform (.store call)

/-- Call the store; its failure is the action's. -/
def ask (call : Call) : Action call.Answer :=
  ExceptT.mk (Program.ask (.store call) fun reply => .done (reply.mapError .storage))

/-- Read the clock. -/
def now : Action Nat :=
  perform .clock

/-- Draw a fresh id. -/
def freshId : Action String :=
  perform .freshId

/-- Draw random bytes. -/
def randomBytes : Action (List UInt8) :=
  perform .randomBytes

/-- Leave an audit note. -/
def note (note : AuditNote) : Action Unit :=
  perform (.note note)

/-- Fail unless a condition holds. -/
def require (condition : Bool) (error : Error) : Action Unit :=
  if condition then pure () else throw error

/-- Fail unless there is a value. -/
def demand {α : Type} (error : Error) : Option α → Action α
  | some value => pure value
  | none => throw error

/-- Fail with the error of a check. -/
def check {α : Type} : Except Error α → Action α
  | .ok value => pure value
  | .error error => throw error

/-- Run an action in a world where nothing goes wrong. -/
def runIn {α : Type} (action : Action α) (world : World) : Except Error α × World :=
  Program.run World.perform action.run world

/-- Run an action in a world where store calls go wrong as planned. -/
def runFaulty {α : Type} (action : Action α) (plan : FaultPlan) (world : World) :
    Except Error α × World :=
  let (result, world, _) := Program.run (World.performFaulty plan) action.run (world, 0)
  (result, world)

/-- Load an organization that must exist. -/
def loadOrganization (id : String) : Action Organization := do
  let org ← ask (.organizations (.findById id))
  demand (.organizationMissing id) org

end Action
end Tenancy
