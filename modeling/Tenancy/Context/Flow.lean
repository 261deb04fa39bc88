import Tenancy.Context

/-!
# Tenancy - Flows of context frames

A flow is a stack of frames, the innermost last.  Beginning a scope pushes a
frame and hands out a guard that remembers the depth before the push; dropping
the guard cuts the current flow back to that depth.  Outside every flow there is
nowhere to push, and the guard is inert.

Main definitions:

- `Flow`, `Surroundings`: a stack of frames, and whether the code is in one.
- `Guard`, `Surroundings.begin`, `Surroundings.drop`: pushing and cutting back.
- `Accessor`: whether contexts are kept at all.
-/

namespace Tenancy

/-- A stack of frames, the innermost last. -/
abbrev Flow := List Context

/-- The flow that code runs in, if it runs in one. -/
abbrev Surroundings := Option Flow

/-- What beginning a scope hands out: the depth to restore, or nothing to do. -/
structure Guard where
  restoreDepth : Option Nat
deriving DecidableEq, Repr, Inhabited

namespace Guard

/-- The guard that does nothing. -/
def inert : Guard :=
  ⟨none⟩

/-- Whether the guard pushed a frame. -/
def isActive (guard : Guard) : Bool :=
  guard.restoreDepth.isSome

end Guard

namespace Surroundings

/-- The innermost frame, or the empty context. -/
def current (surroundings : Surroundings) : Context :=
  match surroundings with
  | some flow => flow.getLast?.getD .empty
  | none => .empty

/-- The number of frames. -/
def depth (surroundings : Surroundings) : Nat :=
  match surroundings with
  | some flow => flow.length
  | none => 0

/-- Push a frame; outside a flow nothing happens. -/
def begin (surroundings : Surroundings) (context : Context) : Surroundings × Guard :=
  match surroundings with
  | some flow => (some (flow ++ [context]), ⟨some flow.length⟩)
  | none => (none, .inert)

/-- Cut the current flow back to the depth that a guard remembers. -/
def drop (surroundings : Surroundings) (guard : Guard) : Surroundings :=
  match guard.restoreDepth with
  | some depth => surroundings.map (·.take depth)
  | none => surroundings

/-- The frames that a flow opened here starts from, with one more on top. -/
def extended (surroundings : Surroundings) (context : Context) : Flow :=
  surroundings.getD [] ++ [context]

end Surroundings

/-- How code reaches the ambient organization: through its flow, or not at all. -/
inductive Accessor
  | flow
  | absent
deriving DecidableEq, Repr, Inhabited

namespace Accessor

/-- The context that code sees. -/
def current (accessor : Accessor) (surroundings : Surroundings) : Context :=
  match accessor with
  | .flow => surroundings.current
  | .absent => .empty

/-- Begin a scope; without access to a flow the guard is inert. -/
def begin (accessor : Accessor) (surroundings : Surroundings) (context : Context) :
    Surroundings × Guard :=
  match accessor with
  | .flow => surroundings.begin context
  | .absent => (surroundings, .inert)

end Accessor
end Tenancy
