import Tenancy.Context.Script

/-!
# Tenancy - Scopes read off the text of a script

The frames of a flow are kept on a stack that steps push to and cut back.  Where
scopes begin and end only with the steps that hold them, none of this shows: what
a step sees can be read off the steps around it, from the outside inwards, without
running anything.

Main definitions:

- `Script.Step.isNested`: steps that leave the ends of scopes to their bodies.
- `Script.Step.lexical`: what a step sees by the steps around it.

Main results:

- Theorem `Surroundings.drop_begin`: a guard that is dropped at once restores the
  frames.
- Theorem `Script.runStep_eq_lexical`, `Script.runSteps_eq_lexicals`: nested steps see
  what their text says, and leave the frames and guards as they were.
- Theorem `Script.run_eq_lexicals`: so do nested scripts, from outside every flow and
  from within any.
-/

namespace Tenancy

/-! ## Beginning and ending a scope -/

namespace Surroundings

/-- Beginning a scope adds a frame to the flow, if there is one. -/
theorem begin_fst (surroundings : Surroundings) (context : Context) :
    (surroundings.begin context).1 = surroundings.map (· ++ [context]) := by
  cases surroundings <;> rfl

/-- A guard is active exactly if it was begun in a flow. -/
theorem begin_isActive (surroundings : Surroundings) (context : Context) :
    (surroundings.begin context).2.isActive = surroundings.isSome := by
  cases surroundings <;> rfl

/-- A guard that is dropped on the frames it was begun with restores the frames before. -/
theorem drop_begin (surroundings : Surroundings) (context : Context) :
    (surroundings.begin context).1.drop (surroundings.begin context).2 = surroundings := by
  cases surroundings with
  | none => rfl
  | some flow => exact congrArg some List.take_left

end Surroundings

namespace Script

/-! ## What a text says -/

mutual

/-- Whether a step and all steps in it begin and end scopes by holding them. -/
def Step.isNested : Step → Bool
  | .begin _ _ | .drop _ => false
  | .scoped _ body | .run body | .within _ body | .spawn body => areNested body
  | .yield | .current | .inert => true

/-- Whether all steps of a list begin and end scopes by holding them. -/
def areNested : List Step → Bool
  | [] => true
  | step :: rest => step.isNested && areNested rest

end

/-- What is seen where `around` are the frames: the innermost of them, and how many there are. -/
def seenWithin (around : Option (List Context)) (active : Option Bool)
    (inner : Option (List Observation)) : Observation :=
  .seen active none inner ((around.getD []).getLast?.getD .empty) (around.getD []).length

mutual

/-- What a step sees where `around` are the frames of the steps that hold it; `none` stands for the
outside of every flow. -/
def Step.lexical (around : Option (List Context)) : Step → Observation
  | .scoped context body =>
    seenWithin around (some around.isSome)
      (some (lexicals (around.map (· ++ [context])) body))
  | .run body => seenWithin around none (some (lexicals (some []) body))
  | .within context body =>
    seenWithin around none (some (lexicals (some (around.getD [] ++ [context])) body))
  | .spawn body => seenWithin around none (some (lexicals none body))
  | .inert => seenWithin around (some false) none
  | .yield | .current | .begin _ _ | .drop _ => seenWithin around none none

/-- What each step of a list sees where `around` are the frames of the steps that hold them. -/
def lexicals (around : Option (List Context)) : List Step → List Observation
  | [] => []
  | step :: rest => step.lexical around :: lexicals around rest

end

/-! ## What a run sees -/

/-- What is seen in a state are its frames. -/
theorem observe_eq_seenWithin (state : State) (active : Option Bool)
    (inner : Option (List Observation)) :
    observe .flow state active none inner = seenWithin state.surroundings active inner := by
  unfold observe seenWithin
  cases state.surroundings <;> rfl

mutual

/-- A nested step sees what its text says and leaves the state as it was. -/
theorem runStep_eq_lexical (state : State) (step : Step) (nested : step.isNested = true) :
    runStep .flow state step = (state, step.lexical state.surroundings) := by
  match step, nested with
  | .scoped context body, nested =>
    have hbody := runSteps_eq_lexicals
      { state with surroundings := (state.surroundings.begin context).1 } body nested
    have hended := state.surroundings.drop_begin context
    simp only [runStep, Accessor.begin, hbody, hended, observe_eq_seenWithin,
      Surroundings.begin_isActive]
    rw [Step.lexical, Surroundings.begin_fst]
  | .run body, nested =>
    have hbody := runSteps_eq_lexicals { state with surroundings := some [] } body nested
    simp only [runStep, hbody, Step.lexical, observe_eq_seenWithin]
  | .within context body, nested =>
    have hbody := runSteps_eq_lexicals
      { state with surroundings := some (state.surroundings.extended context) } body nested
    simp only [runStep, hbody, observe_eq_seenWithin]
    rw [Step.lexical, Surroundings.extended]
  | .spawn body, nested =>
    have hbody := runSteps_eq_lexicals { state with surroundings := none } body nested
    simp only [runStep, hbody, Step.lexical, observe_eq_seenWithin]
  | .yield, _ | .current, _ => simp only [runStep, Step.lexical, observe_eq_seenWithin]
  | .inert, _ =>
    simp only [runStep, Step.lexical, observe_eq_seenWithin]
    rfl

/-- Nested steps see what their text says and leave the state as it was. -/
theorem runSteps_eq_lexicals (state : State) (steps : List Step) (nested : areNested steps = true) :
    runSteps .flow state steps = (state, lexicals state.surroundings steps) := by
  cases steps with
  | nil => rfl
  | cons step rest =>
      obtain ⟨hstep, hrest⟩ := Bool.and_eq_true_iff.1 nested
      simp only [runSteps, runStep_eq_lexical state step hstep,
        runSteps_eq_lexicals state rest hrest, lexicals]

end

/-- A script whose scopes end with the steps that hold them sees what its text says; wherever it
runs, the frames around it are afterwards what they were before. -/
theorem run_eq_lexicals {steps : List Step} (nested : areNested steps = true) :
    run .flow steps = lexicals none steps ∧
      ∀ state, runSteps .flow state steps = (state, lexicals state.surroundings steps) := by
  have hruns := fun state => runSteps_eq_lexicals state steps nested
  constructor
  · unfold run
    rw [hruns .initial]
    rfl
  · exact hruns

/-- A scope outside every flow, then one whose body opens flows and spawns a task. -/
theorem run_eq_lexicals_mixed_bodies :
    let a : Context := ⟨some "a", some "a-slug", some "A"⟩
    let b : Context := ⟨some "b", some "b-slug", some "B"⟩
    let steps : List Step :=
      [.scoped a [.current, .within b [.current]],
        .run [.scoped a [.within b [.current, .spawn [.scoped a [.current]]], .scoped b [.yield]],
          .run [.current], .current]]
    run .flow steps =
      [.seen (some false) none (some [.seen none none none .empty 0,
          .seen none none (some [.seen none none none b 1]) .empty 0]) .empty 0,
        .seen none none (some [
          .seen (some true) none (some [
            .seen none none (some [.seen none none none b 2,
              .seen none none (some [
                .seen (some false) none (some [.seen none none none .empty 0]) .empty 0]) b 2]) a 1,
            .seen (some true) none (some [.seen none none none b 2]) a 1]) .empty 0,
          .seen none none (some [.seen none none none .empty 0]) .empty 0,
          .seen none none none .empty 0]) .empty 0] := by
  intro a b steps
  have hnested : areNested steps = true := rfl
  exact (run_eq_lexicals hnested).1.trans rfl

end Script
end Tenancy
