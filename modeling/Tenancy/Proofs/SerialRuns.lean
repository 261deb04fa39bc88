import Tenancy.Proofs.OrderlyRuns

/-!
# Tenancy - Operations one after the other

Operations that run side by side may leave more behind than operations that run one
after the other: a role may be deleted while another operation is about to grant it
permissions.  This file is about the worlds between operations that do not overlap.
Each of them is also a world that a run of overlapping operations passes through, so
all that is known of runs is known of them.

Main definitions:

- `World.Visits`: the worlds between operations one after the other.
- `Regime.unrepeating`: runs in which ids never repeat.

Main results:

- Theorem `World.Visits.reaches`: such a world is one that a run passes through.
- Theorem `Action.Uses.keeps`: an invariant that no request of an action breaks holds
  after the action.
-/

namespace Tenancy

/-! ## Visited worlds -/

/-- The worlds to which operations lead from a first one, each of them uninterrupted and under any
deployment; between operations the outside may change. -/
inductive World.Visits (start : World) : World → Prop
  | start : Visits start start
  | operation {world : World} (visits : Visits start world) (deployment : Deployment)
      (operation : Operation) : Visits start ((operation.action deployment).runIn world).2
  | shift {world : World} (visits : Visits start world) (outside : Outside) :
      Visits start (world.withOutside outside)

/-- Runs in which ids never repeat, under any deployment. -/
def Regime.unrepeating : Regime where
  deploys _ := True
  admits world := Function.Injective world.supply.ids

/-- The ids drawn where ids never repeat differ from one another. -/
theorem Regime.unrepeating_distinctIds (world : World) (hadmits : Regime.unrepeating.admits world) :
    world.supply.DistinctIds :=
  fun _ _ _ _ heq => hadmits heq

/-- Runs in which ids never repeat may begin where orderly runs do. -/
theorem Regime.Starts.unrepeating {world : World} (starts : Regime.orderly.Starts world) :
    Regime.unrepeating.Starts world where
  noRecords := starts.noRecords
  admitted := starts.admitted.ids

/-- Runs in which ids never repeat may begin without records, whatever the catalog says. -/
theorem Regime.unrepeating_starts_blank (catalog : List (String × String)) :
    Regime.unrepeating.Starts (World.blank catalog) where
  noRecords := ⟨rfl, rfl, rfl, rfl, rfl⟩
  admitted := by
    have starts : Regime.orderly.Starts (World.blank []) := Regime.orderly_starts_blank (by simp)
    exact starts.admitted.ids

namespace World.Visits

variable {start world : World}

/-- A visited world is one that a run passes through. -/
theorem reaches (starts : Regime.unrepeating.Starts start) (visits : start.Visits world) :
    ∃ config, Regime.unrepeating.Reaches start config ∧ config.world = world := by
  have closed : ∀ effect world, Regime.unrepeating.admits world →
      Regime.unrepeating.admits (World.perform effect world).2 := by
    intro effect world hadmits
    change Function.Injective (World.perform effect world).2.supply.ids
    rw [World.perform_ids]
    exact hadmits
  induction visits with
  | start => exact ⟨_, .refl, rfl⟩
  | operation _ deployment operation ih =>
      obtain ⟨config, reaches, rfl⟩ := ih
      obtain ⟨last, hlast, hworld, -⟩ :=
        reaches.operation closed deployment operation trivial (reaches.admitted starts)
      exact ⟨last, hlast, hworld⟩
  | shift _ outside ih =>
      obtain ⟨config, reaches, rfl⟩ := ih
      exact ⟨_, reaches.step (.shift config outside (reaches.admitted starts)), rfl⟩

/-- From a visited world, operations one after the other lead to another one. -/
theorem runAll (visits : start.Visits world) (deployment : Deployment)
    (operations : List Operation) :
    start.Visits (Operation.runAll deployment operations world) := by
  induction operations generalizing world with
  | nil => exact visits
  | cons operation rest ih => exact ih (visits.operation deployment operation)

/-- In a visited world ids do not repeat. -/
theorem injective_ids (starts : Regime.unrepeating.Starts start) (visits : start.Visits world) :
    Function.Injective world.supply.ids := by
  obtain ⟨config, reaches, rfl⟩ := visits.reaches starts
  exact reaches.admitted starts

end World.Visits

/-! ## Invariants of single operations -/

/-- An invariant that no request of a program breaks holds after a run of it. -/
theorem Program.Uses.keeps {α : Type} {allowed : Effect → Prop} {wanted : α → Prop}
    {inv : World → Prop} {program : Program Effect Effect.Reply α}
    (huses : program.Uses allowed wanted)
    (hkeeps : ∀ effect world, allowed effect → inv world → inv (World.perform effect world).2)
    {world : World} (hinv : inv world) : inv (program.run World.perform world).2 := by
  induction program generalizing world with
  | done value => exact hinv
  | ask effect rest ih => exact ih _ (huses.2 _) (hkeeps effect world huses.1 hinv)

/-- An invariant that no request of an action breaks holds after a run of it. -/
theorem Action.Uses.keeps {α : Type} {allowed : Effect → Prop} {wanted : α → Prop}
    {inv : World → Prop} {action : Action α} (huses : action.Uses allowed wanted)
    (hkeeps : ∀ effect world, allowed effect → inv world → inv (World.perform effect world).2)
    {world : World} (hinv : inv world) : inv (action.runIn world).2 :=
  huses.run.keeps hkeeps hinv

end Tenancy
