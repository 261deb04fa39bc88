import Mathlib.Algebra.Group.Nat.Defs
import Tenancy.Proofs.TidyGrants

/-!
# Tenancy - Runs in orderly worlds

No operation interferes with the supply of ids or with the outside.  So a run of
operations only needs a world where ids never repeat and the catalog is tidy to
begin with.

Main definitions:

- `World.IsOrderly`: ids and codes never repeat, and the catalog is tidy.
- `Regime.orderly`: runs in orderly worlds, under any deployment.
- `Regime.uniform`: runs in orderly worlds, under one deployment.
- `World.blank`: an orderly world without records.

Main results:

- Theorem `World.perform_outside`: no request changes the outside.
- Theorem `World.IsOrderly.perform`: orderly worlds stay orderly.
- Theorem `Regime.orderly_operations`: operations one after the other are a run.
-/

namespace Tenancy

/-! ## What requests leave alone -/

/-- No store call changes the outside. -/
theorem World.callStore_outside (world : World) (call : Call) :
    (world.callStore call).2.outside = world.outside := by
  have hstore : (world.callStore call).2 = { world with tables := (world.tables.perform call).2 } :=
    rfl
  rw [hstore]
  cases call with
  | organizations call =>
      obtain ⟨_, hframe⟩ := world.tables.performOrganization_frame call
      rw [hframe]
      rfl
  | memberships call =>
      obtain ⟨_, _, hframe⟩ := world.tables.performMembership_frame call
      rw [hframe]
      rfl
  | roles call =>
      obtain ⟨_, _, _, hframe⟩ := world.tables.performRole_frame call
      rw [hframe]
      rfl
  | invitations call =>
      obtain ⟨_, hframe⟩ := world.tables.performInvitation_frame call
      rw [hframe]
      rfl
  | directory call | catalog call => rw [world.tables.perform_of_not_write rfl]

/-- No request changes the outside. -/
theorem World.perform_outside (effect : Effect) (world : World) :
    (World.perform effect world).2.outside = world.outside := by
  cases effect with
  | store call => exact world.callStore_outside call
  | clock | freshId | randomBytes | note => rfl

/-- No operation changes the outside. -/
theorem Program.run_outside {α : Type} (program : Program Effect Effect.Reply α) (world : World) :
    (program.run World.perform world).2.outside = world.outside := by
  induction program generalizing world with
  | done value => rfl
  | ask effect rest ih => exact (ih _ _).trans (World.perform_outside effect world)

/-- No request changes which ids are drawn. -/
theorem World.perform_ids (effect : Effect) (world : World) :
    (World.perform effect world).2.supply.ids = world.supply.ids := by
  cases effect <;> rfl

/-- No request changes which bytes are drawn. -/
theorem World.perform_bytes (effect : Effect) (world : World) :
    (World.perform effect world).2.supply.bytes = world.supply.bytes := by
  cases effect <;> rfl

/-! ## Orderly worlds -/

/-- The ids and the codes of a world never repeat, and its catalog is tidy. -/
structure World.IsOrderly (world : World) : Prop where
  ids : Function.Injective world.supply.ids
  codes : Function.Injective fun n => Text.Base64Url.encode (world.supply.bytes n)
  catalog : world.tables.HasTidyCatalog

namespace World.IsOrderly

variable {world : World}

/-- The ids drawn in an orderly world differ from one another. -/
theorem distinctIds (orderly : world.IsOrderly) : world.supply.DistinctIds :=
  fun _ _ _ _ heq => orderly.ids heq

/-- The codes drawn in an orderly world differ from one another. -/
theorem distinctCodes (orderly : world.IsOrderly) : world.supply.DistinctCodes :=
  fun _ _ _ _ heq => orderly.codes heq

/-- Orderly worlds stay orderly. -/
theorem perform (orderly : world.IsOrderly) (effect : Effect) :
    (World.perform effect world).2.IsOrderly where
  ids := by
    rw [World.perform_ids]
    exact orderly.ids
  codes := by
    rw [World.perform_bytes]
    exact orderly.codes
  catalog := by
    have hcatalog := congrArg Outside.catalog (World.perform_outside effect world)
    change (World.perform effect world).2.tables.catalog = world.tables.catalog at hcatalog
    unfold Tables.HasTidyCatalog
    rw [hcatalog]
    exact orderly.catalog

end World.IsOrderly

/-- Runs in orderly worlds, under any deployment. -/
def Regime.orderly : Regime where
  deploys _ := True
  admits := World.IsOrderly

/-- Operations one after the other are a run in orderly worlds. -/
theorem Regime.orderly_operations {world : World} (starts : Regime.orderly.Starts world)
    (deployment : Deployment) (operations : List Operation) :
    ∃ config, Regime.orderly.Reaches world config ∧
      config.world = Operation.runAll deployment operations world :=
  Regime.Reaches.operations (fun effect _ orderly => World.IsOrderly.perform orderly effect)
    deployment trivial operations .refl starts

/-- Operations that make requests in the order of a schedule are a run in orderly worlds. -/
theorem Regime.orderly_scheduled {world : World} (starts : Regime.orderly.Starts world)
    (deployment : Deployment) (operations : List Operation) (schedule : List Nat) :
    Regime.orderly.Reaches world (.scheduled world deployment operations schedule) :=
  Regime.Reaches.scheduled (fun effect _ orderly => World.IsOrderly.perform orderly effect)
    deployment trivial operations schedule starts

/-! ## One deployment -/

/-- Runs in orderly worlds whose clock fits a signed word, with all operations under one
deployment. -/
def Regime.uniform (deployment : Deployment) : Regime where
  deploys := (· = deployment)
  admits world := world.IsOrderly ∧ world.clock < 2 ^ 63

/-- No request leads out of these worlds. -/
theorem Regime.uniform_closed (deployment : Deployment) (effect : Effect) (world : World)
    (admitted : (Regime.uniform deployment).admits world) :
    (Regime.uniform deployment).admits (World.perform effect world).2 := by
  obtain ⟨orderly, hclock⟩ := admitted
  have hsame := congrArg Outside.clock (World.perform_outside effect world)
  change (World.perform effect world).2.clock = world.clock at hsame
  exact ⟨orderly.perform effect, by rw [hsame]; exact hclock⟩

/-- Operations that make requests in the order of a schedule are a run under their deployment. -/
theorem Regime.uniform_scheduled {world : World} {deployment : Deployment}
    (starts : (Regime.uniform deployment).Starts world) (operations : List Operation)
    (schedule : List Nat) :
    (Regime.uniform deployment).Reaches world (.scheduled world deployment operations schedule) :=
  Regime.Reaches.scheduled (Regime.uniform_closed deployment) deployment rfl operations schedule
    starts

/-- Such a run can go on with any operations, in the order of any schedule. -/
theorem Regime.uniform_continues {world : World} {deployment : Deployment} {config : Configuration}
    (starts : (Regime.uniform deployment).Starts world)
    (reaches : (Regime.uniform deployment).Reaches world config) (operations : List Operation)
    (schedule : List Nat) :
    (Regime.uniform deployment).Continues config (schedule.foldl Configuration.advance
      (operations.foldl (fun config operation => config.start deployment operation) config)) :=
  .scheduled (Regime.uniform_closed deployment) deployment rfl operations schedule
    (reaches.admitted starts)

/-! ## A world to begin with -/

/-- A world without records: the clock stands at zero, the nth id and the nth code grow with n. -/
def World.blank (catalog : List (String × String)) : World where
  tables := { Tables.empty with catalog := catalog }
  clock := 0
  supply :=
    { ids := fun n => String.ofList (List.replicate (n + 1) 'a'), idsDrawn := 0
      bytes := fun n => List.replicate (3 * (n + 1)) 0, bytesDrawn := 0 }
  trail := .detached

/-- Three zero bytes are written as four letters. -/
theorem Text.Base64Url.length_encodeList_replicate (n : Nat) :
    (Text.Base64Url.encodeList (List.replicate (3 * n) 0)).length = 4 * n := by
  induction n with
  | zero => rfl
  | succ n ih =>
      have hthree : List.replicate (3 * (n + 1)) (0 : UInt8) =
          0 :: 0 :: 0 :: List.replicate (3 * n) 0 := rfl
      rw [hthree]
      simp only [Text.Base64Url.encodeList, List.length_cons, ih]
      omega

/-- Runs in orderly worlds may begin with a tidy catalog and no records. -/
theorem Regime.orderly_starts_blank {catalog : List (String × String)}
    (htidy : ∀ entry ∈ catalog, Text.IsTidy entry.1) :
    Regime.orderly.Starts (World.blank catalog) where
  noRecords := ⟨rfl, rfl, rfl, rfl, rfl⟩
  admitted :=
    { ids := by
        intro m n heq
        have hlists := String.ofList_injective heq
        simpa using congrArg List.length hlists
      codes := by
        intro m n heq
        have hlists := String.ofList_injective heq
        have hlengths := congrArg List.length hlists
        simp only [World.blank, Text.Base64Url.length_encodeList_replicate] at hlengths
        omega
      catalog := htidy }

/-- Runs under one deployment may begin with a tidy catalog and no records. -/
theorem Regime.uniform_starts_blank (deployment : Deployment) {catalog : List (String × String)}
    (htidy : ∀ entry ∈ catalog, Text.IsTidy entry.1) :
    (Regime.uniform deployment).Starts (World.blank catalog) where
  noRecords := (Regime.orderly_starts_blank htidy).noRecords
  admitted := ⟨(Regime.orderly_starts_blank htidy).admitted, show 0 < 2 ^ 63 by decide⟩

end Tenancy
