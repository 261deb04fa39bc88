import Mathlib.Logic.Relation
import Tenancy.Operation

/-!
# Tenancy - Runs of many operations

Operations run side by side on one world.  A run starts operations, lets one of
them make its next request, or changes what no operation controls: the clock,
the users and the permission catalog.  Every request is one step, so between two
requests of an operation any number of steps of the others may fall.

A configuration also keeps the history of all requests with their replies, each
under the number of the operation that made it.

Main definitions:

- `Configuration`, `Configuration.advance`: running operations on a world, and
  one step of one of them.
- `Regime`: which deployments operations are started under, and through which
  worlds a run may pass.
- `Regime.Step`, `Regime.Reaches`: one step of a run, and runs.
- `Regime.Continues`: what a run goes on to.
- `Operation.runAll`: operations one after the other.
- `Configuration.scheduled`: operations in the order of a schedule.

Main results:

- Theorem `Regime.Step.invariant`: what calls and the outside keep is kept by every step.
- Theorem `Regime.Reaches.advance_all`: whatever can run can also run to its end
  without interruption.
- Theorem `Regime.Reaches.operations`: so every sequence of uninterrupted
  operations is a run.
- Theorem `Regime.Continues.scheduled`: a run can go on with any operations, in any
  order.
-/

namespace Tenancy

/-! ## Configurations -/

/-- A request with its reply. -/
structure Exchange where
  effect : Effect
  reply : effect.Reply

/-- A request with its reply and the number of the operation that made it. -/
structure Event where
  task : Nat
  exchange : Exchange

/-- A running operation: what it was started as, and what is left of it. -/
structure Task where
  operation : Operation
  rest : Program Effect Effect.Reply (Except Error operation.Answer)

/-- An operation before its first step. -/
def Task.begin (deployment : Deployment) (operation : Operation) : Task :=
  { operation := operation, rest := (operation.action deployment).run }

/-- Running operations, the world they run on, and all requests made so far. -/
structure Configuration where
  world : World
  tasks : List Task
  history : List Event

namespace Configuration

/-- A world before any operation was started. -/
def initial (world : World) : Configuration :=
  { world := world, tasks := [], history := [] }

/-- Start an operation. -/
def start (config : Configuration) (deployment : Deployment) (operation : Operation) :
    Configuration :=
  { config with tasks := config.tasks ++ [Task.begin deployment operation] }

/-- Let a running operation make its next request; one that has ended does nothing. -/
def advance (config : Configuration) (index : Nat) : Configuration :=
  match config.tasks[index]? with
  | some ⟨operation, .ask effect next⟩ =>
    let out := World.perform effect config.world
    { world := out.2
      tasks := config.tasks.set index ⟨operation, next out.1⟩
      history := config.history ++ [⟨index, effect, out.1⟩] }
  | _ => config

/-- A step of an operation that makes a request. -/
theorem advance_ask {config : Configuration} {index : Nat} {operation : Operation}
    {effect : Effect}
    {next : effect.Reply → Program Effect Effect.Reply (Except Error operation.Answer)}
    (htask : config.tasks[index]? = some ⟨operation, .ask effect next⟩) :
    config.advance index =
      { world := (World.perform effect config.world).2
        tasks :=
          config.tasks.set index ⟨operation, next (World.perform effect config.world).1⟩
        history :=
          config.history ++ [⟨index, effect, (World.perform effect config.world).1⟩] } := by
  simp only [advance, htask]

/-- A step either makes the next request of an operation or changes nothing. -/
theorem advance_cases (config : Configuration) (index : Nat) :
    config.advance index = config ∨
      ∃ operation effect,
        ∃ next : effect.Reply → Program Effect Effect.Reply (Except Error operation.Answer),
          config.tasks[index]? = some ⟨operation, .ask effect next⟩ := by
  rcases htask : config.tasks[index]? with _ | ⟨operation, rest⟩
  · exact .inl (by simp only [advance, htask])
  · cases rest with
    | done value => exact .inl (by simp only [advance, htask])
    | ask effect next => exact .inr ⟨operation, effect, next, rfl⟩

end Configuration

/-! ## What no operation controls -/

/-- The part of a world that no operation changes. -/
structure Outside where
  clock : Nat
  users : List User
  catalog : List (String × String)
  catalogAvailable : Bool
  globalPermissions : List (String × List String)

/-- The outside of a world. -/
def World.outside (world : World) : Outside where
  clock := world.clock
  users := world.tables.users
  catalog := world.tables.catalog
  catalogAvailable := world.tables.catalogAvailable
  globalPermissions := world.tables.globalPermissions

/-- The world with another outside. -/
def World.withOutside (world : World) (outside : Outside) : World :=
  { world with
    clock := outside.clock
    tables :=
      { world.tables with
        users := outside.users
        catalog := outside.catalog
        catalogAvailable := outside.catalogAvailable
        globalPermissions := outside.globalPermissions } }

/-- Whether a store holds no record. -/
structure Tables.HasNoRecords (tables : Tables) : Prop where
  organizations : tables.organizations = []
  memberships : tables.memberships = []
  roles : tables.roles = []
  grants : tables.grants = []
  invitations : tables.invitations = []

/-- The ids drawn so far differ from one another. -/
def Supply.DistinctIds (supply : Supply) : Prop :=
  ∀ m n, m < supply.idsDrawn → n < supply.idsDrawn → supply.ids m = supply.ids n → m = n

/-- The codes made from the bytes drawn so far differ from one another. -/
def Supply.DistinctCodes (supply : Supply) : Prop :=
  ∀ m n, m < supply.bytesDrawn → n < supply.bytesDrawn →
    Text.Base64Url.encode (supply.bytes m) = Text.Base64Url.encode (supply.bytes n) → m = n

/-! ## Runs -/

/-- The deployments under which operations are started, and the worlds a run may pass through. -/
structure Regime where
  deploys : Deployment → Prop
  admits : World → Prop

namespace Regime

/-- A world without records in which a run may begin. -/
structure Starts (regime : Regime) (world : World) : Prop where
  noRecords : world.tables.HasNoRecords
  admitted : regime.admits world

/-- One step of a run. -/
inductive Step (regime : Regime) : Configuration → Configuration → Prop
  | start (config : Configuration) (deployment : Deployment) (operation : Operation)
      (deployed : regime.deploys deployment) :
      Step regime config (config.start deployment operation)
  | advance (config : Configuration) (index : Nat)
      (admitted : regime.admits (config.advance index).world) :
      Step regime config (config.advance index)
  | shift (config : Configuration) (outside : Outside)
      (admitted : regime.admits (config.world.withOutside outside)) :
      Step regime config { config with world := config.world.withOutside outside }

/-- One step of a run keeps what every store call and every change of the outside keeps. -/
theorem Step.invariant {regime : Regime} {inv : Tables → Prop} {before after : Configuration}
    (step : regime.Step before after) (holds : inv before.world.tables)
    (perform : ∀ tables call, inv tables → inv (Tables.perform tables call).2)
    (shift : ∀ (outside : Outside) (world : World), inv world.tables →
      inv (world.withOutside outside).tables) : inv after.world.tables := by
  cases step with
  | start deployment operation _ => exact holds
  | advance index _ =>
      rcases before.advance_cases index with hsame | ⟨operation, effect, next, htask⟩
      · rw [hsame]
        exact holds
      · rw [Configuration.advance_ask htask]
        cases effect with
        | store call => exact perform _ call holds
        | clock | freshId | randomBytes | note => exact holds
  | shift outside _ => exact shift outside _ holds

/-- The configurations that runs from a world reach. -/
def Reaches (regime : Regime) (world : World) (config : Configuration) : Prop :=
  Relation.ReflTransGen regime.Step (.initial world) config

/-- The configurations that runs go on to from a configuration. -/
def Continues (regime : Regime) (before after : Configuration) : Prop :=
  Relation.ReflTransGen regime.Step before after

namespace Reaches

variable {regime : Regime} {world : World} {config : Configuration}

/-- A run passes through admitted worlds only. -/
theorem admitted (starts : regime.Starts world) (reaches : regime.Reaches world config) :
    regime.admits config.world := by
  induction reaches with
  | refl => exact starts.admitted
  | tail _ step ih =>
      cases step with
      | start deployment operation _ => exact ih
      | advance index admitted => exact admitted
      | shift outside admitted => exact admitted

/-- A run goes on with any step. -/
theorem step {next : Configuration} (reaches : regime.Reaches world config)
    (hstep : regime.Step config next) : regime.Reaches world next :=
  Relation.ReflTransGen.tail reaches hstep

/-- What a run goes on to is reached by a run. -/
theorem onward {later : Configuration} (reaches : regime.Reaches world config)
    (continues : regime.Continues config later) : regime.Reaches world later :=
  reaches.trans continues

/-! ## Uninterrupted operations -/

/-- What is left of an operation can run to its end without interruption. -/
theorem advance_all {operation : Operation} {index : Nat}
    (closed : ∀ effect world, regime.admits world → regime.admits (World.perform effect world).2)
    (rest : Program Effect Effect.Reply (Except Error operation.Answer))
    (reaches : regime.Reaches world config) (admitted : regime.admits config.world)
    (htask : config.tasks[index]? = some ⟨operation, rest⟩) :
    ∃ last, regime.Reaches world last ∧
      last.world = (rest.run World.perform config.world).2 ∧
      last.tasks =
        config.tasks.set index
          ⟨operation, .done (rest.run World.perform config.world).1⟩ := by
  induction rest generalizing config with
  | done value =>
      refine ⟨config, reaches, rfl, ?_⟩
      obtain ⟨hlt, heq⟩ := List.getElem?_eq_some_iff.1 htask
      rw [Program.run_done, ← heq, List.set_getElem_self]
  | ask effect next ih =>
      have hnext : regime.admits (config.advance index).world := by
        rw [Configuration.advance_ask htask]
        exact closed effect config.world admitted
      have hstep : regime.Reaches world (config.advance index) :=
        reaches.step (.advance config index hnext)
      have hlt : index < config.tasks.length :=
        (List.getElem?_eq_some_iff.1 htask).1
      obtain ⟨last, hlast, hworld, htasks⟩ :=
        ih (World.perform effect config.world).1 hstep hnext
          (by rw [Configuration.advance_ask htask]; exact List.getElem?_set_self hlt)
      rw [Configuration.advance_ask htask] at hworld htasks
      exact ⟨last, hlast, hworld, by rw [htasks, Program.run_ask, List.set_set]⟩

/-- An operation can be started and run to its end without interruption. -/
theorem operation (closed : ∀ effect world, regime.admits world →
      regime.admits (World.perform effect world).2)
    (deployment : Deployment) (operation : Operation) (deployed : regime.deploys deployment)
    (reaches : regime.Reaches world config) (admitted : regime.admits config.world) :
    ∃ last, regime.Reaches world last ∧
      last.world = ((operation.action deployment).runIn config.world).2 ∧
      last.tasks = config.tasks ++
        [⟨operation, .done ((operation.action deployment).runIn config.world).1⟩] := by
  have hstart : regime.Reaches world (config.start deployment operation) :=
    reaches.step (.start config deployment operation deployed)
  have htask : (config.start deployment operation).tasks[config.tasks.length]? =
      some (Task.begin deployment operation) := by
    simp [Configuration.start]
  obtain ⟨last, hlast, hworld, htasks⟩ :=
    hstart.advance_all closed _ (show regime.admits (config.start _ _).world from admitted) htask
  refine ⟨last, hlast, hworld, ?_⟩
  rw [htasks]
  simp [Configuration.start, Action.runIn]

end Reaches
end Regime

/-- Operations that are all started first and then make requests in the order of a schedule. -/
def Configuration.scheduled (world : World) (deployment : Deployment)
    (operations : List Operation) (schedule : List Nat) : Configuration :=
  schedule.foldl advance
    (operations.foldl (fun config operation => config.start deployment operation) (initial world))

/-- A step does not change which operations run. -/
theorem Configuration.map_operation_advance (config : Configuration) (index : Nat) :
    (config.advance index).tasks.map (·.operation) = config.tasks.map (·.operation) := by
  rcases config.advance_cases index with hsame | ⟨operation, effect, next, htask⟩
  · rw [hsame]
  · have hget : (config.tasks.map (·.operation))[index]? = some operation := by
      rw [List.getElem?_map, htask]
      rfl
    obtain ⟨hlt, heq⟩ := List.getElem?_eq_some_iff.1 hget
    rw [advance_ask htask, List.map_set]
    exact (congrArg (List.set _ index) heq.symm).trans (List.set_getElem_self hlt)

/-- Making requests in the order of a schedule does not change which operations run. -/
theorem Configuration.map_operation_schedule (config : Configuration) (schedule : List Nat) :
    (schedule.foldl advance config).tasks.map (·.operation) = config.tasks.map (·.operation) := by
  induction schedule generalizing config with
  | nil => rfl
  | cons index rest ih => exact (ih _).trans (config.map_operation_advance index)

/-- The operations of a schedule run in their order. -/
theorem Configuration.map_operation_scheduled (world : World) (deployment : Deployment)
    (operations : List Operation) (schedule : List Nat) :
    (scheduled world deployment operations schedule).tasks.map (·.operation) = operations := by
  have hstarted : ∀ config : Configuration,
      (operations.foldl (fun config operation => config.start deployment operation)
        config).tasks.map (·.operation) = config.tasks.map (·.operation) ++ operations := by
    induction operations with
    | nil => simp
    | cons operation rest ih =>
        intro config
        rw [List.foldl_cons, ih]
        simp [start, Task.begin]
  exact (map_operation_schedule _ _).trans (hstarted _)

/-- Running operations can go on to make requests in the order of any schedule. -/
theorem Regime.Continues.schedule {regime : Regime} {config : Configuration}
    (closed : ∀ effect world, regime.admits world → regime.admits (World.perform effect world).2)
    (admitted : regime.admits config.world) (schedule : List Nat) :
    regime.Continues config (schedule.foldl Configuration.advance config) := by
  induction schedule generalizing config with
  | nil => exact .refl
  | cons index rest ih =>
      have hnext : regime.admits (config.advance index).world := by
        rcases config.advance_cases index with hsame | ⟨operation, effect, next, htask⟩
        · rw [hsame]
          exact admitted
        · rw [Configuration.advance_ask htask]
          exact closed effect config.world admitted
      exact .head (.advance config index hnext) (ih hnext)

/-- Any operations can be started at any time. -/
theorem Regime.Continues.startAll {regime : Regime} {config : Configuration}
    (deployment : Deployment) (deployed : regime.deploys deployment)
    (operations : List Operation) :
    regime.Continues config
      (operations.foldl (fun config operation => config.start deployment operation) config) := by
  induction operations generalizing config with
  | nil => exact .refl
  | cons operation rest ih => exact .head (.start config deployment operation deployed) ih

/-- Starting an operation does not change the world. -/
theorem Configuration.world_startAll (config : Configuration) (deployment : Deployment)
    (operations : List Operation) :
    (operations.foldl (fun config operation => config.start deployment operation) config).world =
      config.world := by
  induction operations generalizing config with
  | nil => rfl
  | cons operation rest ih => exact ih (config.start deployment operation)

/-- A run can go on with any operations, in the order of any schedule. -/
theorem Regime.Continues.scheduled {regime : Regime} {config : Configuration}
    (closed : ∀ effect world, regime.admits world → regime.admits (World.perform effect world).2)
    (deployment : Deployment) (deployed : regime.deploys deployment) (operations : List Operation)
    (schedule : List Nat) (admitted : regime.admits config.world) :
    regime.Continues config (schedule.foldl Configuration.advance
      (operations.foldl (fun config operation => config.start deployment operation) config)) :=
  (startAll deployment deployed operations).trans
    (Regime.Continues.schedule closed
      (by rw [Configuration.world_startAll]; exact admitted) schedule)

/-- Every schedule is a run. -/
theorem Regime.Reaches.scheduled {regime : Regime} {world : World}
    (closed : ∀ effect world, regime.admits world → regime.admits (World.perform effect world).2)
    (deployment : Deployment) (deployed : regime.deploys deployment) (operations : List Operation)
    (schedule : List Nat) (starts : regime.Starts world) :
    regime.Reaches world (.scheduled world deployment operations schedule) :=
  Regime.Continues.scheduled closed deployment deployed operations schedule starts.admitted

/-- The world after operations that run one after the other. -/
def Operation.runAll (deployment : Deployment) (operations : List Operation) (world : World) :
    World :=
  operations.foldl (fun world operation => ((operation.action deployment).runIn world).2) world

/-- Operations can be run one after the other without interruption. -/
theorem Regime.Reaches.operations {regime : Regime} {world : World} {config : Configuration}
    (closed : ∀ effect world, regime.admits world → regime.admits (World.perform effect world).2)
    (deployment : Deployment) (deployed : regime.deploys deployment) (operations : List Operation)
    (reaches : regime.Reaches world config) (starts : regime.Starts world) :
    ∃ last, regime.Reaches world last ∧
      last.world = Operation.runAll deployment operations config.world := by
  induction operations generalizing config with
  | nil => exact ⟨config, reaches, rfl⟩
  | cons operation rest ih =>
      obtain ⟨next, hnext, hworld, -⟩ :=
        reaches.operation closed deployment operation deployed (reaches.admitted starts)
      obtain ⟨last, hlast, hrest⟩ := ih hnext
      refine ⟨last, hlast, ?_⟩
      rw [hrest, hworld]
      rfl

end Tenancy
