import Mathlib.Order.CompleteBooleanAlgebra
import Mathlib.Order.CompletePartialOrder
import Tenancy.Proofs.Footprint

/-!
# Tenancy - Invariants that operations uphold together

What an operation has read may be out of date when it writes, so an invariant of
the store alone says too little about its writes.  Some facts stay true once they
are: which tenant an organization has, for example.  An operation may rely on
these, and a pact relates them to the world.  If every operation upholds the pact
when the world changes arbitrarily between its requests, as far as the pact
allows, then the pact holds throughout every run.

Main definitions:

- `Pact`: how the world relates to what is known for good.
- `Pact.Keeps`, `Pact.KeepsFrom`: requests that keep a pact.
- `Program.Upholds`, `Action.Upholds`: a program keeps the pact, whatever happens
  between its requests, and ends with values as wanted.
- `Pact.and`, `Pact.KeepsBeside`: two pacts over the same knowledge, and requests
  that keep the second wherever a program keeps the first.
- `Pact.IsKept`: a pact holds and every running operation goes on to uphold it.

Main results:

- Theorem `Action.Upholds.bind`: programs in sequence.
- Theorem `Action.Upholds.ofUses`: a program whose requests keep a pact upholds it.
- Theorem `Operation.upholds_of_writes`: an operation whose writes keep a pact upholds it.
- Theorem `Action.Upholds.beside`: a program that upholds a pact upholds another one
  beside it, if its requests keep that one.
- Theorem `Regime.Continues.keeps`: a pact that all operations uphold is kept however
  a run goes on, while knowledge grows.
- Theorem `Regime.Reaches.upholds`: so it is kept throughout every run.
-/

namespace Tenancy

/-- How a world relates to what is known for good, in worlds that runs may pass through. -/
structure Pact (κ : Type) where
  admits : World → Prop
  holds : κ → World → Prop
  quiet : ∀ {known : κ} {effect : Effect} {world : World}, effect.isWrite = false →
    holds known world → holds known (World.perform effect world).2
  shift : ∀ {known : κ} {world : World} {outside : Outside},
    holds known world → holds known (world.withOutside outside)

/-- A request that keeps a pact without anything more being known. -/
def Pact.Keeps {κ : Type} (pact : Pact κ) (effect : Effect) : Prop :=
  ∀ known world, pact.holds known world → pact.holds known (World.perform effect world).2

/-- A request that keeps a pact, with at least `known` being known, without anything more being
known. -/
def Pact.KeepsFrom {κ : Type} [Preorder κ] (pact : Pact κ) (known : κ) (effect : Effect) : Prop :=
  ∀ later world, known ≤ later → pact.holds later world →
    pact.holds later (World.perform effect world).2

/-- Requests that are no writes keep every pact. -/
theorem Pact.keeps_quiet {κ : Type} (pact : Pact κ) (effect : Effect)
    (hread : effect.isWrite = false) : pact.Keeps effect :=
  fun _ _ hholds => pact.quiet hread hholds

/-- Requests that are no writes keep every pact, whatever is known. -/
theorem Pact.keepsFrom_quiet {κ : Type} [Preorder κ] (pact : Pact κ) (known : κ) (effect : Effect)
    (hread : effect.isWrite = false) : pact.KeepsFrom known effect :=
  fun _ _ _ hholds => pact.quiet hread hholds

variable {κ α β : Type} [Preorder κ] {pact : Pact κ}

/-! ## Programs that uphold a pact -/

/-- With at least `known` being known, a program keeps the pact at each request and ends with values
as wanted, however knowledge has grown and the world has changed before each request. -/
def Program.Upholds (pact : Pact κ) (wanted : κ → α → Prop) :
    Program Effect Effect.Reply α → κ → Prop
  | .done value, known => ∀ later, known ≤ later → wanted later value
  | .ask effect next, known =>
    ∀ later world, known ≤ later → pact.holds later world →
      pact.admits (World.perform effect world).2 →
      ∃ after, later ≤ after ∧ pact.holds after (World.perform effect world).2 ∧
        (next (World.perform effect world).1).Upholds pact wanted after

/-- With at least `known` being known, an action keeps the pact at each request and ends with values
as wanted. -/
structure Action.Upholds (pact : Pact κ) (wanted : κ → α → Prop) (known : κ) (action : Action α) :
    Prop where
  run : action.run.Upholds pact
    (fun later result => ∀ value, result = .ok value → wanted later value) known

namespace Program.Upholds

/-- A program that upholds a pact does so when more is known. -/
theorem later {wanted : κ → α → Prop} {program : Program Effect Effect.Reply α} {known next : κ}
    (hupholds : program.Upholds pact wanted known) (hle : known ≤ next) :
    program.Upholds pact wanted next := by
  cases program with
  | done value => exact fun later hlater => hupholds later (hle.trans hlater)
  | ask effect rest =>
      intro later world hlater hholds hadmits
      exact hupholds later world (hle.trans hlater) hholds hadmits

/-- Two programs in sequence uphold what both uphold. -/
theorem bind {middle : κ → α → Prop} {wanted : κ → β → Prop}
    {program : Program Effect Effect.Reply α} {next : α → Program Effect Effect.Reply β} {known : κ}
    (hupholds : program.Upholds pact middle known)
    (hnext : ∀ later, known ≤ later → ∀ value, middle later value →
      (next value).Upholds pact wanted later) :
    (program.bind next).Upholds pact wanted known := by
  induction program generalizing known with
  | done value => exact hnext known le_rfl value (hupholds known le_rfl)
  | ask effect rest ih =>
      intro later world hlater hholds hadmits
      obtain ⟨after, hafter, hkept, hrest⟩ := hupholds later world hlater hholds hadmits
      refine ⟨after, hafter, hkept, ih _ hrest fun last hlast value hvalue => ?_⟩
      exact hnext last (hlater.trans (hafter.trans hlast)) value hvalue

/-- Less may be wanted of the values a program ends with. -/
theorem mono {wanted looser : κ → α → Prop} {program : Program Effect Effect.Reply α} {known : κ}
    (hupholds : program.Upholds pact wanted known)
    (hlooser : ∀ later value, wanted later value → looser later value) :
    program.Upholds pact looser known := by
  induction program generalizing known with
  | done value => exact fun later hlater => hlooser later value (hupholds later hlater)
  | ask effect rest ih =>
      intro later world hlater hholds hadmits
      obtain ⟨after, hafter, hkept, hrest⟩ := hupholds later world hlater hholds hadmits
      exact ⟨after, hafter, hkept, ih _ hrest⟩

/-- A program all of whose requests keep a pact, by what is known before it, upholds the pact. -/
theorem ofUsesFrom {wanted : α → Prop} {program : Program Effect Effect.Reply α} {known : κ}
    (huses : program.Uses (pact.KeepsFrom known) wanted) :
    program.Upholds pact (fun _ => wanted) known := by
  have hlater : ∀ next : κ, known ≤ next → program.Upholds pact (fun _ => wanted) next := by
    induction program with
    | done value => exact fun _ _ _ _ => huses
    | ask effect rest ih =>
        intro next hnext later world hle hholds _
        have hkept := huses.1 later world (hnext.trans hle) hholds
        exact ⟨later, le_rfl, hkept, ih _ (huses.2 _) later (hnext.trans hle)⟩
  exact hlater known le_rfl

/-- A program all of whose requests keep a pact upholds it. -/
theorem ofUses {wanted : α → Prop} {program : Program Effect Effect.Reply α}
    (huses : program.Uses pact.Keeps wanted) (known : κ) :
    program.Upholds pact (fun _ => wanted) known :=
  ofUsesFrom (huses.weaken fun _ hkeeps later world _ => hkeeps later world)

end Program.Upholds

/-! ## Actions that uphold a pact -/

namespace Action.Upholds

variable {wanted : κ → α → Prop} {known : κ}

theorem pure {value : α} (hwanted : ∀ later, known ≤ later → wanted later value) :
    (Pure.pure value : Action α).Upholds pact wanted known where
  run := by
    rintro later hlater _ ⟨⟩
    exact hwanted later hlater

theorem throw (error : Error) : (MonadExcept.throw error : Action α).Upholds pact wanted known where
  run := by rintro _ _ _ ⟨⟩

/-- What is wanted of the second action may rely on what the first ended with and on all that was
known before it. -/
theorem bind {middle : κ → β → Prop} {action : Action β} {next : β → Action α}
    (hupholds : action.Upholds pact middle known)
    (hnext : ∀ later, known ≤ later → ∀ value, middle later value →
      (next value).Upholds pact wanted later) :
    (action >>= next).Upholds pact wanted known where
  run := by
    refine Program.Upholds.bind hupholds.run fun later hlater result hresult => ?_
    cases result with
    | ok value => exact (hnext later hlater value (hresult value rfl)).run
    | error error => exact (throw error).run

/-- Less may be wanted of the values an action ends with. -/
theorem mono {looser : κ → α → Prop} {action : Action α}
    (hupholds : action.Upholds pact wanted known)
    (hlooser : ∀ later value, wanted later value → looser later value) :
    action.Upholds pact looser known where
  run := hupholds.run.mono fun later _ hresult value hvalue =>
    hlooser later value (hresult value hvalue)

/-- An action all of whose requests keep a pact upholds it. -/
theorem ofUses {fine : α → Prop} {action : Action α} (huses : action.Uses pact.Keeps fine) :
    action.Upholds pact (fun _ => fine) known where
  run := .ofUses huses.run known

/-- An action all of whose requests keep a pact, by what is known before it, upholds the pact. -/
theorem ofUsesFrom {fine : α → Prop} {action : Action α}
    (huses : action.Uses (pact.KeepsFrom known) fine) :
    action.Upholds pact (fun _ => fine) known where
  run := .ofUsesFrom huses.run

/-- An action that keeps the pact comes before one that upholds it. -/
theorem afterUses {fine : β → Prop} {action : Action β} {next : β → Action α}
    (huses : action.Uses pact.Keeps fine)
    (hnext : ∀ later, known ≤ later → ∀ value, fine value →
      (next value).Upholds pact wanted later) :
    (action >>= next).Upholds pact wanted known :=
  (ofUses huses).bind hnext

/-- After a condition was required, it is given. -/
theorem require {condition : Bool} {error : Error} {next : Unit → Action α}
    (hnext : condition = true → (next ()).Upholds pact wanted known) :
    (Action.require condition error >>= next).Upholds pact wanted known := by
  cases condition with
  | false => exact throw error
  | true => exact hnext rfl

/-- After a value was demanded, it is there. -/
theorem demand {error : Error} {found : Option β} {next : β → Action α}
    (hnext : ∀ value, found = some value → (next value).Upholds pact wanted known) :
    (Action.demand error found >>= next).Upholds pact wanted known := by
  cases found with
  | none => exact throw error
  | some value => exact hnext value rfl

/-- After a check was made, it has succeeded. -/
theorem check {result : Except Error β} {next : β → Action α}
    (hnext : ∀ value, result = .ok value → (next value).Upholds pact wanted known) :
    (Action.check result >>= next).Upholds pact wanted known := by
  cases result with
  | error error => exact throw error
  | ok value => exact hnext value rfl

/-- A request upholds the pact if it keeps it and its reply is as wanted. -/
theorem perform {effect : Effect} {wanted : κ → effect.Reply → Prop}
    (hkeeps : ∀ later world, known ≤ later → pact.holds later world →
      pact.admits (World.perform effect world).2 →
      ∃ after, later ≤ after ∧ pact.holds after (World.perform effect world).2 ∧
        ∀ last, after ≤ last → wanted last (World.perform effect world).1) :
    (Action.perform effect).Upholds pact wanted known where
  run := by
    intro later world hlater hholds hadmits
    obtain ⟨after, hafter, hkept, hwanted⟩ := hkeeps later world hlater hholds hadmits
    refine ⟨after, hafter, hkept, ?_⟩
    rintro last hlast _ ⟨⟩
    exact hwanted last hlast

/-- Drawing a fresh id upholds the pact if it keeps it and the id is as wanted. -/
theorem freshId {wanted : κ → String → Prop}
    (hkeeps : ∀ later world, known ≤ later → pact.holds later world →
      pact.admits world.drawId.2 →
      ∃ after, later ≤ after ∧ pact.holds after world.drawId.2 ∧
        ∀ last, after ≤ last → wanted last world.drawId.1) :
    Action.freshId.Upholds pact wanted known :=
  @perform κ _ pact known .freshId wanted hkeeps

/-- A store call upholds the pact if it keeps it and its answer is as wanted. -/
theorem ask {call : Call} {wanted : κ → call.Answer → Prop}
    (hkeeps : ∀ later world, known ≤ later → pact.holds later world →
      pact.admits (world.callStore call).2 →
      ∃ after, later ≤ after ∧ pact.holds after (world.callStore call).2 ∧
        ∀ answer, (world.tables.perform call).1 = .ok answer →
          ∀ last, after ≤ last → wanted last answer) :
    (Action.ask call).Upholds pact wanted known where
  run := by
    intro later world hlater hholds hadmits
    obtain ⟨after, hafter, hkept, hwanted⟩ := hkeeps later world hlater hholds hadmits
    refine ⟨after, hafter, hkept, fun last hlast answer hanswer => ?_⟩
    exact hwanted answer (eq_ok_of_mapError hanswer) last hlast

/-- A call that is no write upholds the pact, and its answer may rely on it. -/
theorem read {call : Call} {wanted : κ → call.Answer → Prop} (hread : call.isWrite = false)
    (hwanted : ∀ later world, known ≤ later → pact.holds later world →
      pact.admits (world.callStore call).2 →
      ∀ answer, (world.tables.perform call).1 = .ok answer →
        ∀ last, later ≤ last → wanted last answer) :
    (Action.ask call).Upholds pact wanted known := by
  refine ask fun later world hlater hholds hadmits => ?_
  refine ⟨later, le_rfl, ?_, hwanted later world hlater hholds hadmits⟩
  exact pact.quiet (show (Effect.store call).isWrite = false from hread) hholds

end Action.Upholds

/-! ## Two pacts -/

omit [Preorder κ] in
/-- Two pacts over the same knowledge, together. -/
def Pact.and (first second : Pact κ) : Pact κ where
  admits world := first.admits world ∧ second.admits world
  holds known world := first.holds known world ∧ second.holds known world
  quiet hread hholds := ⟨first.quiet hread hholds.1, second.quiet hread hholds.2⟩
  shift hholds := ⟨first.shift hholds.1, second.shift hholds.2⟩

/-- A request that keeps the second pact, whatever more is known once it has kept the first. -/
def Pact.KeepsBeside (first second : Pact κ) (effect : Effect) : Prop :=
  ∀ known grown world, known ≤ grown → first.holds known world → second.holds known world →
    second.holds grown (World.perform effect world).2

/-- A program that upholds a pact upholds another one beside it, if its requests keep that one. -/
theorem Program.Upholds.beside {second : Pact κ} {wanted : κ → α → Prop} {fine : α → Prop}
    {program : Program Effect Effect.Reply α} {known : κ}
    (hupholds : program.Upholds pact wanted known)
    (huses : program.Uses (pact.KeepsBeside second) fine) :
    program.Upholds (pact.and second) wanted known := by
  induction program generalizing known with
  | done value => exact hupholds
  | ask effect rest ih =>
      intro later world hlater hholds hadmits
      obtain ⟨after, hafter, hkept, hrest⟩ := hupholds later world hlater hholds.1 hadmits.1
      have hsecond := huses.1 later after world hafter hholds.1 hholds.2
      exact ⟨after, hafter, ⟨hkept, hsecond⟩, ih _ hrest (huses.2 _)⟩

/-- An action that upholds a pact upholds another one beside it, if its requests keep that one. -/
theorem Action.Upholds.beside {second : Pact κ} {wanted : κ → α → Prop} {fine : α → Prop}
    {action : Action α} {known : κ} (hupholds : action.Upholds pact wanted known)
    (huses : action.Uses (pact.KeepsBeside second) fine) :
    action.Upholds (pact.and second) wanted known where
  run := hupholds.run.beside huses.run

/-! ## Operations -/

omit [Preorder κ] in
/-- All requests of an operation keep a pact that its writes keep. -/
theorem Operation.uses_of_writes (deployment : Deployment) (operation : Operation)
    (hwrites : ∀ call, operation.MayWrite call → pact.Keeps (.store call)) :
    (operation.action deployment).Uses pact.Keeps fun _ => True := by
  refine (operation.action_uses deployment).weaken fun effect hmay => ?_
  cases effect with
  | store call =>
      cases hwrite : call.isWrite with
      | true => exact hwrites call (hmay hwrite)
      | false => exact pact.keeps_quiet (.store call) hwrite
  | clock | freshId | randomBytes | note => exact pact.keeps_quiet _ rfl

/-- An operation upholds a pact that its writes keep. -/
theorem Operation.upholds_of_writes (deployment : Deployment) (operation : Operation) {known : κ}
    (hwrites : ∀ call, operation.MayWrite call → pact.Keeps (.store call)) :
    (operation.action deployment).Upholds pact (fun _ _ => True) known :=
  .ofUses (operation.uses_of_writes deployment hwrites)

/-! ## Runs -/

/-- With `known` being known, a pact holds in a configuration, and every running operation goes on
to uphold it. -/
structure Pact.IsKept (pact : Pact κ) (known : κ) (config : Configuration) : Prop where
  holds : pact.holds known config.world
  tasks : ∀ task ∈ config.tasks, task.rest.Upholds pact (fun _ _ => True) known

section Runs

variable {regime : Regime} {before after : Configuration} {known : κ}

/-- One step of a run keeps a pact that all operations uphold. -/
theorem Regime.Step.keeps (step : regime.Step before after)
    (admits : ∀ world, regime.admits world → pact.admits world)
    (upheld : ∀ deployment operation (known : κ), regime.deploys deployment →
      (Operation.action deployment operation).Upholds pact (fun _ _ => True) known)
    (kept : pact.IsKept known before) : ∃ grown, known ≤ grown ∧ pact.IsKept grown after := by
  obtain ⟨hholds, htasks⟩ := kept
  cases step with
  | start deployment operation deployed =>
      refine ⟨known, le_rfl, hholds, fun task htask => ?_⟩
      rcases List.mem_append.1 htask with htask | htask
      · exact htasks task htask
      · rw [List.mem_singleton.1 htask]
        exact (upheld deployment operation known deployed).run.mono fun _ _ _ => trivial
  | advance index admitted =>
      rcases before.advance_cases index with hsame | ⟨operation, effect, next, htask⟩
      · rw [hsame]
        exact ⟨known, le_rfl, hholds, htasks⟩
      · rw [Configuration.advance_ask htask] at admitted ⊢
        obtain ⟨grown, hgrown, hkept, hrest⟩ :=
          htasks _ (List.mem_of_getElem? htask) known before.world le_rfl hholds
            (admits _ admitted)
        refine ⟨grown, hgrown, hkept, fun task hlater => ?_⟩
        rcases List.mem_or_eq_of_mem_set hlater with hlater | rfl
        · exact (htasks task hlater).later hgrown
        · exact hrest
  | shift outside admitted => exact ⟨known, le_rfl, pact.shift hholds, htasks⟩

/-- A pact that all operations uphold is kept however a run goes on, and what is known only
grows. -/
theorem Regime.Continues.keeps (continues : regime.Continues before after)
    (admits : ∀ world, regime.admits world → pact.admits world)
    (upheld : ∀ deployment operation (known : κ), regime.deploys deployment →
      (Operation.action deployment operation).Upholds pact (fun _ _ => True) known)
    (kept : pact.IsKept known before) : ∃ grown, known ≤ grown ∧ pact.IsKept grown after := by
  induction continues with
  | refl => exact ⟨known, le_rfl, kept⟩
  | tail _ step ih =>
      obtain ⟨middle, hmiddle, hkept⟩ := ih
      obtain ⟨grown, hgrown, hafter⟩ := step.keeps admits upheld hkept
      exact ⟨grown, hmiddle.trans hgrown, hafter⟩

/-- A pact that all operations uphold is kept throughout every run. -/
theorem Regime.Reaches.upholds {world : World} (reaches : regime.Reaches world after)
    (admits : ∀ world, regime.admits world → pact.admits world)
    (begins : pact.holds known world)
    (upheld : ∀ deployment operation (known : κ), regime.deploys deployment →
      (Operation.action deployment operation).Upholds pact (fun _ _ => True) known) :
    ∃ grown, pact.IsKept grown after := by
  have kept : pact.IsKept known (.initial world) := ⟨begins, by simp [Configuration.initial]⟩
  obtain ⟨grown, -, hafter⟩ := Regime.Continues.keeps reaches admits upheld kept
  exact ⟨grown, hafter⟩

end Runs
end Tenancy
