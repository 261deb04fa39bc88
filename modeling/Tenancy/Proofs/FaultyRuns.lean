import Tenancy.Proofs.KeyedRecords
import Tenancy.Proofs.SoloRuns

/-!
# Tenancy - Runs where calls go wrong

A call may fail before it reaches the store, or answer as if there were nothing there.
This file gives a logic for whatever calls go wrong that way: where an action fails it
leaves tables as wanted, and where it succeeds it ends as wanted.

Main definitions:

- `World.MayReply`: the replies that a request may get where calls go wrong.
- `Program.Withstands`, `Action.Withstands`: however calls go wrong, a run leaves what is
  wanted.
- `Configuration.falter`, `Regime.Endures`: runs of many operations where calls go wrong.

Main results:

- Theorem `Tables.perform_of_refused`: a call that the store refuses changes nothing.
- Theorem `Action.Withstands.bind`, `Action.Withstands.afterAsk`,
  `Action.Withstands.quietly`: actions in sequence.
- Theorem `Action.Withstands.runFaulty`: what an action withstands holds under every
  fault plan.
- Theorem `Regime.Endures.invariant`: what steps keep holds also where calls go wrong.
- Theorem `Regime.Endures.hasDistinctKeys`: records keep distinct keys where calls go
  wrong.
-/

namespace Tenancy

/-! ## Calls that are refused -/

/-- A call that the store refuses changes nothing. -/
theorem Tables.perform_of_refused {tables : Tables} {call : Call} {error : StoreError} :
    (tables.perform call).1 = .error error → (tables.perform call).2 = tables := by
  cases call with
  | organizations call =>
      cases call with
      | create | update =>
          simp only [perform, performOrganization]
          split <;> try split
          all_goals first | exact fun _ => rfl | (intro hrefused; cases hrefused)
      | findById | findBySlug | findByDisplayName | list => exact fun _ => rfl
  | memberships call =>
      cases call with
      | insert | applyChange | delete =>
          simp only [perform, performMembership]
          split
          all_goals first | exact fun _ => rfl | (intro hrefused; cases hrefused)
      | find | listForUser | query => exact fun _ => rfl
  | roles call =>
      cases call with
      | create | update | changeGrants =>
          simp only [perform, performRole]
          split <;> try split
          all_goals first | exact fun _ => rfl | (intro hrefused; cases hrefused)
      | delete =>
          intro hrefused
          cases hrefused
      | find | findMany | findByName | list | listAssignable | grantsOf => exact fun _ => rfl
  | invitations call =>
      cases call with
      | create =>
          simp only [perform, performInvitation]
          split
          all_goals first | exact fun _ => rfl | (intro hrefused; cases hrefused)
      | delete | deleteExpired =>
          intro hrefused
          cases hrefused
      | findByCode | findForEmail | listForOrganization => exact fun _ => rfl
  | directory | catalog => exact fun _ => tables.perform_of_not_write rfl

/-! ## Replies where calls go wrong -/

/-- The replies that a request may get where calls go wrong in some ways, and the worlds after them:
a call that goes wrong does not reach the store. -/
def World.MayReply (strikes : Fault → Prop) (world : World) :
    (effect : Effect) → effect.Reply → World → Prop
  | .store call, reply, after =>
    world.callStore call = (reply, after) ∨
      (∃ fault, strikes fault ∧ fault.reply? call = some reply) ∧ after = world
  | effect, reply, after => World.perform effect world = (reply, after)

namespace World.MayReply

variable {strikes : Fault → Prop} {world after : World} {call : Call}

/-- A fault plan gives the replies that are possible where its faults are. -/
theorem performFaulty {plan : FaultPlan}
    (hplan : ∀ made call fault, plan made call = some fault → strikes fault) (effect : Effect)
    (world : World) (made : Nat) :
    world.MayReply strikes effect (World.performFaulty plan effect (world, made)).1
      (World.performFaulty plan effect (world, made)).2.1 := by
  cases effect with
  | clock | freshId | randomBytes | note => rfl
  | store call =>
      unfold World.performFaulty
      dsimp only
      split
      · rename_i reply hstruck
        obtain ⟨fault, hfault, hreply⟩ := Option.bind_eq_some_iff.1 hstruck
        exact .inr ⟨⟨fault, hplan made call fault hfault, hreply⟩, rfl⟩
      · exact .inl rfl

/-- A call that fails changes nothing, whether it was refused or went wrong. -/
theorem tables_of_error {error : StoreError}
    (hreply : world.MayReply strikes (.store call) (.error error) after) :
    after.tables = world.tables := by
  rcases hreply with hgenuine | ⟨-, rfl⟩
  · obtain ⟨hrefused, rfl⟩ := Prod.mk.inj hgenuine
    exact Tables.perform_of_refused hrefused
  · rfl

/-- A call that is answered was answered by the store, or with silence. -/
theorem answered {answer : call.Answer}
    (hreply : world.MayReply strikes (.store call) (.ok answer) after) :
    world.callStore call = (.ok answer, after) ∨ call.silence? = some answer ∧ after = world := by
  rcases hreply with hgenuine | ⟨⟨fault, -, hfault⟩, rfl⟩
  · exact .inl hgenuine
  · refine .inr ⟨?_, rfl⟩
    cases fault with
    | fails error => cases hfault
    | silent => simpa [Fault.reply?] using hfault

/-- A call that is no write leaves the world as it is; if it is answered, then with what the tables
say or with silence. -/
theorem read (hread : call.isWrite = false) {answer : call.Answer}
    (hreply : world.MayReply strikes (.store call) (.ok answer) after) :
    after = world ∧
      ((world.tables.perform call).1 = .ok answer ∨ call.silence? = some answer) := by
  rcases hreply.answered with hgenuine | ⟨hsilent, rfl⟩
  · have hafter : (world.callStore call).2 = after := congrArg Prod.snd hgenuine
    exact ⟨hafter.symm.trans (Action.callStore_of_not_write hread),
      .inl (congrArg Prod.fst hgenuine)⟩
  · exact ⟨rfl, .inr hsilent⟩

/-- A request that is no write leaves the tables and the clock as they are. -/
theorem of_not_write {effect : Effect} {reply : effect.Reply} (hread : effect.isWrite = false)
    (hreply : world.MayReply strikes effect reply after) :
    after.tables = world.tables ∧ after.clock = world.clock := by
  cases effect with
  | store call =>
      rcases hreply with hgenuine | ⟨-, rfl⟩
      · obtain ⟨-, rfl⟩ := Prod.mk.inj hgenuine
        exact ⟨world.tables.perform_of_not_write hread, rfl⟩
      · exact ⟨rfl, rfl⟩
  | clock | freshId | randomBytes | note =>
      obtain ⟨-, rfl⟩ := Prod.mk.inj hreply
      exact ⟨rfl, rfl⟩

end World.MayReply

/-! ## Programs -/

/-- However calls go wrong in the given ways, a run of a program from a world ends as wanted. -/
def Program.Withstands {α : Type} (strikes : Fault → Prop) (ends : α → World → Prop) :
    Program Effect Effect.Reply α → World → Prop
  | .done value, world => ends value world
  | .ask effect next, world => ∀ reply after, world.MayReply strikes effect reply after →
      (next reply).Withstands strikes ends after

namespace Program.Withstands

variable {α β : Type} {strikes : Fault → Prop} {world : World}

/-- Two programs in sequence. -/
theorem bind {middle : α → World → Prop} {ends : β → World → Prop}
    {program : Program Effect Effect.Reply α} {next : α → Program Effect Effect.Reply β}
    (hwithstands : program.Withstands strikes middle world)
    (hnext : ∀ value after, middle value after → (next value).Withstands strikes ends after) :
    (program.bind next).Withstands strikes ends world := by
  induction program generalizing world with
  | done value => exact hnext value world hwithstands
  | ask effect rest ih => exact fun reply after hreply => ih reply (hwithstands reply after hreply)

/-- A program without writes leaves the tables and the clock as they are. -/
theorem ofUses {fine : α → Prop} {program : Program Effect Effect.Reply α}
    (huses : program.Uses (fun effect => effect.isWrite = false) fine) :
    program.Withstands strikes (fun value after =>
      fine value ∧ after.tables = world.tables ∧ after.clock = world.clock) world := by
  suffices hall : ∀ first : World, first.tables = world.tables → first.clock = world.clock →
      program.Withstands strikes (fun value after =>
        fine value ∧ after.tables = world.tables ∧ after.clock = world.clock) first from
    hall world rfl rfl
  induction program with
  | done value => exact fun first htables hclock => ⟨huses, htables, hclock⟩
  | ask effect rest ih =>
      intro first htables hclock reply after hreply
      obtain ⟨hsame, htime⟩ := hreply.of_not_write huses.1
      exact ih reply (huses.2 reply) after (hsame.trans htables) (htime.trans hclock)

/-- What a program withstands holds under every plan of such faults. -/
theorem run {ends : α → World → Prop} {program : Program Effect Effect.Reply α}
    (hwithstands : program.Withstands strikes ends world) {plan : FaultPlan}
    (hplan : ∀ made call fault, plan made call = some fault → strikes fault) (made : Nat) :
    ends (program.run (World.performFaulty plan) (world, made)).1
      (program.run (World.performFaulty plan) (world, made)).2.1 := by
  induction program generalizing world made with
  | done value => exact hwithstands
  | ask effect rest ih => exact ih _ (hwithstands _ _ (.performFaulty hplan effect world made)) _

end Program.Withstands

/-! ## Actions -/

/-- How an action may end: where it failed, with tables of one kind; where it succeeded, in a world
and with a value as wanted. -/
def Action.EndsIn {α : Type} (failed : Tables → Prop) (wanted : World → α → Prop) :
    Except Error α → World → Prop
  | .ok value, after => wanted after value
  | .error _, after => failed after.tables

/-- However calls go wrong in the given ways, an action from a world ends as it may. -/
structure Action.Withstands {α : Type} (strikes : Fault → Prop) (failed : Tables → Prop)
    (wanted : World → α → Prop) (world : World) (action : Action α) : Prop where
  run : action.run.Withstands strikes (Action.EndsIn failed wanted) world

namespace Action.Withstands

variable {α β : Type} {strikes : Fault → Prop} {failed : Tables → Prop} {wanted : World → α → Prop}
variable {world : World}

/-- What an action withstands holds under every plan of such faults. -/
theorem runFaulty {action : Action α} (hwithstands : action.Withstands strikes failed wanted world)
    (plan : FaultPlan)
    (hplan : ∀ made call fault, plan made call = some fault → strikes fault) :
    Action.EndsIn failed wanted (action.runFaulty plan world).1 (action.runFaulty plan world).2 :=
  hwithstands.run.run hplan 0

theorem pure {value : α} (hwanted : wanted world value) :
    (Pure.pure value : Action α).Withstands strikes failed wanted world where
  run := hwanted

theorem throw (error : Error) (hfailed : failed world.tables) :
    (MonadExcept.throw error : Action α).Withstands strikes failed wanted world where
  run := hfailed

/-- The second action runs where the first one ended, if it succeeded. -/
theorem bind {middle : World → β → Prop} {action : Action β} {next : β → Action α}
    (hfirst : action.Withstands strikes failed middle world)
    (hnext : ∀ after value, middle after value →
      (next value).Withstands strikes failed wanted after) :
    (action >>= next).Withstands strikes failed wanted world where
  run := by
    refine hfirst.run.bind fun result after hresult => ?_
    cases result with
    | ok value => exact (hnext after value hresult).run
    | error error => exact (throw error hresult).run

/-- After a condition was required, it is given. -/
theorem require {condition : Bool} {error : Error} {next : Unit → Action α}
    (hfailed : failed world.tables)
    (hnext : condition = true → (next ()).Withstands strikes failed wanted world) :
    (Action.require condition error >>= next).Withstands strikes failed wanted world := by
  cases condition with
  | false => exact throw error hfailed
  | true => exact hnext rfl

/-- After a value was demanded, it is there. -/
theorem demand {error : Error} {found : Option β} {next : β → Action α}
    (hfailed : failed world.tables)
    (hnext : ∀ value, found = some value → (next value).Withstands strikes failed wanted world) :
    (Action.demand error found >>= next).Withstands strikes failed wanted world := by
  cases found with
  | none => exact throw error hfailed
  | some value => exact hnext value rfl

/-- After a check was made, it has succeeded. -/
theorem check {result : Except Error β} {next : β → Action α} (hfailed : failed world.tables)
    (hnext : ∀ value, result = .ok value → (next value).Withstands strikes failed wanted world) :
    (Action.check result >>= next).Withstands strikes failed wanted world := by
  cases result with
  | error error => exact throw error hfailed
  | ok value => exact hnext value rfl

/-- After the clock was read, its reading is known. -/
theorem now {next : Nat → Action α}
    (hnext : (next world.clock).Withstands strikes failed wanted world) :
    (Action.now >>= next).Withstands strikes failed wanted world where
  run := by
    rintro _ _ ⟨⟩
    exact hnext.run

/-- Leaving a note does not fail. -/
theorem note {note : AuditNote} {next : Unit → Action α}
    (hnext : ∀ after, (next ()).Withstands strikes failed wanted after) :
    (Action.note note >>= next).Withstands strikes failed wanted world where
  run _ after _ := (hnext after).run

/-- Leaving a note does not fail, at the end either. -/
theorem lastNote (note : AuditNote) :
    (Action.note note).Withstands strikes failed (fun _ _ => True) world where
  run _ _ _ := trivial

/-- After a call that was attempted, its reply is known. -/
theorem afterAttempt {call : Call} {next : Except StoreError call.Answer → Action α}
    (hnext : ∀ reply after, world.MayReply strikes (.store call) reply after →
      (next reply).Withstands strikes failed wanted after) :
    (Action.attempt call >>= next).Withstands strikes failed wanted world where
  run reply after hreply := (hnext reply after hreply).run

/-- After a call, it was answered. -/
theorem afterAsk {call : Call} {next : call.Answer → Action α} (hfailed : failed world.tables)
    (hnext : ∀ answer after, world.MayReply strikes (.store call) (.ok answer) after →
      (next answer).Withstands strikes failed wanted after) :
    (Action.ask call >>= next).Withstands strikes failed wanted world where
  run := by
    intro reply after hreply
    cases reply with
    | ok answer => exact (hnext answer after hreply).run
    | error error =>
        have hkept := hreply.tables_of_error
        exact (throw (Error.storage error) (hkept ▸ hfailed)).run

/-- A call at the end either fails, or nothing more is wanted. -/
theorem lastAsk (call : Call) (hfailed : failed world.tables) :
    (Action.ask call).Withstands strikes failed (fun _ _ => True) world where
  run := by
    intro reply after hreply
    cases reply with
    | ok answer => trivial
    | error error =>
        have hkept := hreply.tables_of_error
        exact (throw (Error.storage error) (hkept ▸ hfailed)).run

/-- An action without writes leaves the tables and the clock as they are. -/
theorem afterUses {fine : β → Prop} {action : Action β} {next : β → Action α}
    (huses : action.Uses (fun effect => effect.isWrite = false) fine)
    (hfailed : failed world.tables)
    (hnext : ∀ after value, after.tables = world.tables → after.clock = world.clock → fine value →
      (next value).Withstands strikes failed wanted after) :
    (action >>= next).Withstands strikes failed wanted world where
  run := by
    refine (Program.Withstands.ofUses huses.run).bind fun result after hresult => ?_
    obtain ⟨hfine, htables, hclock⟩ := hresult
    cases result with
    | ok value => exact (hnext after value htables hclock (hfine value rfl)).run
    | error error => exact (throw error (htables ▸ hfailed)).run

/-- After an action without writes, failing is still as it may be. -/
theorem quietly {fine : β → Prop} {action : Action β} {next : β → Action α}
    (huses : action.Uses (fun effect => effect.isWrite = false) fine)
    (hfailed : failed world.tables)
    (hnext : ∀ after value, failed after.tables →
      (next value).Withstands strikes failed wanted after) :
    (action >>= next).Withstands strikes failed wanted world :=
  afterUses huses hfailed fun after value htables _ _ => hnext after value (htables ▸ hfailed)

/-- An action without writes, at the end. -/
theorem ofUses {fine : α → Prop} {action : Action α}
    (huses : action.Uses (fun effect => effect.isWrite = false) fine)
    (hfailed : failed world.tables) :
    action.Withstands strikes failed (fun _ _ => True) world := by
  have hbind : (action >>= Pure.pure).Withstands strikes failed (fun _ _ => True) world :=
    quietly huses hfailed fun _ _ _ => pure trivial
  rwa [bind_pure] at hbind

end Action.Withstands

/-! ## Runs of many operations -/

/-- Let the next store call of a running operation go wrong; nothing happens where it cannot. -/
def Configuration.falter (config : Configuration) (index : Nat) (fault : Fault) : Configuration :=
  match config.tasks[index]? with
  | some ⟨operation, .ask (.store call) next⟩ =>
    match fault.reply? call with
    | some reply =>
      { config with
        tasks := config.tasks.set index ⟨operation, next reply⟩
        history := config.history ++ [⟨index, .store call, reply⟩] }
    | none => config
  | _ => config

/-- A call that goes wrong does not reach the world. -/
theorem Configuration.falter_world (config : Configuration) (index : Nat) (fault : Fault) :
    (config.falter index fault).world = config.world := by
  unfold falter
  split
  · split <;> rfl
  · rfl

/-- One step of a run where store calls may go wrong. -/
inductive Regime.FaultyStep (regime : Regime) : Configuration → Configuration → Prop
  | step {before after : Configuration} (step : regime.Step before after) :
      FaultyStep regime before after
  | falter (config : Configuration) (index : Nat) (fault : Fault) :
      FaultyStep regime config (config.falter index fault)

/-- The configurations that runs from a world reach where store calls may go wrong. -/
def Regime.Endures (regime : Regime) (world : World) (config : Configuration) : Prop :=
  Relation.ReflTransGen regime.FaultyStep (.initial world) config

section Runs

variable {regime : Regime} {world : World} {config : Configuration}

/-- A run where no call goes wrong is one where calls may go wrong. -/
theorem Regime.Reaches.endures (reaches : regime.Reaches world config) :
    regime.Endures world config := by
  induction reaches with
  | refl => exact .refl
  | tail _ step ih => exact .tail ih (.step step)

/-- What steps keep where no call goes wrong holds where store calls may go wrong. -/
theorem Regime.Endures.invariant {inv : World → Prop} (endures : regime.Endures world config)
    (begins : inv world)
    (keeps : ∀ before after, regime.Step before after → inv before.world → inv after.world) :
    inv config.world := by
  induction endures with
  | refl => exact begins
  | tail _ step ih =>
      cases step with
      | step step => exact keeps _ _ step ih
      | falter index fault =>
          rw [Configuration.falter_world]
          exact ih

/-- Where store calls may go wrong, records keep distinct keys. -/
theorem Regime.Endures.hasDistinctKeys (starts : regime.Starts world)
    (endures : regime.Endures world config) : config.world.tables.HasDistinctKeys :=
  @Regime.Endures.invariant regime world config (·.tables.HasDistinctKeys) endures
    starts.noRecords.hasDistinctKeys fun _ _ step => step.hasDistinctKeys

end Runs
end Tenancy
