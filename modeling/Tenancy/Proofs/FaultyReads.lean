import Tenancy.Proofs.FaultyRuns

/-!
# Tenancy - Readers where calls go wrong

An action that only reads leaves the world as it is, whatever goes wrong on the way.
This file follows such actions under one fault plan, call by call.  A call to a
collaborator may be attempted; a call about memberships or roles that fails is the
failure of the action, and the exchanges of the run show which call is to blame.

Main definitions:

- `Program.exchangesUnder`, `Action.exchangesUnder`: the exchanges of a run under a
  fault plan.
- `World.Answers`: the replies that a call may get under a fault plan.
- `Error.BlamedOn`: errors of membership and role calls that were made to fail.
- `Action.Weathers`: actions that leave the world as it is, and fail only with such errors.

Main results:

- Theorem `Program.exchangesUnder_bind`: two programs in sequence make the exchanges of both.
- Theorem `World.Answers.genuine_or_struck`: a reply is what the store says, or a fault.
- Theorem `Action.Weathers.bind`, `Action.Weathers.ask`, `Action.Weathers.attempt`:
  following a run under faults call by call.
-/

namespace Tenancy

/-! ## Exchanges of a run under faults -/

/-- The exchanges of a run under a fault plan, in order; the state counts the store calls so far. -/
def Program.exchangesUnder {α : Type} (plan : FaultPlan) :
    Program Effect Effect.Reply α → World × Nat → List Exchange
  | .done _, _ => []
  | .ask effect next, state =>
    let (reply, after) := World.performFaulty plan effect state
    ⟨effect, reply⟩ :: (next reply).exchangesUnder plan after

/-- Two programs in sequence make the exchanges of both. -/
theorem Program.exchangesUnder_bind {α β : Type} (plan : FaultPlan)
    (program : Program Effect Effect.Reply α) (next : α → Program Effect Effect.Reply β)
    (state : World × Nat) :
    (program.bind next).exchangesUnder plan state = program.exchangesUnder plan state ++
      (next (program.run (World.performFaulty plan) state).1).exchangesUnder plan
        (program.run (World.performFaulty plan) state).2 := by
  induction program generalizing state with
  | done value => rfl
  | ask effect rest ih => exact congrArg (_ :: ·) (ih _ _)

/-- The exchanges of a run of an action under a fault plan, in order. -/
def Action.exchangesUnder {α : Type} (action : Action α) (plan : FaultPlan) (world : World) :
    List Exchange :=
  action.run.exchangesUnder plan (world, 0)

/-! ## Replies under a fault plan -/

/-- A call may get this reply under a fault plan, at some point of a run. -/
def World.Answers (world : World) (plan : FaultPlan) (call : Call)
    (reply : Except StoreError call.Answer) : Prop :=
  ∃ made, (World.performFaulty plan (.store call) (world, made)).1 = reply

namespace World.Answers

variable {world : World} {plan : FaultPlan} {call : Call} {reply : Except StoreError call.Answer}

/-- A reply is what the store says, or a fault of the plan. -/
theorem genuine_or_struck (answers : world.Answers plan call reply) :
    (world.tables.perform call).1 = reply ∨
      ∃ made fault, plan made call = some fault ∧ fault.reply? call = some reply := by
  obtain ⟨made, rfl⟩ := answers
  simp only [World.performFaulty]
  split
  · rename_i struck hstruck
    obtain ⟨fault, hfault, hreply⟩ := Option.bind_eq_some_iff.1 hstruck
    exact .inr ⟨made, fault, hfault, hreply⟩
  · exact .inl rfl

/-- A call that the plan spares is answered by the store. -/
theorem genuine (hspared : ∀ made, plan made call = none)
    (answers : world.Answers plan call reply) : (world.tables.perform call).1 = reply := by
  rcases answers.genuine_or_struck with hgenuine | ⟨made, fault, hfault, -⟩
  · exact hgenuine
  · rw [hspared made] at hfault
    cases hfault

/-- A call that the plan always strikes fails or answers with nothing. -/
theorem struck (hstruck : ∀ made, ∃ fault, plan made call = some fault) {nothing : call.Answer}
    (hsilence : call.silence? = some nothing) (answers : world.Answers plan call reply) :
    (∃ failure, reply = .error failure) ∨ reply = .ok nothing := by
  obtain ⟨made, rfl⟩ := answers
  obtain ⟨fault, hfault⟩ := hstruck made
  cases fault with
  | fails error => simp [World.performFaulty, hfault, Fault.reply?]
  | silent => simp [World.performFaulty, hfault, Fault.reply?, hsilence]

/-- An answer is what the store says, or nothing. -/
theorem answered {answer nothing : call.Answer} (hsilence : call.silence? = some nothing)
    (answers : world.Answers plan call (.ok answer)) :
    (world.tables.perform call).1 = .ok answer ∨ answer = nothing := by
  rcases answers.genuine_or_struck with hgenuine | ⟨-, fault, -, hreply⟩
  · exact .inl hgenuine
  · cases fault with
    | fails error => cases hreply
    | silent =>
        simp only [Fault.reply?, hsilence, Option.map_some, Option.some.injEq,
          Except.ok.injEq] at hreply
        exact .inr hreply.symm

/-- Where the store answers, a failure comes from the plan. -/
theorem planned {answer : call.Answer} {failure : StoreError}
    (hanswer : (world.tables.perform call).1 = .ok answer)
    (answers : world.Answers plan call (.error failure)) :
    ∃ made, plan made call = some (.fails failure) := by
  rcases answers.genuine_or_struck with hgenuine | ⟨made, fault, hfault, hreply⟩
  · rw [hanswer] at hgenuine
    cases hgenuine
  · cases fault with
    | fails error =>
        cases hreply
        exact ⟨made, hfault⟩
    | silent => cases hsilence : call.silence? <;> simp [Fault.reply?, hsilence] at hreply

end World.Answers

/-! ## Whom to blame -/

/-- Calls about memberships and roles. -/
def Call.IsOfMembersOrRoles : Call → Prop
  | .memberships _ | .roles _ => True
  | _ => False

/-- An error is the failure of a membership or role call that was made, and that the plan made
fail. -/
def Error.BlamedOn (error : Error) (plan : FaultPlan) (exchanges : List Exchange) : Prop :=
  ∃ call failure, Call.IsOfMembersOrRoles call ∧ error = .storage failure ∧
    (∃ made, plan made call = some (.fails failure)) ∧
    ⟨.store call, .error failure⟩ ∈ exchanges

/-- An error stays blamed when more exchanges are known. -/
theorem Error.BlamedOn.mono {error : Error} {plan : FaultPlan} {known more : List Exchange}
    (blamed : error.BlamedOn plan known) (hsub : known ⊆ more) : error.BlamedOn plan more := by
  obtain ⟨call, failure, hcall, herror, hplan, hmem⟩ := blamed
  exact ⟨call, failure, hcall, herror, hplan, hsub hmem⟩

/-- How an action may end under a fault plan: with a value as wanted, or with the failure of a
membership or role call. -/
def Action.EndsBlaming {α : Type} (plan : FaultPlan) (wanted : α → Prop)
    (exchanges : List Exchange) : Except Error α → Prop
  | .ok value => wanted value
  | .error error => error.BlamedOn plan exchanges

/-- Under a fault plan, an action leaves the world as it is and ends with a value as wanted, unless
a membership or role call fails. -/
structure Action.Weathers {α : Type} (plan : FaultPlan) (world : World) (wanted : α → Prop)
    (action : Action α) : Prop where
  run : ∀ made, ∃ result later,
    action.run.run (World.performFaulty plan) (world, made) = (result, world, later) ∧
      Action.EndsBlaming plan wanted (action.run.exchangesUnder plan (world, made)) result

namespace Action.Weathers

variable {α β : Type} {plan : FaultPlan} {world : World} {wanted : α → Prop}

theorem pure {value : α} (hwanted : wanted value) :
    (Pure.pure value : Action α).Weathers plan world wanted where
  run made := ⟨.ok value, made, rfl, hwanted⟩

/-- The second action runs if the first one succeeded; the blame for an error may lie with
either. -/
theorem bind {middle : β → Prop} {action : Action β} {next : β → Action α}
    (hfirst : action.Weathers plan world middle)
    (hnext : ∀ value, middle value → (next value).Weathers plan world wanted) :
    (action >>= next).Weathers plan world wanted where
  run made := by
    obtain ⟨result, later, hrun, hended⟩ := hfirst.run made
    have hwhole : (action >>= next).run.run (World.performFaulty plan) (world, made) = _ :=
      Program.run_bind (World.performFaulty plan) action.run (ExceptT.bindCont next) (world, made)
    have hexchanges : (action >>= next).run.exchangesUnder plan (world, made) = _ :=
      Program.exchangesUnder_bind plan action.run (ExceptT.bindCont next) (world, made)
    rw [hrun] at hexchanges hwhole
    rw [hexchanges, hwhole]
    cases result with
    | ok value =>
        obtain ⟨last, latest, hlast, hwanted⟩ := (hnext value hended).run later
        refine ⟨last, latest, hlast, ?_⟩
        cases last with
        | ok value => exact hwanted
        | error error => exact hwanted.mono (List.subset_append_right _ _)
    | error error => exact ⟨.error error, later, rfl, hended.mono (List.subset_append_left _ _)⟩

/-- A call that only reads is answered and leaves the world as it is. -/
theorem performFaulty_read (plan : FaultPlan) (world : World) {call : Call}
    (hread : call.isWrite = false) (made : Nat) : ∃ reply,
      World.performFaulty plan (.store call) (world, made) = (reply, world, made + 1) ∧
        world.Answers plan call reply := by
  have hworld : (World.performFaulty plan (.store call) (world, made)).2 = (world, made + 1) := by
    simp only [World.performFaulty]
    split
    · rfl
    · exact congrArg (·, made + 1) (callStore_of_not_write hread)
  exact ⟨_, Prod.ext rfl hworld, made, rfl⟩

/-- A membership or role call that only reads is answered, or to blame. -/
theorem ask {call : Call} {stored : call.Answer} (hread : call.isWrite = false)
    (hkind : call.IsOfMembersOrRoles) (hstored : (world.tables.perform call).1 = .ok stored) :
    (Action.ask call).Weathers plan world fun answer => world.Answers plan call (.ok answer) where
  run made := by
    obtain ⟨reply, hreply, answers⟩ := performFaulty_read plan world hread made
    refine ⟨reply.mapError .storage, made + 1, ?_, ?_⟩
    · change ((World.performFaulty plan (.store call) (world, made)).1.mapError Error.storage,
        (World.performFaulty plan (.store call) (world, made)).2) = _
      rw [hreply]
    · cases reply with
      | ok answer => exact answers
      | error failure =>
          refine ⟨call, failure, hkind, rfl, answers.planned hstored, ?_⟩
          have hmade : (⟨.store call, .error failure⟩ : Exchange) =
              ⟨.store call, (World.performFaulty plan (.store call) (world, made)).1⟩ := by
            rw [hreply]
          rw [hmade]
          exact List.mem_cons_self

/-- A call that only reads may be attempted, whether it is answered or not. -/
theorem attempt {call : Call} (hread : call.isWrite = false) :
    (Action.attempt call).Weathers plan world fun reply => world.Answers plan call reply where
  run made := by
    obtain ⟨reply, hreply, answers⟩ := performFaulty_read plan world hread made
    refine ⟨.ok reply, made + 1, ?_, answers⟩
    change (Except.ok (World.performFaulty plan (.store call) (world, made)).1,
      (World.performFaulty plan (.store call) (world, made)).2) = _
    rw [hreply]

/-- A run from the first call on leaves the world as it is and ends with a value as wanted, or with
an error that a call is blamed for. -/
theorem runFaulty {action : Action α} (weathers : action.Weathers plan world wanted) :
    (action.runFaulty plan world).2 = world ∧ EndsBlaming plan wanted
      (action.exchangesUnder plan world) (action.runFaulty plan world).1 := by
  obtain ⟨result, later, hrun, hended⟩ := weathers.run 0
  have hfaulty : action.runFaulty plan world = (result, world) := by
    unfold Action.runFaulty
    rw [hrun]
  rw [hfaulty]
  exact ⟨rfl, hended⟩

end Action.Weathers

end Tenancy
