import Mathlib.Algebra.BigOperators.Group.Finset.Piecewise
import Mathlib.Algebra.Order.BigOperators.Group.Finset
import Tenancy.Proofs.Footprint

/-!
# Tenancy - Transcripts of operations

The history of a run mixes the requests of all operations.  The transcript of one
operation is its part of the history; the operation's program determines it up to
the replies.  So a fact about what a program may have done on the way can be read
off its transcript, and counting in the history is counting in the transcripts.

Main definitions:

- `Exchange.IsHonest`: a reply that some world gives.
- `transcriptOf`: the exchanges of one operation in a history.
- `Configuration.readings`: what is read off the exchanges of a configuration.
- `Regime.Exchanges`: a run has made an exchange at some point.
- `Program.Follows`: what is left of a program after a transcript.
- `Program.Owes`, `Action.Owes`: programs that make an exchange of some kind
  before they end.
- `Program.Leaves`, `Action.Leaves`: what is read off the exchanges of a program when
  it ends.

Main results:

- Theorem `Regime.Reaches.recorded`, `Regime.Reaches.followsUnder`: running operations follow
  their transcripts, under deployments of the regime.
- Theorem `Configuration.Recorded.count_readings`: a count in the history is the sum
  over the transcripts.
- Theorem `Action.Uses.of_follows_bind`: a request that the first of two actions does not
  make belongs to the second.
- Theorem `Regime.Continues.history_prefix`, `Regime.Continues.task_ended`: the history of a
  run only grows, and operations that have ended stay as they are.
- Theorem `Regime.Reaches.exists_exchanges`: each exchange in the history of a run was made
  at some point of it.
- Theorem `Regime.Reaches.add_count_le`: no more of something is stored and has ended than
  was made.
- Theorem `Program.Owes.paid`, `Configuration.Recorded.owed`: what is owed is in the
  transcript in the end.
- Theorem `Program.Leaves.left`, `Configuration.Recorded.leavesUnder`: what a program or
  an operation leaves is in its transcript.
-/

namespace Tenancy

/-- A reply is honest if some world gives it. -/
def Exchange.IsHonest (exchange : Exchange) : Prop :=
  ∃ world, (World.perform exchange.effect world).1 = exchange.reply

/-- The exchanges of one operation in a history. -/
def transcriptOf (history : List Event) (index : Nat) : List Exchange :=
  (history.filter (·.task == index)).map (·.exchange)

/-- A program has come through a transcript, and this is left of it. -/
inductive Program.Follows {α : Type} :
    Program Effect Effect.Reply α → List Exchange → Program Effect Effect.Reply α → Prop
  | nil (program : Program Effect Effect.Reply α) : Follows program [] program
  | cons {effect : Effect} {next : effect.Reply → Program Effect Effect.Reply α}
      {transcript : List Exchange} {left : Program Effect Effect.Reply α} (reply : effect.Reply)
      (rest : Follows (next reply) transcript left) :
      Follows (.ask effect next) (⟨effect, reply⟩ :: transcript) left

/-- The next request and its reply go to the end of the transcript. -/
theorem Program.Follows.snoc {α : Type} {program : Program Effect Effect.Reply α}
    {transcript : List Exchange} {effect : Effect}
    {next : effect.Reply → Program Effect Effect.Reply α}
    (follows : program.Follows transcript (.ask effect next)) (reply : effect.Reply) :
    program.Follows (transcript ++ [⟨effect, reply⟩]) (next reply) := by
  generalize hleft : Program.ask effect next = left at follows
  induction follows with
  | nil program =>
      subst hleft
      exact .cons reply (.nil _)
  | cons earlier rest ih => exact .cons earlier (ih hleft)

/-! ## Histories -/

/-- The transcript of two parts of a history. -/
theorem transcriptOf_append (first second : List Event) (index : Nat) :
    transcriptOf (first ++ second) index =
      transcriptOf first index ++ transcriptOf second index := by
  simp [transcriptOf]

/-- An event of the operation goes to the end of its transcript. -/
theorem transcriptOf_append_self (history : List Event) (index : Nat) (exchange : Exchange) :
    transcriptOf (history ++ [⟨index, exchange⟩]) index =
      transcriptOf history index ++ [exchange] := by
  simp [transcriptOf]

/-- An event of another operation is not in the transcript. -/
theorem transcriptOf_append_of_ne {index other : Nat} (hne : other ≠ index)
    (history : List Event) (exchange : Exchange) :
    transcriptOf (history ++ [⟨other, exchange⟩]) index = transcriptOf history index := by
  simp [transcriptOf, hne]

/-- Nothing happened in an operation that is in no event. -/
theorem transcriptOf_eq_nil {history : List Event} {index : Nat}
    (hnone : ∀ event ∈ history, event.task ≠ index) : transcriptOf history index = [] := by
  simpa [transcriptOf] using hnone

/-- A transcript is part of the history. -/
theorem mem_history_of_mem_transcriptOf {history : List Event} {index : Nat} {exchange : Exchange}
    (hmem : exchange ∈ transcriptOf history index) : ⟨index, exchange⟩ ∈ history := by
  obtain ⟨event, hevent, rfl⟩ := List.mem_map.1 hmem
  obtain ⟨hhistory, hindex⟩ := List.mem_filter.1 hevent
  have htask : event.task = index := by simpa using hindex
  rw [← htask]
  exact hhistory

/-- What an operation has requested is in its transcript. -/
theorem mem_transcriptOf_of_mem_history {history : List Event} {index : Nat} {exchange : Exchange}
    (hmem : ⟨index, exchange⟩ ∈ history) : exchange ∈ transcriptOf history index :=
  List.mem_map.2 ⟨_, List.mem_filter.2 ⟨hmem, beq_self_eq_true index⟩, rfl⟩

/-- What is read off an event counts towards one transcript. -/
theorem count_history {κ : Type} [BEq κ] (read : Exchange → Option κ) (wanted : κ)
    {history : List Event} {bound : Nat} (hbound : ∀ event ∈ history, event.task < bound) :
    (history.filterMap fun event => read event.exchange).count wanted =
      ∑ index ∈ Finset.range bound,
        ((transcriptOf history index).filterMap read).count wanted := by
  induction history with
  | nil => simp [transcriptOf]
  | cons event rest ih =>
      have hrest := ih fun other hother => hbound other (List.mem_cons_of_mem _ hother)
      have htask : event.task ∈ Finset.range bound :=
        Finset.mem_range.2 (hbound event List.mem_cons_self)
      -- The event's own transcript grows by what is read off it, the others stay.
      have hsplit : ∀ index, ((transcriptOf (event :: rest) index).filterMap read).count wanted =
          (if event.task = index then (read event.exchange).toList.count wanted else 0) +
            ((transcriptOf rest index).filterMap read).count wanted := by
        intro index
        by_cases hindex : event.task = index
        · have hcons : transcriptOf (event :: rest) index =
              event.exchange :: transcriptOf rest index := by
            simp [transcriptOf, hindex]
          rw [hcons, if_pos hindex]
          cases hread : read event.exchange <;> simp [hread, List.count_cons, Nat.add_comm]
        · have hsame : transcriptOf (event :: rest) index = transcriptOf rest index := by
            simp [transcriptOf, hindex]
          rw [hsame, if_neg hindex, Nat.zero_add]
      rw [Finset.sum_congr rfl fun index _ => hsplit index, Finset.sum_add_distrib,
        Finset.sum_ite_eq, if_pos htask, ← hrest]
      cases hread : read event.exchange <;> simp [hread, List.count_cons, Nat.add_comm]

/-! ## Requests in transcripts -/

section Follows

variable {α β : Type} {allowed : Effect → Prop} {transcript : List Exchange} {exchange : Exchange}

/-- The requests in the transcript of a program are allowed if all that it makes are. -/
theorem Program.Uses.of_follows {wanted : α → Prop} {program left : Program Effect Effect.Reply α}
    (huses : program.Uses allowed wanted) (follows : program.Follows transcript left) :
    ∀ exchange ∈ transcript, allowed exchange.effect := by
  induction follows with
  | nil => simp
  | cons reply rest ih =>
      rintro exchange (_ | ⟨_, hmem⟩)
      · exact huses.1
      · exact ih (huses.2 reply) exchange hmem

/-- The requests in the transcript of an action are allowed if all that it makes are. -/
theorem Action.Uses.of_follows {action : Action α}
    {left : Program Effect Effect.Reply (Except Error α)}
    (huses : action.Uses allowed fun _ => True) (follows : action.run.Follows transcript left) :
    ∀ exchange ∈ transcript, allowed exchange.effect :=
  huses.run.of_follows follows

/-- A request that the first of two programs does not make belongs to the second. -/
theorem Program.Uses.of_follows_bind {fine : α → Prop} {program : Program Effect Effect.Reply α}
    {next : α → Program Effect Effect.Reply β} {left : Program Effect Effect.Reply β}
    (huses : program.Uses allowed fine) (follows : (program.bind next).Follows transcript left)
    (hmem : exchange ∈ transcript) (hnot : ¬allowed exchange.effect) :
    ∃ value later, later ⊆ transcript ∧ (next value).Follows later left ∧ exchange ∈ later ∧
      fine value := by
  induction program generalizing transcript with
  | done value => exact ⟨value, transcript, List.Subset.refl _, follows, hmem, huses⟩
  | ask effect rest ih =>
      cases follows with
      | nil => cases hmem
      | cons reply follows =>
          rcases List.mem_cons.1 hmem with rfl | hmem
          · exact absurd huses.1 hnot
          · obtain ⟨value, later, hlater, hrest⟩ := ih reply (huses.2 reply) follows hmem
            exact ⟨value, later, List.Subset.trans hlater (List.subset_cons_self _ _), hrest⟩

/-- A request that the first of two actions does not make belongs to the second. -/
theorem Action.Uses.of_follows_bind {fine : β → Prop} {action : Action β} {next : β → Action α}
    {left : Program Effect Effect.Reply (Except Error α)} (huses : action.Uses allowed fine)
    (follows : (action >>= next).run.Follows transcript left) (hmem : exchange ∈ transcript)
    (hnot : ¬allowed exchange.effect) :
    ∃ value later, later ⊆ transcript ∧ (next value).run.Follows later left ∧
      exchange ∈ later ∧ fine value := by
  obtain ⟨result, later, hlater, hrest, hexchange, hfine⟩ :=
    Program.Uses.of_follows_bind huses.run follows hmem hnot
  cases result with
  | ok value => exact ⟨value, later, hlater, hrest, hexchange, hfine value rfl⟩
  | error error =>
      -- After an error nothing is requested any more.
      cases hrest
      cases hexchange

/-- After the clock was read, the other requests are made. -/
theorem Action.of_follows_now {next : Nat → Action α}
    {left : Program Effect Effect.Reply (Except Error α)}
    (follows : (Action.now >>= next).run.Follows transcript left) (hmem : exchange ∈ transcript)
    (hnot : exchange.effect ≠ .clock) :
    ∃ (now : Nat) (later : List Exchange), ⟨.clock, now⟩ ∈ transcript ∧ later ⊆ transcript ∧
      (next now).run.Follows later left ∧ exchange ∈ later := by
  cases follows with
  | nil => cases hmem
  | cons reply follows =>
      rcases List.mem_cons.1 hmem with rfl | hmem
      · exact absurd rfl hnot
      · exact ⟨reply, _, List.mem_cons_self, List.subset_cons_self _ _, follows, hmem⟩

/-- After a store call was answered, the other requests are made. -/
theorem Action.of_follows_ask {call : Call} {next : call.Answer → Action α}
    {left : Program Effect Effect.Reply (Except Error α)}
    (follows : (Action.ask call >>= next).run.Follows transcript left)
    (hmem : exchange ∈ transcript) (hnot : exchange.effect ≠ .store call) :
    ∃ answer later, ⟨.store call, .ok answer⟩ ∈ transcript ∧ later ⊆ transcript ∧
      (next answer).run.Follows later left ∧ exchange ∈ later := by
  cases follows with
  | nil => cases hmem
  | @cons _ _ later _ reply follows =>
      rcases List.mem_cons.1 hmem with rfl | hlater
      · exact absurd rfl hnot
      -- Without an answer nothing is requested any more.
      · rcases reply with error | answer
        · cases follows
          cases hlater
        · exact ⟨answer, later, List.mem_cons_self, List.subset_cons_self _ _, follows, hlater⟩

/-- After an organization was found, the other requests are made. -/
theorem Action.of_follows_loadOrganization {id : String} {next : Organization → Action α}
    {left : Program Effect Effect.Reply (Except Error α)}
    (follows : (Action.loadOrganization id >>= next).run.Follows transcript left)
    (hmem : exchange ∈ transcript)
    (hnot : exchange.effect ≠ .store (.organizations (.findById id))) :
    ∃ org later, ⟨.store (.organizations (.findById id)), .ok (some org)⟩ ∈ transcript ∧
      later ⊆ transcript ∧ (next org).run.Follows later left ∧ exchange ∈ later := by
  cases follows with
  | nil => cases hmem
  | @cons _ _ later _ reply follows =>
      rcases List.mem_cons.1 hmem with rfl | hlater
      · exact absurd rfl hnot
      -- Without an organization nothing is requested any more.
      · rcases reply with error | _ | org
        · cases follows
          cases hlater
        · cases follows
          cases hlater
        · exact ⟨org, later, List.mem_cons_self, List.subset_cons_self _ _, follows, hlater⟩

end Follows

/-! ## Transcripts in runs -/

/-- The history of a configuration is that of its running operations. -/
structure Configuration.Recorded (config : Configuration) : Prop where
  known : ∀ event ∈ config.history, event.task < config.tasks.length
  honest : ∀ event ∈ config.history, event.exchange.IsHonest
  follows : ∀ (index : Nat) (task : Task), config.tasks[index]? = some task →
    ∃ deployment, Program.Follows (task.operation.action deployment).run
      (transcriptOf config.history index) task.rest

/-- Running operations have come through their transcripts, each as it is under one of some
deployments. -/
def Configuration.FollowsUnder (config : Configuration) (deploys : Deployment → Prop) : Prop :=
  ∀ (index : Nat) (task : Task), config.tasks[index]? = some task →
    ∃ deployment, deploys deployment ∧ Program.Follows (task.operation.action deployment).run
      (transcriptOf config.history index) task.rest

namespace Configuration.FollowsUnder

variable {config : Configuration} {deploys : Deployment → Prop}

/-- A new operation has an empty transcript. -/
theorem start (followed : config.FollowsUnder deploys)
    (known : ∀ event ∈ config.history, event.task < config.tasks.length)
    (deployment : Deployment) (deployed : deploys deployment) (operation : Operation) :
    (config.start deployment operation).FollowsUnder deploys := by
  intro index task htask
  simp only [Configuration.start] at htask ⊢
  by_cases hlt : index < config.tasks.length
  · rw [List.getElem?_append_left hlt] at htask
    exact followed index task htask
  · have hnone : ∀ event ∈ config.history, event.task ≠ index := by
      intro event hevent heq
      exact hlt (heq ▸ known event hevent)
    rw [List.getElem?_append_right (by omega)] at htask
    obtain rfl : Task.begin deployment operation = task := by
      rw [List.getElem?_singleton] at htask
      split at htask
      · exact Option.some.inj htask
      · cases htask
    rw [transcriptOf_eq_nil hnone]
    exact ⟨deployment, deployed, .nil _⟩

/-- A request is in the transcript of the operation that makes it. -/
theorem advance (followed : config.FollowsUnder deploys) (index : Nat) :
    (config.advance index).FollowsUnder deploys := by
  rcases config.advance_cases index with hsame | ⟨operation, effect, next, htask⟩
  · rw [hsame]
    exact followed
  · rw [Configuration.advance_ask htask]
    intro other task hother
    by_cases hindex : other = index
    · subst hindex
      rw [List.getElem?_set_self (List.getElem?_eq_some_iff.1 htask).1] at hother
      obtain ⟨deployment, deployed, follows⟩ := followed other _ htask
      cases hother
      rw [transcriptOf_append_self]
      exact ⟨deployment, deployed, follows.snoc _⟩
    · rw [List.getElem?_set_ne (Ne.symm hindex)] at hother
      rw [transcriptOf_append_of_ne (Ne.symm hindex)]
      exact followed other task hother

end Configuration.FollowsUnder

/-- What is read off the exchanges of a configuration. -/
def Configuration.readings {κ : Type} (config : Configuration) (read : Exchange → Option κ) :
    List κ :=
  config.history.filterMap fun event => read event.exchange

/-- A request adds what is read off its exchange. -/
theorem Configuration.readings_advance {κ : Type} {config : Configuration}
    (read : Exchange → Option κ) {index : Nat} {operation : Operation} {effect : Effect}
    {next : effect.Reply → Program Effect Effect.Reply (Except Error operation.Answer)}
    (htask : config.tasks[index]? = some ⟨operation, .ask effect next⟩) :
    (config.advance index).readings read =
      config.readings read ++
        (read ⟨effect, (World.perform effect config.world).1⟩).toList := by
  rw [advance_ask htask, readings, readings, List.filterMap_append]
  cases hread : read ⟨effect, (World.perform effect config.world).1⟩ <;> simp [hread]

namespace Configuration.Recorded

variable {config : Configuration}

/-- The replies in a transcript are honest. -/
theorem honest_of_transcript (recorded : config.Recorded) {index : Nat} :
    ∀ exchange ∈ transcriptOf config.history index, exchange.IsHonest :=
  fun _ hexchange => recorded.honest _ (mem_history_of_mem_transcriptOf hexchange)

/-- What is counted in a configuration is counted in one of the transcripts. -/
theorem count_readings {κ : Type} [BEq κ] (recorded : config.Recorded)
    (read : Exchange → Option κ) (wanted : κ) :
    (config.readings read).count wanted =
      ∑ index ∈ Finset.range config.tasks.length,
        ((transcriptOf config.history index).filterMap read).count wanted :=
  count_history read wanted recorded.known

/-- What is counted in two transcripts is counted in the configuration. -/
theorem add_count_le_count_readings {κ : Type} [BEq κ] (recorded : config.Recorded)
    (read : Exchange → Option κ) (wanted : κ) {i j : Nat} (hi : i < config.tasks.length)
    (hj : j < config.tasks.length) (hne : i ≠ j) :
    ((transcriptOf config.history i).filterMap read).count wanted +
        ((transcriptOf config.history j).filterMap read).count wanted ≤
      (config.readings read).count wanted := by
  rw [recorded.count_readings]
  exact Finset.add_le_sum
    (f := fun index => ((transcriptOf config.history index).filterMap read).count wanted)
    (fun _ _ => Nat.zero_le _) (Finset.mem_range.2 hi) (Finset.mem_range.2 hj) hne

/-- Running operations have come through their transcripts. -/
theorem followsUnder (recorded : config.Recorded) : config.FollowsUnder fun _ => True :=
  fun index task htask =>
    (recorded.follows index task htask).imp fun _ follows => ⟨trivial, follows⟩

/-- A new operation has an empty transcript. -/
theorem start (recorded : config.Recorded) (deployment : Deployment) (operation : Operation) :
    (config.start deployment operation).Recorded where
  known event hevent := by
    have hold := recorded.known event hevent
    simp only [Configuration.start, List.length_append, List.length_singleton]
    omega
  honest := recorded.honest
  follows index task htask := by
    obtain ⟨started, -, follows⟩ :=
      recorded.followsUnder.start recorded.known deployment trivial operation index task htask
    exact ⟨started, follows⟩

/-- A request is recorded in the transcript of the operation that makes it. -/
theorem advance (recorded : config.Recorded) (index : Nat) : (config.advance index).Recorded := by
  rcases config.advance_cases index with hsame | ⟨operation, effect, next, htask⟩
  · rw [hsame]
    exact recorded
  · have followed := recorded.followsUnder.advance index
    rw [Configuration.advance_ask htask] at followed ⊢
    refine ⟨?_, ?_, fun other task hother => (followed other task hother).imp fun _ => And.right⟩
    · intro event hevent
      rw [List.length_set]
      rcases List.mem_append.1 hevent with hold | hnew
      · exact recorded.known event hold
      · rw [List.mem_singleton.1 hnew]
        exact (List.getElem?_eq_some_iff.1 htask).1
    · intro event hevent
      rcases List.mem_append.1 hevent with hold | hnew
      · exact recorded.honest event hold
      · rw [List.mem_singleton.1 hnew]
        exact ⟨config.world, rfl⟩

end Configuration.Recorded

/-- In every reachable configuration, running operations follow their transcripts. -/
theorem Regime.Reaches.recorded {regime : Regime} {world : World} {config : Configuration}
    (reaches : regime.Reaches world config) : config.Recorded := by
  induction reaches with
  | refl =>
      refine ⟨?_, ?_, ?_⟩
      · simp [Configuration.initial]
      · simp [Configuration.initial]
      · simp [Configuration.initial]
  | tail _ step ih =>
      cases step with
      | start deployment operation _ => exact ih.start deployment operation
      | advance index _ => exact ih.advance index
      | shift outside _ => exact ⟨ih.known, ih.honest, ih.follows⟩

/-- In every reachable configuration, running operations follow their transcripts as they are under
the deployments of the regime. -/
theorem Regime.Reaches.followsUnder {regime : Regime} {world : World} {config : Configuration}
    (reaches : regime.Reaches world config) : config.FollowsUnder regime.deploys := by
  induction reaches with
  | refl => simp [Configuration.FollowsUnder, Configuration.initial]
  | tail before step ih =>
      cases step with
      | start deployment operation deployed =>
          exact ih.start (Regime.Reaches.recorded before).known deployment deployed operation
      | advance index _ => exact ih.advance index
      | shift outside _ => exact ih

/-! ## Histories of runs -/

section Runs

variable {regime : Regime} {world : World} {config before after : Configuration}

/-- The history of a run only grows. -/
theorem Regime.Continues.history_prefix (continues : regime.Continues before after) :
    before.history <+: after.history := by
  induction continues with
  | refl => exact List.prefix_refl _
  | @tail middle last _ step ih =>
      cases step with
      | start deployment operation _ => exact ih
      | advance index _ =>
          rcases middle.advance_cases index with hsame | ⟨operation, effect, next, htask⟩
          · rw [hsame]
            exact ih
          · rw [Configuration.advance_ask htask]
            exact ih.trans (List.prefix_append _ _)
      | shift outside _ => exact ih

/-- A run from a world has made an exchange with the step that follows some configuration. -/
structure Regime.Exchanges (regime : Regime) (world : World) (before config : Configuration)
    (event : Event) : Prop where
  reaches : regime.Reaches world before
  step : regime.Step before (before.advance event.task)
  continues : regime.Continues (before.advance event.task) config
  reply : (World.perform event.exchange.effect before.world).1 = event.exchange.reply
  performed : (before.advance event.task).world =
    (World.perform event.exchange.effect before.world).2

/-- Each exchange in the history of a run was made by one of its steps. -/
theorem Regime.Reaches.exists_exchanges (reaches : regime.Reaches world config) {event : Event}
    (hevent : event ∈ config.history) : ∃ before, regime.Exchanges world before config event := by
  induction reaches with
  | refl => cases hevent
  | @tail middle last reached step ih =>
      have earlier : event ∈ middle.history →
          ∃ before, regime.Exchanges world before last event := fun hold =>
        (ih hold).imp fun _ exchanges => { exchanges with continues := exchanges.continues.tail step }
      cases step with
      | start deployment operation _ => exact earlier hevent
      | advance index admitted =>
          rcases middle.advance_cases index with hsame | ⟨operation, effect, next, htask⟩
          · rw [hsame] at hevent
            exact earlier hevent
          · have hadvance := Configuration.advance_ask htask
            rw [hadvance] at hevent
            rcases List.mem_append.1 hevent with hold | hnew
            · exact earlier hold
            · obtain rfl := List.mem_singleton.1 hnew
              exact ⟨middle,
                { reaches := reached
                  step := .advance middle index admitted
                  continues := .refl
                  reply := rfl
                  performed := congrArg Configuration.world hadvance }⟩
      | shift outside _ => exact earlier hevent

/-- What was read off a configuration is read off all that the run goes on to. -/
theorem Regime.Continues.readings_prefix {κ : Type} (continues : regime.Continues before after)
    (read : Exchange → Option κ) : before.readings read <+: after.readings read :=
  continues.history_prefix.filterMap _

/-- An operation that has ended stays as it is. -/
theorem Regime.Continues.task_ended (continues : regime.Continues before after) {index : Nat}
    {operation : Operation} {result : Except Error operation.Answer}
    (htask : before.tasks[index]? = some ⟨operation, .done result⟩) :
    after.tasks[index]? = some ⟨operation, .done result⟩ := by
  induction continues with
  | refl => exact htask
  | @tail middle last _ step ih =>
      cases step with
      | start deployment started _ =>
          rw [Configuration.start,
            List.getElem?_append_left (List.getElem?_eq_some_iff.1 ih).1]
          exact ih
      | advance moved _ =>
          rcases middle.advance_cases moved with hsame | ⟨other, effect, next, hmoved⟩
          · rw [hsame]
            exact ih
          · rw [Configuration.advance_ask hmoved, List.getElem?_set_ne]
            · exact ih
            · rintro rfl
              rw [ih] at hmoved
              cases hmoved
      | shift outside _ => exact ih

/-- If after each request there is no more of something, together with what the exchange ends, than
there was before, together with what it makes, then in a run there is no more of it, together with
what has ended, than was made. -/
theorem Regime.Reaches.add_count_le {κ τ : Type} [BEq κ] [BEq τ]
    (reaches : regime.Reaches world config) (stored : Tables → Nat)
    (made : Exchange → Option κ) (ended : Exchange → Option τ) (maker : κ) (ender : τ)
    (begins : stored world.tables = 0)
    (shifts : ∀ (world : World) outside,
      stored (world.withOutside outside).tables = stored world.tables)
    (steps : ∀ (world : World) effect,
      stored (World.perform effect world).2.tables +
          (ended ⟨effect, (World.perform effect world).1⟩).toList.count ender ≤
        stored world.tables +
          (made ⟨effect, (World.perform effect world).1⟩).toList.count maker) :
    stored config.world.tables + (config.readings ended).count ender ≤
      (config.readings made).count maker := by
  induction reaches with
  | refl => simp [Configuration.initial, Configuration.readings, begins]
  | @tail middle last _ step ih =>
      cases step with
      | start deployment operation _ => exact ih
      | advance index _ =>
          rcases middle.advance_cases index with hsame | ⟨operation, effect, next, htask⟩
          · rw [hsame]
            exact ih
          · rw [Configuration.readings_advance _ htask, Configuration.readings_advance _ htask,
              Configuration.advance_ask htask, List.count_append, List.count_append]
            have hstep := steps middle.world effect
            dsimp only
            omega
      | shift outside _ =>
          rw [shifts]
          exact ih

end Runs

/-! ## What programs owe -/

/-- Under honest replies, a program makes an exchange that pays before it ends, unless it ends with
a value that is free. -/
def Program.Owes {α : Type} (pays : Exchange → Prop) (free : α → Prop) :
    Program Effect Effect.Reply α → Prop
  | .done value => free value
  | .ask effect next => ∀ reply, Exchange.IsHonest ⟨effect, reply⟩ →
    pays ⟨effect, reply⟩ ∨ (next reply).Owes pays free

/-- What is owed has been paid when a program ends. -/
theorem Program.Owes.paid {α : Type} {pays : Exchange → Prop} {free : α → Prop}
    {program : Program Effect Effect.Reply α} {transcript : List Exchange} {value : α}
    (owes : program.Owes pays free) (follows : program.Follows transcript (.done value))
    (honest : ∀ exchange ∈ transcript, exchange.IsHonest) :
    free value ∨ ∃ exchange ∈ transcript, pays exchange := by
  generalize hleft : Program.done value = left at follows
  induction follows with
  | nil program =>
      subst hleft
      exact .inl owes
  | cons reply rest ih =>
      rcases owes reply (honest _ List.mem_cons_self) with hpays | howes
      · exact .inr ⟨_, List.mem_cons_self, hpays⟩
      · rcases ih howes (fun other hother => honest other (List.mem_cons_of_mem _ hother)) hleft
          with hfree | ⟨exchange, hexchange, hpays⟩
        · exact .inl hfree
        · exact .inr ⟨exchange, List.mem_cons_of_mem _ hexchange, hpays⟩

/-- Under honest replies, an action makes an exchange that pays before it succeeds, unless it
succeeds with a value that is free. -/
structure Action.Owes {α : Type} (pays : Exchange → Prop) (free : α → Prop) (action : Action α) :
    Prop where
  run : action.run.Owes pays fun result => ∀ value, result = .ok value → free value

namespace Action.Owes

variable {α β : Type} {pays : Exchange → Prop} {free : α → Prop}

theorem pure {value : α} (hfree : free value) :
    (Pure.pure value : Action α).Owes pays free where
  run := by
    rintro _ ⟨⟩
    exact hfree

theorem throw (error : Error) : (MonadExcept.throw error : Action α).Owes pays free where
  run := by rintro _ ⟨⟩

/-- What the second action owes is owed after any first one. -/
theorem andThen (action : Action β) {next : β → Action α}
    (hnext : ∀ value, (next value).Owes pays free) : (action >>= next).Owes pays free where
  run := by
    change (action.run.bind _).Owes pays _
    induction action.run with
    | done result =>
        cases result with
        | ok value => exact (hnext value).run
        | error error => exact (throw error).run
    | ask effect rest ih => exact fun reply _ => .inr (ih reply)

/-- After an answer of the store, it either has paid or the rest owes. -/
theorem ask (call : Call) {next : call.Answer → Action α}
    (hnext : ∀ (tables : Tables) answer, (tables.perform call).1 = .ok answer →
      pays ⟨.store call, .ok answer⟩ ∨ (next answer).Owes pays free) :
    (Action.ask call >>= next).Owes pays free where
  run := by
    rintro reply ⟨world, hreply⟩
    cases reply with
    | error error => exact .inr (throw (.storage error)).run
    | ok answer => exact (hnext world.tables answer hreply).imp_right fun howes => howes.run

end Action.Owes

/-- What an operation owed is in its transcript once it has succeeded. -/
theorem Configuration.Recorded.owed {config : Configuration} {index : Nat} {operation : Operation}
    {pays : Exchange → Prop} {free : operation.Answer → Prop} {answer : operation.Answer}
    (recorded : config.Recorded)
    (owes : ∀ deployment, (operation.action deployment).Owes pays free)
    (htask : config.tasks[index]? = some ⟨operation, .done (.ok answer)⟩)
    (hpaid : ¬free answer) : ∃ exchange ∈ transcriptOf config.history index, pays exchange := by
  obtain ⟨deployment, follows⟩ := recorded.follows index _ htask
  exact ((owes deployment).run.paid follows recorded.honest_of_transcript).resolve_left
    fun hfree => hpaid (hfree answer rfl)

/-! ## What programs leave in transcripts -/

section Leaves

variable {κ : Type} (read : Exchange → Option κ)

/-- Under honest replies, what is read off the exchanges of a program and the value that it ends
with are as wanted. -/
def Program.Leaves {α : Type} :
    Program Effect Effect.Reply α → (List κ → α → Prop) → Prop
  | .done value, wanted => wanted [] value
  | .ask effect next, wanted => ∀ reply, Exchange.IsHonest ⟨effect, reply⟩ →
    (next reply).Leaves fun later value => wanted ((read ⟨effect, reply⟩).toList ++ later) value

/-- Under honest replies, what is read off the exchanges of an action that succeeds and the value
that it ends with are as wanted. -/
structure Action.Leaves {α : Type} (action : Action α) (wanted : List κ → α → Prop) : Prop where
  run : action.run.Leaves read fun left result => ∀ value, result = .ok value → wanted left value

variable {read}

namespace Program.Leaves

variable {α β : Type}

/-- What a program leaves is in its transcript when it ends. -/
theorem left {wanted : List κ → α → Prop} {program : Program Effect Effect.Reply α}
    {transcript : List Exchange} {value : α} (leaves : program.Leaves read wanted)
    (follows : program.Follows transcript (.done value))
    (honest : ∀ exchange ∈ transcript, exchange.IsHonest) :
    wanted (transcript.filterMap read) value := by
  generalize hleft : Program.done value = left at follows
  induction follows generalizing wanted with
  | nil program =>
      subst hleft
      exact leaves
  | @cons effect next transcript left reply rest ih =>
      have hnext := ih (leaves reply (honest _ List.mem_cons_self))
        (fun other hother => honest other (List.mem_cons_of_mem _ hother)) hleft
      cases hread : read ⟨effect, reply⟩ <;> simpa [hread] using hnext

/-- Less may be wanted of what a program leaves. -/
theorem mono {wanted looser : List κ → α → Prop} {program : Program Effect Effect.Reply α}
    (leaves : program.Leaves read wanted)
    (hlooser : ∀ left value, wanted left value → looser left value) :
    program.Leaves read looser := by
  induction program generalizing wanted looser with
  | done value => exact hlooser [] value leaves
  | ask effect rest ih =>
      exact fun reply honest => ih reply (leaves reply honest) fun later value => hlooser _ value

/-- A program leaves what its first part leaves before what its second part leaves. -/
theorem bind {middle : List κ → α → Prop} {wanted : List κ → β → Prop}
    {program : Program Effect Effect.Reply α} {next : α → Program Effect Effect.Reply β}
    (leaves : program.Leaves read middle)
    (hnext : ∀ left value, middle left value →
      (next value).Leaves read fun later answer => wanted (left ++ later) answer) :
    (program.bind next).Leaves read wanted := by
  induction program generalizing middle wanted with
  | done value => exact hnext [] value leaves
  | ask effect rest ih =>
      intro reply honest
      refine ih reply (leaves reply honest) fun left value hvalue => ?_
      refine (hnext _ value hvalue).mono fun later answer hwanted => ?_
      rw [← List.append_assoc]
      exact hwanted

/-- A program leaves nothing if nothing is read off its requests. -/
theorem ofUses {wanted : α → Prop} {program : Program Effect Effect.Reply α}
    (huses : program.Uses (fun effect => ∀ reply, read ⟨effect, reply⟩ = none) wanted) :
    program.Leaves read fun left value => left = [] ∧ wanted value := by
  induction program with
  | done value => exact ⟨rfl, huses⟩
  | ask effect rest ih =>
      intro reply _
      rw [huses.1 reply]
      exact ih reply (huses.2 reply)

end Program.Leaves

namespace Action.Leaves

variable {α β : Type} {wanted : List κ → α → Prop}

theorem pure {value : α} (hwanted : wanted [] value) :
    (Pure.pure value : Action α).Leaves read wanted where
  run := by
    rintro _ ⟨⟩
    exact hwanted

theorem throw (error : Error) : (MonadExcept.throw error : Action α).Leaves read wanted where
  run := by rintro _ ⟨⟩

theorem bind {middle : List κ → β → Prop} {action : Action β} {next : β → Action α}
    (leaves : action.Leaves read middle)
    (hnext : ∀ left value, middle left value →
      (next value).Leaves read fun later answer => wanted (left ++ later) answer) :
    (action >>= next).Leaves read wanted where
  run := by
    refine Program.Leaves.bind leaves.run fun left result hresult => ?_
    cases result with
    | ok value => exact (hnext left value (hresult value rfl)).run
    | error error => exact (throw error).run

/-- An action off whose requests nothing is read comes before another one. -/
theorem afterUses {fine : β → Prop} {action : Action β} {next : β → Action α}
    (huses : action.Uses (fun effect => ∀ reply, read ⟨effect, reply⟩ = none) fine)
    (hnext : ∀ value, fine value → (next value).Leaves read wanted) :
    (action >>= next).Leaves read wanted := by
  have leaves : action.Leaves read fun left value => left = [] ∧ fine value := by
    refine ⟨(Program.Leaves.ofUses huses.run).mono ?_⟩
    exact fun left result hresult value hvalue => ⟨hresult.1, hresult.2 value hvalue⟩
  refine bind leaves ?_
  rintro left value ⟨rfl, hfine⟩
  exact hnext value hfine

/-- What a call leaves if it succeeds is read off its answer. -/
theorem ask {call : Call} {wanted : List κ → call.Answer → Prop}
    (hanswer : ∀ (tables : Tables) answer, (tables.perform call).1 = .ok answer →
      wanted (read ⟨.store call, .ok answer⟩).toList answer) :
    (Action.ask call).Leaves read wanted where
  run := by
    rintro reply ⟨world, hreply⟩ answer hanswered
    cases reply with
    | error error => cases hanswered
    | ok found =>
        rw [← Except.ok.inj hanswered, List.append_nil]
        exact hanswer world.tables found hreply

end Action.Leaves

/-- What an operation that has succeeded leaves is in its transcript, under whichever of the
deployments it was started. -/
theorem Configuration.Recorded.leavesUnder {config : Configuration} {index : Nat}
    {operation : Operation} {answer : operation.Answer} {deploys : Deployment → Prop}
    {wanted : List κ → operation.Answer → Prop} (recorded : config.Recorded)
    (followed : config.FollowsUnder deploys)
    (leaves : ∀ deployment, deploys deployment → (operation.action deployment).Leaves read wanted)
    (htask : config.tasks[index]? = some ⟨operation, .done (.ok answer)⟩) :
    wanted ((transcriptOf config.history index).filterMap read) answer := by
  obtain ⟨deployment, deployed, follows⟩ := followed index _ htask
  exact (leaves deployment deployed).run.left follows recorded.honest_of_transcript answer rfl

/-- What an operation that has succeeded leaves is in its transcript. -/
theorem Configuration.Recorded.leaves {config : Configuration} {index : Nat}
    {operation : Operation} {answer : operation.Answer}
    {wanted : List κ → operation.Answer → Prop} (recorded : config.Recorded)
    (leaves : ∀ deployment, (operation.action deployment).Leaves read wanted)
    (htask : config.tasks[index]? = some ⟨operation, .done (.ok answer)⟩) :
    wanted ((transcriptOf config.history index).filterMap read) answer :=
  recorded.leavesUnder recorded.followsUnder (fun deployment _ => leaves deployment) htask

end Leaves
end Tenancy
