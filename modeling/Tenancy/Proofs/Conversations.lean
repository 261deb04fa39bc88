import Mathlib.Data.List.Forall2
import Tenancy.Sql.Store

/-!
# Tenancy - Conversations with a connection

A session asks a connection one request after another, and any reply may be a failure.
What is said of a session here holds whatever the connection replies: it follows the
session's program request by request and keeps the exchanges beside the result.

Main definitions:

- `Sql.Exchange`: a request with its reply.
- `Sql.Session.log`, `Sql.Session.result`: a session run over any connection.
- `Sql.Session.Converses`: what the exchanges and the result are, whatever is replied.
- `Sql.Session.Makes`: which kinds of requests a session has made if it succeeds.
- `Sql.TransactionLog`: the exchanges of a transaction.

Main results:

- Theorem `Sql.Script.run_eq`: what a script logs are the requests of the exchanges.
- Theorem `Sql.Session.Converses.log_result`: runs over a connection converse as wanted.
- Theorem `Sql.Session.Converses.bind`: two sessions in sequence.
- Theorem `Sql.transaction_converses`: what surrounds the exchanges of a transaction.
-/

namespace Tenancy
namespace Sql

/-- A request that reached a connection, and its reply. -/
structure Exchange where
  request : Request
  reply : request.Reply

/-- A connection replies to requests and keeps a state; it may fail whenever it likes. -/
abbrev Connection (σ : Type) :=
  (request : Request) → σ → request.Reply × σ

/-! ## Programs over a connection -/

/-- The exchanges of a program that is run over a connection, in order. -/
def exchanges {α σ : Type} (connection : Connection σ) :
    Program Request Request.Reply α → σ → List Exchange
  | .done _, _ => []
  | .ask request next, state =>
    let (reply, after) := connection request state
    ⟨request, reply⟩ :: exchanges connection (next reply) after

/-- Whatever is replied, the exchanges of a program and the value that it ends with are as
wanted. -/
def ProgramConverses {α : Type} :
    Program Request Request.Reply α → (List Exchange → α → Prop) → Prop
  | .done value, wanted => wanted [] value
  | .ask request next, wanted => ∀ reply,
    ProgramConverses (next reply) fun log value => wanted (⟨request, reply⟩ :: log) value

namespace ProgramConverses

variable {α β σ : Type} {wanted : List Exchange → α → Prop}
  {program : Program Request Request.Reply α}

/-- A run over a connection is one of the conversations. -/
theorem run (converses : ProgramConverses program wanted) (connection : Connection σ)
    (state : σ) :
    wanted (exchanges connection program state) (program.run connection state).1 := by
  induction program generalizing wanted state with
  | done value => exact converses
  | ask request next ih => exact ih _ (converses _) _

/-- Less may be wanted. -/
theorem mono {looser : List Exchange → α → Prop} (converses : ProgramConverses program wanted)
    (hlooser : ∀ log value, wanted log value → looser log value) :
    ProgramConverses program looser := by
  induction program generalizing wanted looser with
  | done value => exact hlooser [] value converses
  | ask request next ih =>
      exact fun reply => ih reply (converses reply) fun log value => hlooser _ value

/-- Two things may be wanted. -/
theorem and {other : List Exchange → α → Prop} (first : ProgramConverses program wanted)
    (second : ProgramConverses program other) :
    ProgramConverses program fun log value => wanted log value ∧ other log value := by
  induction program generalizing wanted other with
  | done value => exact ⟨first, second⟩
  | ask request next ih => exact fun reply => ih reply (first reply) (second reply)

/-- Every program has some exchanges and some value. -/
theorem trivial (program : Program Request Request.Reply α) :
    ProgramConverses program fun _ _ => True := by
  induction program with
  | done value => exact True.intro
  | ask request next ih => exact ih

/-- The exchanges of the second program come after those of the first one. -/
theorem bind {later : List Exchange → β → Prop} {next : α → Program Request Request.Reply β}
    (converses : ProgramConverses program wanted)
    (hnext : ∀ log value, wanted log value →
      ProgramConverses (next value) fun rest answer => later (log ++ rest) answer) :
    ProgramConverses (program.bind next) later := by
  induction program generalizing wanted later with
  | done value => exact hnext [] value converses
  | ask request rest ih =>
      exact fun reply => ih reply (converses reply) fun log value hvalue => hnext _ value hvalue

end ProgramConverses

/-! ## Sessions over a connection -/

namespace Session

variable {α β σ : Type}

/-- The exchanges of a session over a connection, in order. -/
def log (session : Session α) (connection : Connection σ) (state : σ) : List Exchange :=
  exchanges connection session.run state

/-- What a session over a connection results in. -/
def result (session : Session α) (connection : Connection σ) (state : σ) :
    Except StoreError α :=
  (session.run.run connection state).1

/-- Whatever is replied, the exchanges of a session and its result are as wanted. -/
structure Converses (session : Session α)
    (wanted : List Exchange → Except StoreError α → Prop) : Prop where
  run : ProgramConverses session.run wanted

namespace Converses

variable {wanted : List Exchange → Except StoreError α → Prop} {session : Session α}

/-- The exchanges and the result over a connection are as wanted. -/
theorem log_result (converses : session.Converses wanted) (connection : Connection σ)
    (state : σ) : wanted (session.log connection state) (session.result connection state) :=
  converses.run.run connection state

theorem mono {looser : List Exchange → Except StoreError α → Prop}
    (converses : session.Converses wanted)
    (hlooser : ∀ log result, wanted log result → looser log result) :
    session.Converses looser :=
  ⟨converses.run.mono hlooser⟩

theorem and {other : List Exchange → Except StoreError α → Prop}
    (first : session.Converses wanted) (second : session.Converses other) :
    session.Converses fun log result => wanted log result ∧ other log result :=
  ⟨first.run.and second.run⟩

theorem pure {value : α} (hwanted : wanted [] (.ok value)) :
    (Pure.pure value : Session α).Converses wanted :=
  ⟨hwanted⟩

theorem throw {error : StoreError} (hwanted : wanted [] (.error error)) :
    (MonadExcept.throw error : Session α).Converses wanted :=
  ⟨hwanted⟩

/-- After a session that succeeded, the next one goes on; after one that failed, nothing does. -/
theorem bind {later : List Exchange → Except StoreError β → Prop} {next : α → Session β}
    (converses : session.Converses wanted)
    (hnext : ∀ log value, wanted log (.ok value) →
      (next value).Converses fun rest result => later (log ++ rest) result)
    (hfailed : ∀ log error, wanted log (.error error) → later log (.error error)) :
    (session >>= next).Converses later where
  run := by
    refine ProgramConverses.bind converses.run fun log result hresult => ?_
    cases result with
    | ok value => exact (hnext log value hresult).run
    | error error =>
        have hlater := hfailed log error hresult
        rwa [← List.append_nil log] at hlater

/-- A query is one exchange, and what comes after it goes on with the rows. -/
theorem query {statement : Statement} {next : List Row → Session α}
    (hrows : ∀ rows, (next rows).Converses fun rest result =>
      wanted (⟨.query statement, .ok rows⟩ :: rest) result)
    (hfailed : ∀ failure,
      wanted [⟨.query statement, .error failure⟩] (.error failure.storeError)) :
    (Session.query statement >>= next).Converses wanted where
  run reply := by
    cases reply with
    | error failure => exact hfailed failure
    | ok rows => exact (hrows rows).run

/-- A command is one exchange, and what comes after it goes on with the count. -/
theorem execute {statement : Statement} {next : Nat → Session α}
    (hcount : ∀ count, (next count).Converses fun rest result =>
      wanted (⟨.execute statement, .ok count⟩ :: rest) result)
    (hfailed : ∀ failure,
      wanted [⟨.execute statement, .error failure⟩] (.error failure.storeError)) :
    (Session.execute statement >>= next).Converses wanted where
  run reply := by
    cases reply with
    | error failure => exact hfailed failure
    | ok count => exact (hcount count).run

/-- What is read off rows is the result or the failure. -/
theorem check {reading : Except StoreError α} (hwanted : wanted [] reading) :
    (Session.check reading).Converses wanted := by
  cases reading with
  | error error => exact .throw hwanted
  | ok value => exact .pure hwanted

/-- A session whose failure is caught has the same exchanges. -/
theorem lift (converses : session.Converses wanted) :
    Session.Converses (ExceptT.lift session.run) fun log result =>
      ∃ caught, result = .ok caught ∧ wanted log caught where
  run := by
    refine ProgramConverses.bind converses.run fun log caught hcaught => ?_
    refine ⟨caught, rfl, ?_⟩
    rw [List.append_nil]
    exact hcaught

end Converses
end Session

/-- A script logs every request. -/
theorem Script.perform_log (request : Request) (script : Script) :
    (script.perform request).2.log = request :: script.log := by
  cases request <;> rfl

/-- What a script logs are the requests of the exchanges with it. -/
theorem Script.log_exchanges {α : Type} (program : Program Request Request.Reply α)
    (script : Script) : (program.run perform script).2.log.reverse =
      script.log.reverse ++ (exchanges perform program script).map (·.request) := by
  induction program generalizing script with
  | done value => exact (List.append_nil _).symm
  | ask request next ih =>
      rw [Program.run_ask, ih, perform_log, List.reverse_cons, List.append_assoc,
        List.singleton_append]
      rfl

/-- A scripted run results in what the session over the script does, and logs its requests. -/
theorem Script.run_eq {α : Type} (session : Session α) (replies : List ScriptedReply) :
    run session replies =
      (session.result perform { replies := replies, log := [] },
        (session.log perform { replies := replies, log := [] }).map (·.request)) :=
  congrArg (Prod.mk _) (log_exchanges session.run { replies := replies, log := [] })

/-! ## Requests on the way -/

/-- Requests of some kinds are in a log, in this order. -/
def Passes (kinds : List (Request → Prop)) (log : List Exchange) : Prop :=
  List.SublistForall₂ (fun kind exchange => kind exchange.request) kinds log

/-- What two parts of a log pass, both pass together. -/
theorem Passes.append {kinds later : List (Request → Prop)} {first second : List Exchange}
    (hfirst : Passes kinds first) (hsecond : Passes later second) :
    Passes (kinds ++ later) (first ++ second) := by
  obtain ⟨made, hmade, hsublist⟩ := List.sublistForall₂_iff.1 hfirst
  obtain ⟨done, hdone, hrest⟩ := List.sublistForall₂_iff.1 hsecond
  exact List.sublistForall₂_iff.2
    ⟨made ++ done, List.rel_append hmade hdone, hsublist.append hrest⟩

/-- What a log passes, a longer one passes. -/
theorem Passes.mono {kinds : List (Request → Prop)} {log longer : List Exchange}
    (passes : Passes kinds log) (hsublist : log.Sublist longer) : Passes kinds longer := by
  obtain ⟨made, hmade, hpart⟩ := List.sublistForall₂_iff.1 passes
  exact List.sublistForall₂_iff.2 ⟨made, hmade, hpart.trans hsublist⟩

/-- One request. -/
theorem Passes.single {kind : Request → Prop} {exchange : Exchange}
    (hkind : kind exchange.request) : Passes [kind] [exchange] :=
  .cons hkind .nil

namespace Session

variable {α β : Type}

/-- A session that succeeds has made requests of some kinds, in this order. -/
def Makes (session : Session α) (kinds : List (Request → Prop)) : Prop :=
  session.Converses fun log result => result.isOk = true → Passes kinds log

namespace Makes

variable {kinds later : List (Request → Prop)}

/-- Every session makes what it makes. -/
theorem nothing (session : Session α) : session.Makes [] :=
  ⟨(ProgramConverses.trivial _).mono fun _ _ _ _ => .nil⟩

/-- Two sessions in sequence. -/
theorem bind {session : Session α} {next : α → Session β} (first : session.Makes kinds)
    (hnext : ∀ value, (next value).Makes later) : (session >>= next).Makes (kinds ++ later) := by
  refine Converses.bind first (fun log value hlog => ?_) fun log error _ => nofun
  exact (hnext value).mono fun rest result hrest hok => (hlog rfl).append (hrest hok)

/-- What a session makes comes after whatever came before. -/
theorem after (session : Session α) {next : α → Session β}
    (hnext : ∀ value, (next value).Makes kinds) : (session >>= next).Makes kinds :=
  bind (nothing session) hnext

/-- What a session makes comes before whatever comes after. -/
theorem before {session : Session α} (first : session.Makes kinds) (next : α → Session β) :
    (session >>= next).Makes kinds := by
  have hboth := bind first fun value => nothing (next value)
  rwa [List.append_nil] at hboth

end Makes
end Session

/-! ## Transactions -/

/-- The exchanges of a transaction and its result, given those of its body: if it can begin, it ends
with a commit if the body succeeded and with a rollback if it failed. -/
inductive TransactionLog {α : Type} (body : List Exchange → Except StoreError α → Prop) :
    List Exchange → Except StoreError α → Prop
  | refused (failure : Failure) :
      TransactionLog body [⟨.begin, .error failure⟩] (.error failure.storeError)
  | committed {statements : List Exchange} {value : α} (reply : Except Failure Unit)
      (succeeded : body statements (.ok value)) :
      TransactionLog body (⟨.begin, .ok ()⟩ :: (statements ++ [⟨.commit, reply⟩]))
        ((Session.ofReply reply).map fun _ => value)
  | rolledBack {statements : List Exchange} {error : StoreError}
      (failed : body statements (.error error)) :
      TransactionLog body (⟨.begin, .ok ()⟩ :: (statements ++ [⟨.rollback, ()⟩])) (.error error)

/-- A transaction puts its body between a beginning and an end. -/
theorem transaction_converses {α : Type} {body : Session α}
    {wanted : List Exchange → Except StoreError α → Prop} (converses : body.Converses wanted) :
    (transaction body).Converses (TransactionLog wanted) := by
  have hbegin : Session.begin.Converses fun log result =>
      (∃ failure, log = [⟨.begin, .error failure⟩] ∧ result = .error failure.storeError) ∨
        log = [⟨.begin, .ok ()⟩] ∧ result = .ok () := by
    refine ⟨fun reply => ?_⟩
    cases reply with
    | error failure => exact .inl ⟨failure, rfl, rfl⟩
    | ok => exact .inr ⟨rfl, rfl⟩
  refine hbegin.bind ?_ ?_
  · rintro log ⟨⟩ (⟨_, _, ⟨⟩⟩ | ⟨rfl, -⟩)
    refine converses.lift.bind ?_ ?_
    · rintro statements caught ⟨_, ⟨⟩, hcaught⟩
      cases caught with
      | ok value =>
          refine ⟨fun reply => ?_⟩
          cases reply with
          | error failure => exact .committed (.error failure) hcaught
          | ok => exact .committed (.ok ()) hcaught
      | error error => exact ⟨fun _ => .rolledBack hcaught⟩
    · rintro _ _ ⟨_, ⟨⟩, -⟩
  · rintro log error (⟨failure, rfl, ⟨⟩⟩ | ⟨-, ⟨⟩⟩)
    exact .refused failure

end Sql
end Tenancy
