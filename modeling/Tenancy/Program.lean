/-!
# Tenancy - Programs of requests

A program asks requests one at a time and goes on with each reply until it is
done.  It says nothing about who replies: the same program can be run against a
store in memory, with replies made up to test it, or step by step between the
steps of other programs.

Main definitions:

- `Program`: programs over a set of requests with replies.
- `Program.request`, `Program.bind`: building programs.
- `Program.run`: a run against a handler with a state.

Main results:

- Theorem `Program.bind_assoc`: sequencing is associative, so programs form a
  lawful monad.
- Theorem `Program.run_bind`: a run of two programs in sequence is the two runs
  in sequence.
-/

namespace Tenancy

/-- A program that asks requests and ends with a value. -/
inductive Program (Request : Type) (Reply : Request → Type) (α : Type) : Type
  | done (value : α)
  | ask (request : Request) (next : Reply request → Program Request Reply α)

namespace Program

variable {Request : Type} {Reply : Request → Type} {α β σ : Type}

/-- Go on with another program. -/
def bind (program : Program Request Reply α) (next : α → Program Request Reply β) :
    Program Request Reply β :=
  match program with
  | .done value => next value
  | .ask request rest => .ask request fun reply => (rest reply).bind next

instance : Monad (Program Request Reply) where
  pure := .done
  bind := bind

/-- A program followed by nothing is the program. -/
theorem bind_done (program : Program Request Reply α) : program.bind .done = program := by
  induction program with
  | done value => rfl
  | ask request rest ih => exact congrArg (Program.ask request) (funext ih)

/-- Three programs in sequence can be grouped either way. -/
theorem bind_assoc {γ : Type} (program : Program Request Reply α)
    (next : α → Program Request Reply β) (last : β → Program Request Reply γ) :
    (program.bind next).bind last = program.bind fun value => (next value).bind last := by
  induction program with
  | done value => rfl
  | ask request rest ih => exact congrArg (Program.ask request) (funext ih)

instance : LawfulMonad (Program Request Reply) :=
  LawfulMonad.mk' _ bind_done (fun _ _ => rfl) bind_assoc

/-- Ask one request and end with its reply. -/
def request (request : Request) : Program Request Reply (Reply request) :=
  .ask request .done

/-- Run a program against a handler that keeps a state. -/
def run (handle : (request : Request) → σ → Reply request × σ) :
    Program Request Reply α → σ → α × σ
  | .done value, state => (value, state)
  | .ask request next, state =>
    let (reply, state) := handle request state
    (next reply).run handle state

@[simp]
theorem run_done (handle : (request : Request) → σ → Reply request × σ) (value : α) (state : σ) :
    (Program.done value : Program Request Reply α).run handle state = (value, state) :=
  rfl

@[simp]
theorem run_ask (handle : (request : Request) → σ → Reply request × σ) (request : Request)
    (next : Reply request → Program Request Reply α) (state : σ) :
    (Program.ask request next).run handle state =
      (next (handle request state).1).run handle (handle request state).2 :=
  rfl

/-- A run of two programs in sequence is the two runs in sequence. -/
@[simp]
theorem run_bind (handle : (request : Request) → σ → Reply request × σ)
    (program : Program Request Reply α) (next : α → Program Request Reply β) (state : σ) :
    (program.bind next).run handle state =
      (next (program.run handle state).1).run handle (program.run handle state).2 := by
  induction program generalizing state with
  | done value => rfl
  | ask request rest ih => exact ih _ _

/-- The monad's sequencing is `Program.bind`. -/
@[simp]
theorem bind_eq (program : Program Request Reply α) (next : α → Program Request Reply β) :
    program >>= next = program.bind next :=
  rfl

/-- The monad's `pure` is `Program.done`. -/
@[simp]
theorem pure_eq (value : α) : (pure value : Program Request Reply α) = .done value :=
  rfl

end Program
end Tenancy
