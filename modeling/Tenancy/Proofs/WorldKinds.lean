import Tenancy.Proofs.Footprint

/-!
# Tenancy - Requests under the replies of some worlds

What an operation may ask for depends on what it is told.  Where all worlds that a run
passes through are of one kind, an operation only gets the replies that such worlds
give, so more is known of its requests than what holds under any replies.  This is so
for the operations that are started from some point on, if from then on the worlds are
of the kind; of those that were on their way before, nothing is said.

Main definitions:

- `Program.UsesIn`, `Action.UsesIn`: programs all of whose requests are allowed, under
  the replies that worlds of a kind give.

Main results:

- Theorem `Action.UsesIn.bind`, `Action.UsesIn.ask`: actions in sequence, and what an
  answer tells.
- Theorem `Regime.Continues.usesIn`: the operations that are started while worlds are of
  a kind.
-/

namespace Tenancy

/-- Every request of a program is allowed and every value it ends with is as wanted, under the
replies that worlds of a kind give. -/
def Program.UsesIn {α : Type} (kind : World → Prop) (allowed : Effect → Prop) (wanted : α → Prop) :
    Program Effect Effect.Reply α → Prop
  | .done value => wanted value
  | .ask effect next => allowed effect ∧
    ∀ world, kind world → (next (World.perform effect world).1).UsesIn kind allowed wanted

/-- Every request of an action is allowed and every value it ends with is as wanted, under the
replies that worlds of a kind give. -/
structure Action.UsesIn {α : Type} (kind : World → Prop) (allowed : Effect → Prop)
    (wanted : α → Prop) (action : Action α) : Prop where
  run : action.run.UsesIn kind allowed fun result => ∀ value, result = .ok value → wanted value

variable {α β : Type} {kind : World → Prop} {allowed : Effect → Prop}

namespace Program.UsesIn

/-- Two programs in sequence make the requests of both. -/
theorem bind {middle : α → Prop} {wanted : β → Prop} {program : Program Effect Effect.Reply α}
    {next : α → Program Effect Effect.Reply β} (uses : program.UsesIn kind allowed middle)
    (hnext : ∀ value, middle value → (next value).UsesIn kind allowed wanted) :
    (program.bind next).UsesIn kind allowed wanted := by
  induction program with
  | done value => exact hnext value uses
  | ask effect rest ih => exact ⟨uses.1, fun world hkind => ih _ (uses.2 world hkind)⟩

/-- What is allowed under any replies is allowed under those of a kind of worlds. -/
theorem ofUses {wanted : α → Prop} {program : Program Effect Effect.Reply α}
    (uses : program.Uses allowed wanted) : program.UsesIn kind allowed wanted := by
  induction program with
  | done value => exact uses
  | ask effect rest ih => exact ⟨uses.1, fun _ _ => ih _ (uses.2 _)⟩

/-- What a program ends with need not be as wanted. -/
theorem forget {wanted : α → Prop} {program : Program Effect Effect.Reply α}
    (uses : program.UsesIn kind allowed wanted) : program.UsesIn kind allowed fun _ => True := by
  induction program with
  | done value => trivial
  | ask effect rest ih => exact ⟨uses.1, fun world hkind => ih _ (uses.2 world hkind)⟩

end Program.UsesIn

namespace Action.UsesIn

variable {wanted : α → Prop}

theorem pure {value : α} (hwanted : wanted value) :
    (Pure.pure value : Action α).UsesIn kind allowed wanted where
  run := by
    rintro _ ⟨⟩
    exact hwanted

theorem throw (error : Error) :
    (MonadExcept.throw error : Action α).UsesIn kind allowed wanted where
  run := by rintro _ ⟨⟩

theorem bind {middle : β → Prop} {action : Action β} {next : β → Action α}
    (uses : action.UsesIn kind allowed middle)
    (hnext : ∀ value, middle value → (next value).UsesIn kind allowed wanted) :
    (action >>= next).UsesIn kind allowed wanted where
  run := by
    refine Program.UsesIn.bind uses.run fun result hresult => ?_
    cases result with
    | ok value => exact (hnext value (hresult value rfl)).run
    | error error => exact (throw error).run

/-- What is allowed under any replies is allowed under those of a kind of worlds. -/
theorem ofUses {action : Action α} (uses : action.Uses allowed wanted) :
    action.UsesIn kind allowed wanted where
  run := .ofUses uses.run

/-- An action whose requests are allowed under any replies comes before another one. -/
theorem afterUses {fine : β → Prop} {action : Action β} {next : β → Action α}
    (uses : action.Uses allowed fine)
    (hnext : ∀ value, fine value → (next value).UsesIn kind allowed wanted) :
    (action >>= next).UsesIn kind allowed wanted :=
  (ofUses uses).bind hnext

/-- A store call is answered as a world of the kind answers it. -/
theorem ask {call : Call} {wanted : call.Answer → Prop} (hallowed : allowed (.store call))
    (hanswer : ∀ world, kind world → ∀ answer, (world.tables.perform call).1 = .ok answer →
      wanted answer) :
    (Action.ask call).UsesIn kind allowed wanted where
  run := ⟨hallowed, fun world hkind answer hanswered =>
    hanswer world hkind answer (eq_ok_of_mapError hanswered)⟩

end Action.UsesIn

/-! ## Runs through worlds of a kind -/

/-- Operations that are started from some point of a run on go on to make only allowed requests, if
all operations do so in worlds of a kind and from there on all worlds are of that kind. -/
theorem Regime.Continues.usesIn {regime : Regime} {before after : Configuration}
    (continues : regime.Continues before after)
    (kinds : ∀ middle, regime.Continues before middle → regime.Continues middle after →
      kind middle.world)
    (uses : ∀ deployment operation,
      (Operation.action deployment operation).UsesIn kind allowed fun _ => True)
    (index : Nat) (task : Task) (hlater : before.tasks.length ≤ index)
    (htask : after.tasks[index]? = some task) : task.rest.UsesIn kind allowed fun _ => True := by
  induction continues generalizing index task with
  | refl =>
      rw [List.getElem?_eq_none hlater] at htask
      cases htask
  | @tail middle last continues step ih =>
      have earlier := ih fun other hfirst hsecond => kinds other hfirst (hsecond.tail step)
      have hkind : kind middle.world := kinds middle continues (.single step)
      cases step with
      | start deployment operation _ =>
          by_cases hlt : index < middle.tasks.length
          · refine earlier index task hlater ?_
            rw [← htask]
            exact (List.getElem?_append_left hlt).symm
          · -- The only other operation is the one that was started.
            have hmem : task ∈ [Task.begin deployment operation] := by
              rw [Configuration.start, List.getElem?_append_right (by omega)] at htask
              exact List.mem_of_getElem? htask
            rw [List.mem_singleton.1 hmem]
            exact (uses deployment operation).run.forget
      | advance moved _ =>
          rcases middle.advance_cases moved with hsame | ⟨operation, effect, next, hmoved⟩
          · rw [hsame] at htask
            exact earlier index task hlater htask
          · rw [Configuration.advance_ask hmoved] at htask
            by_cases hindex : moved = index
            · subst hindex
              rw [List.getElem?_set_self (List.getElem?_eq_some_iff.1 hmoved).1] at htask
              have huses := earlier moved _ hlater hmoved
              cases htask
              exact huses.2 middle.world hkind
            · rw [List.getElem?_set_ne hindex] at htask
              exact earlier index task hlater htask
      | shift outside _ => exact earlier index task hlater htask

end Tenancy
