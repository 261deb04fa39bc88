import Tenancy.Proofs.Footprint

/-!
# Tenancy - Operations that run alone

An operation that runs without interruption reads what it left there itself.
This file evaluates such runs request by request, and gives a logic for what a
run preserves: an invariant of the tables holds at its end, and what it ends with
is as wanted.

Main definitions:

- `Action.Succeeds`, `Action.Achieves`: a run ends with a value, in a world as wanted.
- `Action.Preserves`: a run ends with tables of which the invariant holds, and
  with a value as wanted.

Main results:

- Theorem `Action.runIn_bind_ok`, `Action.runIn_read`: evaluating runs.
- Theorem `Action.Preserves.bind`: actions in sequence.
- Theorem `Action.Preserves.ofUses`: an action without writes leaves the tables
  as they are.
-/

namespace Tenancy
namespace Action

variable {α β : Type} {world after : World}

/-! ## Evaluating runs -/

@[simp]
theorem runIn_pure (value : α) (world : World) :
    (Pure.pure value : Action α).runIn world = (.ok value, world) :=
  rfl

@[simp]
theorem runIn_throw (error : Error) (world : World) :
    (MonadExcept.throw error : Action α).runIn world = (.error error, world) :=
  rfl

/-- A run of an action that is followed by another. -/
theorem runIn_bind (action : Action β) (next : β → Action α) (world : World) :
    (action >>= next).runIn world =
      match action.runIn world with
      | (.ok value, after) => (next value).runIn after
      | (.error error, after) => (.error error, after) := by
  unfold runIn
  refine (Program.run_bind World.perform action.run _ world).trans ?_
  rcases action.run.run World.perform world with ⟨result, after⟩
  cases result <;> rfl

/-- After an action that succeeded, the next one runs. -/
theorem runIn_bind_ok {action : Action β} {value : β}
    (hrun : action.runIn world = (.ok value, after)) (next : β → Action α) :
    (action >>= next).runIn world = (next value).runIn after := by
  rw [runIn_bind, hrun]

/-- A store call answers and changes the tables. -/
theorem runIn_ask (call : Call) (world : World) :
    (ask call).runIn world =
      ((world.callStore call).1.mapError .storage, (world.callStore call).2) := by
  unfold runIn ask
  rfl

/-- A call that is no write leaves the world as it is. -/
theorem callStore_of_not_write {call : Call} (hread : call.isWrite = false) :
    (world.callStore call).2 = world := by
  simp only [World.callStore, world.tables.perform_of_not_write hread]

/-- A call that is no write answers and does nothing. -/
theorem runIn_read {call : Call} {answer : call.Answer} (hread : call.isWrite = false)
    (hanswer : (world.tables.perform call).1 = .ok answer) :
    (ask call).runIn world = (.ok answer, world) := by
  rw [runIn_ask, callStore_of_not_write hread]
  change ((world.tables.perform call).1.mapError Error.storage, world) = _
  rw [hanswer]
  rfl

/-- A call that is no write does nothing, whether it fails or not. -/
theorem runIn_attempt (call : Call) (hread : call.isWrite = false) :
    (attempt call).runIn world = (.ok (world.tables.perform call).1, world) := by
  change (Except.ok (world.callStore call).1, (world.callStore call).2) = _
  rw [callStore_of_not_write hread]
  rfl

/-- A condition that is given can be required. -/
theorem runIn_require {condition : Bool} (hcondition : condition = true) (error : Error) :
    (require condition error).runIn world = (.ok (), world) := by
  rw [hcondition]
  rfl

/-- A value that is there can be demanded. -/
theorem runIn_demand {found : Option α} {value : α} (hfound : found = some value) (error : Error) :
    (demand error found).runIn world = (.ok value, world) := by
  rw [hfound]
  rfl

/-- A check that succeeds gives its value. -/
theorem runIn_check {result : Except Error α} {value : α} (hresult : result = .ok value) :
    (check result).runIn world = (.ok value, world) := by
  rw [hresult]
  rfl

/-- A check that gives a value has succeeded, and leaves the world as it is. -/
theorem of_runIn_check {result : Except Error α} {value : α}
    (hrun : (check result).runIn world = (.ok value, after)) :
    result = .ok value ∧ world = after := by
  cases result with
  | ok found =>
      obtain ⟨hvalue, hworld⟩ := Prod.mk.inj hrun
      exact ⟨hvalue, hworld⟩
  | error error => cases hrun

/-- A call that is answered leaves the tables that it says. -/
theorem runIn_answered {call : Call} {answer : call.Answer} {tables : Tables}
    (hperform : world.tables.perform call = (.ok answer, tables)) :
    (ask call).runIn world = (.ok answer, { world with tables := tables }) := by
  rw [runIn_ask]
  change ((world.tables.perform call).1.mapError Error.storage,
    { world with tables := (world.tables.perform call).2 }) = _
  rw [hperform]
  rfl

/-- An organization that is stored can be loaded. -/
theorem runIn_loadOrganization {id : String} {org : Organization}
    (hfind : world.tables.organizations.find? (·.id == id) = some org) :
    (loadOrganization id).runIn world = (.ok org, world) := by
  have hread : (ask (.organizations (.findById id))).runIn world = (.ok (some org), world) :=
    runIn_read rfl (congrArg Except.ok hfind)
  exact runIn_bind_ok hread _

/-- An organization that is not stored cannot be loaded. -/
theorem runIn_loadOrganization_none {id : String}
    (hfind : world.tables.organizations.find? (·.id == id) = none) :
    (loadOrganization id).runIn world = (.error (.organizationMissing id), world) := by
  have hread : (ask (.organizations (.findById id))).runIn world = (.ok none, world) :=
    runIn_read rfl (congrArg Except.ok hfind)
  exact runIn_bind_ok hread _

end Action

/-- A role that is stored can be loaded. -/
theorem Roles.runIn_load {world : World} {roleId : String} {role : Role}
    (hfind : world.tables.roles.find? (·.id == roleId) = some role) :
    (Roles.load roleId).runIn world = (.ok role, world) := by
  have hread : (Action.ask (.roles (.find roleId))).runIn world = (.ok (some role), world) :=
    Action.runIn_read rfl (congrArg Except.ok hfind)
  exact Action.runIn_bind_ok hread _

/-- A role that is not stored cannot be loaded. -/
theorem Roles.runIn_load_none {world : World} {roleId : String}
    (hfind : world.tables.roles.find? (·.id == roleId) = none) :
    (Roles.load roleId).runIn world = (.error (.roleMissing roleId), world) := by
  have hread : (Action.ask (.roles (.find roleId))).runIn world = (.ok none, world) :=
    Action.runIn_read rfl (congrArg Except.ok hfind)
  exact Action.runIn_bind_ok hread _

/-- Reading the tenant of a new role leaves the world as it is. -/
theorem Roles.runIn_draftTenant (world : World) (draft : Role.Draft) :
    ((Roles.draftTenant draft).runIn world).2 = world := by
  unfold Roles.draftTenant
  split
  · rfl
  · rename_i organizationId _
    cases hfind : world.tables.organizations.find? (·.id == organizationId) with
    | none => rw [Action.runIn_bind, Action.runIn_loadOrganization_none hfind]
    | some org =>
        rw [Action.runIn_bind_ok (Action.runIn_loadOrganization hfind)]
        cases Roles.tenantFor org draft.tenantId <;> rfl

/-! ## Runs that succeed -/

namespace Action

variable {α β : Type} {world after : World}

/-- A run of an action ends with a value. -/
def Succeeds (action : Action α) (world : World) : Prop :=
  ∃ value, (action.runIn world).1 = .ok value

/-- A run of an action ends with a value, in a world as wanted. -/
def Achieves (action : Action α) (world : World) (wanted : World → α → Prop) : Prop :=
  ∃ value after, action.runIn world = (.ok value, after) ∧ wanted after value

/-- After an action that succeeded, the next one achieves what is wanted. -/
theorem Achieves.bind {action : Action β} {next : β → Action α} {value : β}
    {wanted : World → α → Prop} (hrun : action.runIn world = (.ok value, after))
    (hnext : (next value).Achieves after wanted) : (action >>= next).Achieves world wanted := by
  obtain ⟨result, last, hlast, hwanted⟩ := hnext
  exact ⟨result, last, (runIn_bind_ok hrun next).trans hlast, hwanted⟩

/-- A run that is known to end with a value succeeds. -/
theorem succeeds_of_runIn {action : Action α} {value : α}
    (hrun : action.runIn world = (.ok value, after)) : action.Succeeds world :=
  ⟨value, congrArg Prod.fst hrun⟩

/-- A run of which a value is shown ends with a value that shows so. -/
theorem exists_of_map_ok {action : Action α} {view : α → β} {shown : β}
    (hshown : (action.runIn world).1.map view = .ok shown) :
    ∃ value, (action.runIn world).1 = .ok value ∧ view value = shown := by
  cases hrun : (action.runIn world).1 with
  | error error =>
      rw [hrun] at hshown
      cases hshown
  | ok value =>
      rw [hrun] at hshown
      exact ⟨value, rfl, Except.ok.inj hshown⟩

/-- A run that is known to fail does not succeed. -/
theorem not_succeeds_of_runIn {action : Action α} {error : Error}
    (hrun : action.runIn world = (.error error, after)) : ¬action.Succeeds world := by
  rintro ⟨value, hvalue⟩
  rw [hrun] at hvalue
  cases hvalue

/-- After an action that succeeded, it is up to the next one. -/
theorem succeeds_bind {action : Action β} {value : β}
    (hrun : action.runIn world = (.ok value, after)) (next : β → Action α) :
    (action >>= next).Succeeds world ↔ (next value).Succeeds after := by
  unfold Succeeds
  rw [runIn_bind_ok hrun]

/-- After an action that failed, nothing else runs. -/
theorem not_succeeds_bind {action : Action β} {error : Error}
    (hrun : action.runIn world = (.error error, after)) (next : β → Action α) :
    ¬(action >>= next).Succeeds world := by
  have hbind : (action >>= next).runIn world = (.error error, after) := by
    rw [runIn_bind, hrun]
  exact not_succeeds_of_runIn hbind

/-- If two actions in sequence succeed, so did the first one, and the second one where it ended. -/
theorem Succeeds.of_bind {action : Action β} {next : β → Action α}
    (succeeds : (action >>= next).Succeeds world) :
    ∃ value middle, action.runIn world = (.ok value, middle) ∧ (next value).Succeeds middle := by
  rcases hrun : action.runIn world with ⟨result, middle⟩
  cases result with
  | error error => exact absurd succeeds (not_succeeds_bind hrun next)
  | ok value => exact ⟨value, middle, rfl, (succeeds_bind hrun next).1 succeeds⟩

/-- A condition that was required was given. -/
theorem Succeeds.of_require {condition : Bool} {error : Error}
    (succeeds : (require condition error).Succeeds world) : condition = true := by
  cases condition with
  | true => rfl
  | false =>
      obtain ⟨_, hvalue⟩ := succeeds
      cases hvalue

end Action

/-! ## What runs preserve -/

/-- A program without writes leaves the tables as they are, and ends with a value as wanted. -/
theorem Program.Uses.run {α : Type} {wanted : α → Prop} {program : Program Effect Effect.Reply α}
    (huses : program.Uses (fun effect => effect.isWrite = false) wanted) (world : World) :
    (program.run World.perform world).2.tables = world.tables ∧
      wanted (program.run World.perform world).1 := by
  induction program generalizing world with
  | done value => exact ⟨rfl, huses⟩
  | ask effect rest ih =>
      obtain ⟨htables, hwanted⟩ := ih _ (huses.2 _) (World.perform effect world).2
      rw [world.perform_tables_of_not_write huses.1] at htables
      exact ⟨htables, hwanted⟩

/-- A run from a world ends with tables of which `inv` holds, and if it succeeds with a value as
wanted. -/
structure Action.Preserves {α : Type} (inv : Tables → Prop) (wanted : Tables → α → Prop)
    (world : World) (action : Action α) : Prop where
  kept : inv (action.runIn world).2.tables
  ended : ∀ value, (action.runIn world).1 = .ok value →
    wanted (action.runIn world).2.tables value

namespace Action.Preserves

variable {α β : Type} {inv : Tables → Prop} {wanted : Tables → α → Prop} {world : World}

theorem pure {value : α} (hinv : inv world.tables) (hwanted : wanted world.tables value) :
    (Pure.pure value : Action α).Preserves inv wanted world where
  kept := hinv
  ended := by
    rintro _ ⟨⟩
    exact hwanted

theorem throw (error : Error) (hinv : inv world.tables) :
    (MonadExcept.throw error : Action α).Preserves inv wanted world where
  kept := hinv
  ended := by rintro _ ⟨⟩

/-- After a run that succeeded, the next action runs. -/
theorem afterRun {action : Action β} {next : β → Action α} {value : β} {after : World}
    (hrun : action.runIn world = (.ok value, after))
    (hnext : (next value).Preserves inv wanted after) :
    (action >>= next).Preserves inv wanted world := by
  have hbind := runIn_bind_ok hrun next
  refine ⟨?_, ?_⟩
  · rw [hbind]
    exact hnext.kept
  · rw [hbind]
    exact hnext.ended

/-- After a run that failed, nothing else runs. -/
theorem afterFailedRun {action : Action β} {next : β → Action α} {error : Error} {after : World}
    (hrun : action.runIn world = (.error error, after)) (hinv : inv after.tables) :
    (action >>= next).Preserves inv wanted world := by
  have hbind := runIn_bind action next world
  rw [hrun] at hbind
  refine ⟨?_, ?_⟩
  · rw [hbind]
    exact hinv
  · rw [hbind]
    rintro _ ⟨⟩

/-- The second action runs where the first one ended, if it succeeded. -/
theorem bind {middle : Tables → β → Prop} {action : Action β} {next : β → Action α}
    (hfirst : action.Preserves inv middle world)
    (hnext : ∀ after value, inv after.tables → middle after.tables value →
      (next value).Preserves inv wanted after) :
    (action >>= next).Preserves inv wanted world := by
  obtain ⟨hkept, hended⟩ := hfirst
  rcases hrun : action.runIn world with ⟨result, after⟩
  rw [hrun] at hkept hended
  cases result with
  | error error => exact afterFailedRun hrun hkept
  | ok value => exact afterRun hrun (hnext after value hkept (hended value rfl))

/-- Less may be wanted of the values an action ends with. -/
theorem mono {looser : Tables → α → Prop} {action : Action α}
    (hpreserves : action.Preserves inv wanted world)
    (hlooser : ∀ tables value, wanted tables value → looser tables value) :
    action.Preserves inv looser world where
  kept := hpreserves.kept
  ended value hvalue := hlooser _ value (hpreserves.ended value hvalue)

/-- An action without writes leaves the tables as they are. -/
theorem afterUses {fine : β → Prop} {action : Action β} {next : β → Action α}
    (huses : action.Uses (fun effect => effect.isWrite = false) fine) (hinv : inv world.tables)
    (hnext : ∀ after value, after.tables = world.tables → fine value →
      (next value).Preserves inv wanted after) :
    (action >>= next).Preserves inv wanted world := by
  obtain ⟨htables, hfine⟩ := huses.run.run world
  have hfirst : action.Preserves inv (fun tables value => tables = world.tables ∧ fine value)
      world := by
    refine ⟨?_, fun value hvalue => ⟨htables, hfine value hvalue⟩⟩
    have hkept : (action.runIn world).2.tables = world.tables := htables
    rw [hkept]
    exact hinv
  exact hfirst.bind fun after value _ hmiddle => hnext after value hmiddle.1 hmiddle.2

/-- An action without writes, at the end. -/
theorem ofUses {fine : α → Prop} {action : Action α}
    (huses : action.Uses (fun effect => effect.isWrite = false) fine) (hinv : inv world.tables) :
    action.Preserves inv (fun _ => fine) world := by
  obtain ⟨htables, hfine⟩ := huses.run.run world
  have hkept : (action.runIn world).2.tables = world.tables := htables
  exact ⟨hkept ▸ hinv, fun value hvalue => hfine value hvalue⟩

/-- After a condition was required, it is given. -/
theorem require {condition : Bool} {error : Error} {next : Unit → Action α}
    (hinv : inv world.tables)
    (hnext : condition = true → (next ()).Preserves inv wanted world) :
    (Action.require condition error >>= next).Preserves inv wanted world := by
  cases condition with
  | false => exact throw error hinv
  | true => exact hnext rfl

/-- After a value was demanded, it is there. -/
theorem demand {error : Error} {found : Option β} {next : β → Action α} (hinv : inv world.tables)
    (hnext : ∀ value, found = some value → (next value).Preserves inv wanted world) :
    (Action.demand error found >>= next).Preserves inv wanted world := by
  cases found with
  | none => exact throw error hinv
  | some value => exact hnext value rfl

/-- After a check was made, it has succeeded. -/
theorem check {result : Except Error β} {next : β → Action α} (hinv : inv world.tables)
    (hnext : ∀ value, result = .ok value → (next value).Preserves inv wanted world) :
    (Action.check result >>= next).Preserves inv wanted world := by
  cases result with
  | error error => exact throw error hinv
  | ok value => exact hnext value rfl

/-- A store call that keeps the invariant. -/
theorem ask (call : Call) (hinv : inv (world.tables.perform call).2) :
    (Action.ask call).Preserves inv
      (fun tables answer => tables = (world.tables.perform call).2 ∧
        (world.tables.perform call).1 = .ok answer) world := by
  exact ⟨hinv, fun answer hanswer => ⟨rfl, eq_ok_of_mapError hanswer⟩⟩

/-- A store call that keeps the invariant, whatever it answers. -/
theorem write (call : Call) {next : call.Answer → Action α}
    (hinv : inv (world.tables.perform call).2)
    (hnext : ∀ after answer, inv after.tables → (next answer).Preserves inv wanted after) :
    (Action.ask call >>= next).Preserves inv wanted world :=
  (ask call hinv).bind fun after answer hkept _ => hnext after answer hkept

/-- A call that is no write answers and does nothing. -/
theorem read (call : Call) {next : call.Answer → Action α} (hread : call.isWrite = false)
    (hinv : inv world.tables)
    (hnext : ∀ answer, (world.tables.perform call).1 = .ok answer →
      (next answer).Preserves inv wanted world) :
    (Action.ask call >>= next).Preserves inv wanted world := by
  cases hanswer : (world.tables.perform call).1 with
  | error error =>
      have hrun : (Action.ask call).runIn world = (.error (.storage error), world) := by
        rw [runIn_ask, callStore_of_not_write hread]
        change ((world.tables.perform call).1.mapError Error.storage, world) = _
        rw [hanswer]
        rfl
      exact afterFailedRun hrun hinv
  | ok answer => exact afterRun (runIn_read hread hanswer) (hnext answer hanswer)

/-- Loading an organization gives one that is stored. -/
theorem loadOrganization {id : String} {next : Organization → Action α} (hinv : inv world.tables)
    (hnext : ∀ org, world.tables.organizations.find? (·.id == id) = some org →
      (next org).Preserves inv wanted world) :
    (Action.loadOrganization id >>= next).Preserves inv wanted world := by
  cases hfind : world.tables.organizations.find? (·.id == id) with
  | none => exact afterFailedRun (runIn_loadOrganization_none hfind) hinv
  | some org => exact afterRun (runIn_loadOrganization hfind) (hnext org hfind)

/-- Loading a role gives one that is stored. -/
theorem loadRole {roleId : String} {next : Role → Action α} (hinv : inv world.tables)
    (hnext : ∀ role, world.tables.roles.find? (·.id == roleId) = some role →
      (next role).Preserves inv wanted world) :
    (Roles.load roleId >>= next).Preserves inv wanted world := by
  cases hfind : world.tables.roles.find? (·.id == roleId) with
  | none => exact afterFailedRun (Roles.runIn_load_none hfind) hinv
  | some role => exact afterRun (Roles.runIn_load hfind) (hnext role hfind)

/-- An action that leaves the world as it is. -/
theorem afterSame {action : Action β} {next : β → Action α}
    (hsame : (action.runIn world).2 = world) (hinv : inv world.tables)
    (hnext : ∀ value, (next value).Preserves inv wanted world) :
    (action >>= next).Preserves inv wanted world := by
  rcases hrun : action.runIn world with ⟨result, after⟩
  rw [hrun] at hsame
  subst hsame
  cases result with
  | error error => exact afterFailedRun hrun hinv
  | ok value => exact afterRun hrun (hnext value)

/-- A store call whose failure is handled keeps the invariant. -/
theorem attempt (call : Call) (hinv : inv (world.tables.perform call).2) :
    (Action.attempt call).Preserves inv (fun _ _ => True) world :=
  ⟨hinv, fun _ _ => trivial⟩

/-- An audit note at the end. -/
theorem note (note : AuditNote) (value : α) (hinv : inv world.tables) :
    (Action.note note >>= fun _ => (Pure.pure value : Action α)).Preserves inv (fun _ _ => True)
      world :=
  afterRun rfl (pure hinv trivial)

/-- Reading the clock. -/
theorem now {next : Nat → Action α} (hnext : (next world.clock).Preserves inv wanted world) :
    (Action.now >>= next).Preserves inv wanted world :=
  afterRun rfl hnext

/-- Drawing a fresh id. -/
theorem freshId {next : String → Action α}
    (hnext : (next world.drawId.1).Preserves inv wanted world.drawId.2) :
    (Action.freshId >>= next).Preserves inv wanted world :=
  afterRun rfl hnext

/-- Drawing random bytes. -/
theorem randomBytes {next : List UInt8 → Action α}
    (hnext : (next world.drawBytes.1).Preserves inv wanted world.drawBytes.2) :
    (Action.randomBytes >>= next).Preserves inv wanted world :=
  afterRun rfl hnext

end Action.Preserves
end Tenancy
