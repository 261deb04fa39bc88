import Tenancy.Proofs.InvitationAcceptance

/-!
# Tenancy - What operations do to memberships and note of it

An operation adds, changes or removes at most one membership on request, and it leaves
at most one note about a membership.  This file follows both through a run: the roster
of a world is its memberships together with the notes about memberships in its trail.

Main definitions:

- `World.roster`: the memberships and the notes about them.
- `Roster.Moves`: how a roster may differ after an operation.
- `Action.Alters`: a run leaves the roster as wanted, or as it was if it fails.

Main results:

- Theorem `Members.update_alters`: what is noted as a change of a membership changes
  its flag or its roles.
- Theorem `Operation.alters`: what every operation does to the roster.
-/

namespace Tenancy

/-! ## Rosters -/

/-- The memberships of a world, and the notes about memberships in its trail. -/
structure Roster where
  memberships : List Membership
  notes : List AuditNote

/-- The roster of a world. -/
def World.roster (world : World) : Roster where
  memberships := world.tables.memberships
  notes := (world.trail.entries.map (·.note)).filter (·.event.isMembership)

/-- A trail that is attached and takes in every note. -/
structure Trail.IsWorking (trail : Trail) : Prop where
  attached : trail.attached = true
  accepts : ∀ number, trail.accepts number = true

/-- The membership of a user in an organization. -/
def Roster.memberOf (roster : Roster) (organizationId userId : String) : Option Membership :=
  roster.memberships.find? (Tables.isMemberOf organizationId userId)

/-- The keys of all memberships. -/
def Roster.keys (roster : Roster) : List (String × String) :=
  roster.memberships.map Membership.key

/-- A user is a member of an organization exactly if the key of the membership is there. -/
theorem Roster.isSome_memberOf_iff {roster : Roster} {organizationId userId : String} :
    (roster.memberOf organizationId userId).isSome = true ↔
      (organizationId, userId) ∈ roster.keys := by
  rw [memberOf, List.isSome_find?]
  exact Tables.any_isMemberOf

/-! ## Requests that spare the roster -/

/-- Requests that leave the roster as it is. -/
def Effect.SparesRoster (effect : Effect) : Prop :=
  ∀ world, (World.perform effect world).2.roster = world.roster

namespace Effect.SparesRoster

/-- Store calls that are not about memberships. -/
theorem store {call : Call} (hother : ∀ membershipCall, call ≠ .memberships membershipCall) :
    (Effect.store call).SparesRoster := by
  intro world
  have hsame : (world.tables.perform call).2.memberships = world.tables.memberships :=
    Tables.perform_memberships hother
  exact congrArg (Roster.mk · world.roster.notes) hsame

/-- Notes that are not about memberships. -/
theorem note {note : AuditNote} (hother : note.event.isMembership = false) :
    (Effect.note note).SparesRoster := by
  intro world
  refine congrArg (Roster.mk world.tables.memberships) ?_
  rw [World.perform, Trail.entries_offer]
  split <;> simp [hother]

/-- Plain requests. -/
theorem plain (effect : Effect) (hplain : effect.isPlain = true) : effect.SparesRoster := by
  cases effect with
  | store call =>
      intro world
      have hsame := World.perform_tables_of_not_write world
        (Effect.plain_reads (.store call) hplain)
      exact congrArg (fun tables => Roster.mk tables.memberships world.roster.notes) hsame
  | note noted => exact note (by simpa [isPlain] using hplain)
  | clock | freshId | randomBytes => exact fun _ => rfl

end Effect.SparesRoster

/-- A working trail takes in a note about a membership. -/
theorem World.roster_note {world : World} (working : world.trail.IsWorking) {note : AuditNote}
    (hmember : note.event.isMembership = true) :
    (World.perform (.note note) world).2.roster =
      { world.roster with notes := world.roster.notes ++ [note] } := by
  simp [World.perform, World.roster, Trail.entries_offer, working.attached, working.accepts,
    hmember]

/-- No request stops a trail from working. -/
theorem Trail.IsWorking.perform {world : World} (working : world.trail.IsWorking)
    (effect : Effect) : (World.perform effect world).2.trail.IsWorking := by
  cases effect with
  | note noted =>
      simp only [World.perform, Trail.offer_eq, Trail.record_snd, working.attached, if_true]
      exact ⟨rfl, working.accepts⟩
  | store | clock | freshId | randomBytes => exact working

/-- A program whose requests spare the roster leaves it as it is. -/
theorem Program.Uses.run_roster {α : Type} {wanted : α → Prop}
    {program : Program Effect Effect.Reply α} (huses : program.Uses Effect.SparesRoster wanted)
    {world : World} (working : world.trail.IsWorking) :
    (program.run World.perform world).2.roster = world.roster ∧
      (program.run World.perform world).2.trail.IsWorking ∧
      wanted (program.run World.perform world).1 := by
  induction program generalizing world with
  | done value => exact ⟨rfl, working, huses⟩
  | ask effect rest ih =>
      obtain ⟨hroster, hworking, hwanted⟩ := ih _ (huses.2 _) (working.perform effect)
      exact ⟨hroster.trans (huses.1 world), hworking, hwanted⟩

/-! ## Actions that alter the roster -/

/-- A run that succeeds turns the roster into another as wanted; one that fails leaves it as it
was. -/
structure Action.Alters {α : Type} (turns : Roster → Roster → Prop) (world : World)
    (action : Action α) : Prop where
  failed : ∀ error, (action.runIn world).1 = .error error →
    (action.runIn world).2.roster = world.roster
  ended : ∀ value, (action.runIn world).1 = .ok value →
    turns world.roster (action.runIn world).2.roster

namespace Action.Alters

variable {α β : Type} {turns : Roster → Roster → Prop} {world : World}

/-- A run that is known to succeed. -/
theorem of_run {action : Action α} {value : α} {after : World}
    (hrun : action.runIn world = (.ok value, after)) (hturns : turns world.roster after.roster) :
    action.Alters turns world := by
  constructor <;> rw [hrun]
  · rintro _ ⟨⟩
  · exact fun _ _ => hturns

theorem pure {value : α} (hturns : turns world.roster world.roster) :
    (Pure.pure value : Action α).Alters turns world :=
  of_run rfl hturns

/-- A run that is known to fail. -/
theorem of_failed_run {action : Action α} {error : Error} {after : World}
    (hrun : action.runIn world = (.error error, after)) (hsame : after.roster = world.roster) :
    action.Alters turns world := by
  constructor <;> rw [hrun]
  · exact fun _ _ => hsame
  · rintro _ ⟨⟩

/-- After a run that succeeded and left the roster as it was, the next action runs. -/
theorem afterRun {action : Action β} {next : β → Action α} {value : β} {after : World}
    (hrun : action.runIn world = (.ok value, after)) (hsame : after.roster = world.roster)
    (hnext : (next value).Alters turns after) : (action >>= next).Alters turns world := by
  have hbind := runIn_bind_ok hrun next
  constructor <;> rw [hbind, ← hsame]
  · exact hnext.failed
  · exact hnext.ended

/-- An action that spares the roster comes before one that alters it. -/
theorem afterUses {middle : β → Prop} {action : Action β} {next : β → Action α}
    (huses : action.Uses Effect.SparesRoster middle) (working : world.trail.IsWorking)
    (hnext : ∀ value after, after.roster = world.roster → after.trail.IsWorking → middle value →
      (next value).Alters turns after) : (action >>= next).Alters turns world := by
  obtain ⟨hroster, hworking, hmiddle⟩ := huses.run.run_roster working
  rcases hrun : action.runIn world with ⟨result, after⟩
  have hprogram : action.run.run World.perform world = (result, after) := hrun
  rw [hprogram] at hroster hworking hmiddle
  cases result with
  | ok value => exact afterRun hrun hroster (hnext value after hroster hworking (hmiddle value rfl))
  | error error =>
      have hbind : (action >>= next).runIn world = (.error error, after) := by
        rw [runIn_bind, hrun]
      exact of_failed_run hbind hroster

/-- An action that spares the roster. -/
theorem ofUses {action : Action α} (huses : action.Uses Effect.SparesRoster fun _ => True)
    (working : world.trail.IsWorking) (hturns : turns world.roster world.roster) :
    action.Alters turns world := by
  obtain ⟨hroster, -, -⟩ := huses.run.run_roster working
  have hsame : (action.runIn world).2.roster = world.roster := hroster
  constructor <;> rw [hsame]
  · exact fun _ _ => rfl
  · exact fun _ _ => hturns

/-- Less may be wanted of how the roster turns. -/
theorem mono {looser : Roster → Roster → Prop} {action : Action α}
    (alters : action.Alters turns world)
    (hlooser : turns world.roster (action.runIn world).2.roster →
      looser world.roster (action.runIn world).2.roster) : action.Alters looser world where
  failed := alters.failed
  ended value hvalue := hlooser (alters.ended value hvalue)

/-- A read comes before what depends on its answer. -/
theorem afterRead {call : Call} {answer : call.Answer} {next : call.Answer → Action α}
    (hread : call.isWrite = false) (hanswer : (world.tables.perform call).1 = .ok answer)
    (hnext : (next answer).Alters turns world) :
    (Action.ask call >>= next).Alters turns world :=
  afterRun (runIn_read hread hanswer) rfl hnext

/-- After a condition was required, it is given. -/
theorem require {condition : Bool} {error : Error} {next : Unit → Action α}
    (hnext : condition = true → (next ()).Alters turns world) :
    (Action.require condition error >>= next).Alters turns world := by
  cases condition with
  | false => exact of_failed_run rfl rfl
  | true => exact hnext rfl

/-- After a value was demanded, it is there. -/
theorem demand {error : Error} {found : Option β} {next : β → Action α}
    (hnext : ∀ value, found = some value → (next value).Alters turns world) :
    (Action.demand error found >>= next).Alters turns world := by
  cases found with
  | none => exact of_failed_run rfl rfl
  | some value => exact hnext value rfl

end Action.Alters

/-! ## Moves -/

/-- How a roster differs after a membership was added, changed or removed. -/
inductive Roster.Turn (before after : Roster) (key : String × String) : AuditEvent → Prop
  | added (new : key ∉ before.keys) (keys : after.keys = before.keys ++ [key]) :
      Turn before after key .memberAdded
  | updated (old : key ∈ before.keys) (keys : after.keys = before.keys) :
      Turn before after key .memberUpdated
  | removed (old : key ∈ before.keys) (keys : after.keys = before.keys.filter (· != key)) :
      Turn before after key .memberRemoved

/-- How a roster may differ after an operation: not at all, or by one membership with a note of
it. -/
inductive Roster.Moves (before after : Roster) : Option (AuditEvent × String × String) → Prop
  | idle (same : after = before) : Moves before after none
  | noted {event : AuditEvent} {key : String × String} {note : AuditNote}
      (turn : Roster.Turn before after key event) (notes : after.notes = before.notes ++ [note])
      (isEvent : note.event = event) (isIn : note.organizationId = some key.1)
      (isAbout : note.targetId = some key.2) : Moves before after (some (event, key))

namespace Roster.Moves

variable {before after : Roster} {move : Option (AuditEvent × String × String)}

/-- A membership is noted as added exactly if it is new. -/
theorem added_iff (moves : before.Moves after move) (key : String × String) :
    move = some (.memberAdded, key) ↔ key ∉ before.keys ∧ key ∈ after.keys := by
  cases moves with
  | idle same => simp [same]
  | noted turn =>
      cases turn with
      | added new keys =>
          rw [keys, List.mem_append, List.mem_singleton]
          constructor
          · rintro ⟨⟩
            exact ⟨new, .inr rfl⟩
          · rintro ⟨hnew, hold | rfl⟩
            · exact absurd hold hnew
            · rfl
      | updated old keys => simp [keys]
      | removed old keys =>
          rw [keys, List.mem_filter]
          constructor
          · rintro ⟨⟩
          · rintro ⟨hnew, hold, -⟩
            exact absurd hold hnew

/-- A membership is noted as removed exactly if it is gone. -/
theorem removed_iff (moves : before.Moves after move) (key : String × String) :
    move = some (.memberRemoved, key) ↔ key ∈ before.keys ∧ key ∉ after.keys := by
  cases moves with
  | idle same => simp [same]
  | noted turn =>
      cases turn with
      | added new keys =>
          rw [keys, List.mem_append]
          constructor
          · rintro ⟨⟩
          · rintro ⟨hold, hgone⟩
            exact absurd (.inl hold) hgone
      | updated old keys => simp [keys]
      | removed old keys =>
          rw [keys, List.mem_filter]
          constructor
          · rintro ⟨⟩
            exact ⟨old, by simp⟩
          · rintro ⟨hold, hgone⟩
            by_contra hother
            apply hgone
            exact ⟨hold, bne_iff_ne.2 fun hsame => hother (by rw [hsame])⟩

/-- A membership that is noted as updated was there before and is still there. -/
theorem updated {key : String × String}
    (moves : before.Moves after (some (.memberUpdated, key))) :
    key ∈ before.keys ∧ key ∈ after.keys := by
  cases moves with
  | noted turn =>
      cases turn with
      | updated old keys => exact ⟨old, keys ▸ old⟩

end Roster.Moves

/-! ## Turns of the store -/

/-- The memberships of a world have turned, and the trail has not noted it yet. -/
structure World.Turns (before after : World) (key : String × String) (event : AuditEvent) : Prop
    where
  notes : after.roster.notes = before.roster.notes
  working : before.trail.IsWorking → after.trail.IsWorking
  turn : before.roster.Turn after.roster key event

/-- Requests that spare the roster may come between a turn and the note of it. -/
theorem World.Turns.spared {before after : World} {key : String × String} {event : AuditEvent}
    (turns : before.Turns after key event) {effect : Effect} (hspares : effect.SparesRoster) :
    before.Turns (World.perform effect after).2 key event where
  notes := by
    rw [hspares after]
    exact turns.notes
  working hworking := (turns.working hworking).perform effect
  turn := by
    rw [hspares after]
    exact turns.turn

/-- After a turn and a note of it, the roster has moved. -/
theorem World.Turns.noted {before after : World} {key : String × String} {event : AuditEvent}
    (turns : before.Turns after key event) (working : before.trail.IsWorking) {note : AuditNote}
    (hevent : note.event = event) (hmember : event.isMembership = true)
    (hin : note.organizationId = some key.1) (habout : note.targetId = some key.2) :
    before.roster.Moves (World.perform (.note note) after).2.roster (some (event, key)) := by
  obtain ⟨hnotes, hworking, hturn⟩ := turns
  rw [World.roster_note (hworking working) (by rw [hevent, hmember])]
  refine .noted ?_ (by rw [hnotes]) hevent hin habout
  cases hturn with
  | added new keys => exact .added new keys
  | updated old keys => exact .updated old keys
  | removed old keys => exact .removed old keys

section Store

variable {world : World}

/-- A user who is no member can be made one. -/
theorem World.insert_turns {member : Membership}
    (hnew : world.roster.memberOf member.organizationId member.userId = none) (clears : Bool) :
    ∃ after, (Action.ask (.memberships (.insert member clears))).runIn world = (.ok (), after) ∧
      world.Turns after member.key .memberAdded := by
  refine ⟨_, Action.runIn_answered (Tables.perform_insert hnew clears), rfl, id, .added ?_ ?_⟩
  · intro hold
    have hmember := Roster.isSome_memberOf_iff.2 hold
    rw [hnew] at hmember
    cases hmember
  · simp only [Roster.keys, World.roster, List.map_append]
    split
    · rw [Tables.map_key_clearOthers]
      rfl
    · rfl

/-- A stored membership can be changed. -/
theorem World.change_turns {member : Membership} {change : Membership.Change}
    (hold : world.roster.memberOf change.organizationId change.userId = some member) :
    ∃ after, (Action.ask (.memberships (.applyChange change))).runIn world =
        (.ok (member.applyChange change), after) ∧
      world.Turns after (change.organizationId, change.userId) .memberUpdated ∧
      after.roster.memberOf change.organizationId change.userId =
        some (member.applyChange change) := by
  refine ⟨_, Action.runIn_answered (Tables.perform_applyChange hold), ⟨rfl, id, ?_⟩, ?_⟩
  all_goals
    have hkey : (member.applyChange change).key = (change.organizationId, change.userId) :=
      (Tables.find_isMemberOf hold).2
    simp only [World.roster]
    generalize hothers : (if change.clearsOthers then
      Tables.clearOthers world.tables.memberships change.organizationId change.userId
        member.tenantId change.updatedAt
      else world.tables.memberships) = others
  · have hkeys : others.map Membership.key = world.roster.keys := by
      rw [← hothers]
      split
      · exact Tables.map_key_clearOthers _ _ _ _ _
      · rfl
    have hmem : (change.organizationId, change.userId) ∈ world.roster.keys :=
      Roster.isSome_memberOf_iff.1 (by rw [hold]; rfl)
    refine .updated hmem ?_
    refine (Tables.map_key_put ?_).trans hkeys
    rw [hkeys, hkey]
    exact hmem
  · have hfound := Tables.find_put Membership.key (member.applyChange change) others
    rw [hkey] at hfound
    exact hfound

/-- A stored membership can be deleted. -/
theorem World.delete_turns {organizationId userId : String}
    (hold : world.tables.memberships.any (Tables.isMemberOf organizationId userId) = true) :
    ∃ after, (Action.ask (.memberships (.delete organizationId userId))).runIn world =
        (.ok true, after) ∧ world.Turns after (organizationId, userId) .memberRemoved := by
  have hperform : world.tables.perform (.memberships (.delete organizationId userId)) =
      (.ok true, { world.tables with
        memberships := world.tables.memberships.filter (!Tables.isMemberOf organizationId userId ·)
        membershipWrites := world.tables.membershipWrites + 1 }) := if_pos hold
  refine ⟨_, Action.runIn_answered hperform, rfl, id, .removed (Tables.any_isMemberOf.1 hold) ?_⟩
  simp only [Roster.keys, World.roster, List.filter_map]
  rfl

end Store

/-! ## Changes that change something -/

namespace Membership

/-- The primary flag or the set of assigned roles is not the same. -/
def Differs (before after : Membership) : Prop :=
  before.isPrimary ≠ after.isPrimary ∨ ∃ roleId, before.hasRole roleId ≠ after.hasRole roleId

/-- A membership does not differ from itself. -/
theorem not_differs_self (member : Membership) : ¬member.Differs member := by
  simp [Differs]

/-- A delta names only what it changes: another flag, roles that are not held, and roles that
are. -/
structure Change.IsExactFor (change : Change) (member : Membership) : Prop where
  flag : ∀ isPrimary, change.isPrimary = some isPrimary → isPrimary ≠ member.isPrimary
  clears : change.clearsOthers = true → change.isPrimary.isSome = true
  added : ∀ roleId ∈ change.added.map (·.roleId), roleId ∉ member.roleIds
  removed : ∀ roleId ∈ change.removedRoleIds, roleId ∈ member.roleIds

/-- After a delta, the roles are those that were left or added. -/
theorem hasRole_applyChange {member : Membership} {change : Change} {roleId : String} :
    (member.applyChange change).hasRole roleId = true ↔
      roleId ∈ member.roleIds ∧ roleId ∉ change.removedRoleIds ∨
        roleId ∈ change.added.map (·.roleId) :=
  hasRole_iff.trans mem_roleIds_reassign

/-- A delta that names only what it changes, and names something, changes something. -/
theorem Change.IsExactFor.differs {change : Change} {member : Membership}
    (exact : change.IsExactFor member) (hchange : change.isEmpty = false) :
    member.Differs (member.applyChange change) := by
  cases hflag : change.isPrimary with
  | some isPrimary =>
      left
      have hnew := exact.flag isPrimary hflag
      simpa [applyChange, hflag] using hnew.symm
  | none =>
      right
      have hclears : change.clearsOthers = false := by
        by_contra hclears
        simpa [hflag] using exact.clears (by simpa using hclears)
      by_cases hadded : change.added = []
      · by_cases hremoved : change.removedRoleIds = []
        · simp [Change.isEmpty, hflag, hclears, hadded, hremoved] at hchange
        · obtain ⟨roleId, hmem⟩ := List.exists_mem_of_ne_nil _ hremoved
          refine ⟨roleId, fun hsame => ?_⟩
          have hheld := hasRole_iff.2 (exact.removed roleId hmem)
          rw [hsame, hasRole_applyChange] at hheld
          simp [hmem, hadded] at hheld
      · obtain ⟨assignment, hmem⟩ := List.exists_mem_of_ne_nil _ hadded
        have hrole : assignment.roleId ∈ change.added.map (·.roleId) := List.mem_map_of_mem hmem
        refine ⟨assignment.roleId, fun hsame => exact.added _ hrole (hasRole_iff.1 ?_)⟩
        rw [hsame, hasRole_applyChange]
        exact .inr hrole

end Membership

/-! ## Operations on memberships -/

namespace Members

open Effect.SparesRoster

variable {world : World}

/-- The delta to the flag of a membership names only what it changes. -/
theorem withFlag_exact {change : Membership.Change} {member : Membership}
    (exact : change.IsExactFor member) (flag : Option Bool) :
    (withFlag change member flag).IsExactFor member := by
  unfold withFlag
  split
  · split
    · exact exact
    · rename_i hnew
      refine ⟨?_, fun _ => rfl, exact.added, exact.removed⟩
      rintro _ ⟨⟩
      exact hnew
  · exact exact

/-- The delta with the roles of a patch names only what it changes. -/
theorem withRoles_exact {allowed : Effect → Prop}
    (quiet : ∀ effect, effect.isPlain = true → allowed effect) {change : Membership.Change}
    {member : Membership} (exact : change.IsExactFor member) (organizationId : String) (now : Nat)
    (requested : Option (List String)) :
    (withRoles change member organizationId now requested).Uses allowed fun changed =>
      changed.IsExactFor member ∧ ∃ added removedRoleIds,
        changed = { change with added := added, removedRoleIds := removedRoleIds } := by
  unfold withRoles
  split
  · exact .pure ⟨exact, _, _, rfl⟩
  · refine .andThen (Action.loadOrganization_uses quiet _) fun org =>
      .andThen (Roles.assignable_uses quiet org _) fun _ => .pure ⟨?_, _, _, rfl⟩
    refine ⟨exact.flag, exact.clears, ?_, ?_⟩
    · intro roleId hmem
      exact (Membership.mem_roleIds_missingRoles.1 hmem).2
    · intro roleId hmem
      exact List.mem_of_mem_filter hmem

/-- Adding a member is noted as that. -/
theorem add_alters (working : world.trail.IsWorking) (draft : Membership.Draft) :
    (add draft).Alters (fun before after => ∃ key, before.Moves after (some (.memberAdded, key)))
      world := by
  refine .afterUses (.check _) working fun _ _ _ working _ =>
    .afterUses (Action.loadOrganization_uses plain _) working fun org _ _ working _ =>
    .afterUses (.check _) working fun _ world _ working _ => .afterRead rfl rfl <|
    .require fun hnew => ?_
  refine .afterUses (Roles.assignable_uses plain org _) working fun roleIds _ hchecked working _ =>
    .afterUses (.now (plain _ rfl)) working fun now later htimed working _ => ?_
  dsimp only
  generalize hmember : Membership.create org draft.userId draft.isPrimary roleIds now = member
  have hfind : later.roster.memberOf member.organizationId member.userId = none := by
    rw [htimed, hchecked, ← hmember]
    exact Option.isNone_iff_eq_none.1 hnew
  obtain ⟨inserted, hinsert, hturns⟩ := World.insert_turns hfind member.isPrimary
  have horg : member.organizationId = org.id := by rw [← hmember]; rfl
  refine .of_run (Action.runIn_bind_ok hinsert _) ⟨member.key, ?_⟩
  exact hturns.noted working rfl rfl (congrArg some horg.symm) rfl

/-- Changing a member is noted exactly if the flag or the roles differ afterwards. -/
theorem update_alters (working : world.trail.IsWorking) (organizationId userId : String)
    (patch : Membership.Patch) :
    (update organizationId userId patch).Alters (fun before after => after = before ∨
      before.Moves after (some (.memberUpdated, organizationId, userId)) ∧
        ∃ member changed, before.memberOf organizationId userId = some member ∧
          after.memberOf organizationId userId = some changed ∧ member.Differs changed) world := by
  refine .afterRead rfl rfl (.demand fun member hfound => ?_)
  refine .afterUses (.now (plain _ rfl)) working fun now timed htimed working _ => ?_
  dsimp only
  have hbase : ({ noChange member now with
      organizationId := organizationId, userId := userId } : Membership.Change).IsExactFor member :=
    ⟨nofun, nofun, nofun, nofun⟩
  have hflag := withFlag_exact hbase patch.isPrimary
  have hfair := withFlag_isFair member organizationId userId now patch.isPrimary
  generalize withFlag _ member patch.isPrimary = flagged at hflag hfair ⊢
  refine .afterUses (withRoles_exact plain hflag organizationId now patch.roleIds) working
    fun change later hlater working hchange => ?_
  obtain ⟨hexact, added, removedRoleIds, hsame⟩ := hchange
  have horg : change.organizationId = organizationId := by rw [hsame]; exact hfair.1
  have huser : change.userId = userId := by rw [hsame]; exact hfair.2.1
  split
  · exact .pure (.inl rfl)
  · rename_i hchanged
    have hfind : later.roster.memberOf change.organizationId change.userId = some member := by
      rw [hlater, htimed, horg, huser]
      exact hfound
    obtain ⟨after, hchange, hturns, hafter⟩ := World.change_turns hfind
    rw [horg, huser] at hturns hafter
    have hdiffers := hexact.differs (by simpa using hchanged)
    refine .of_run (Action.runIn_bind_ok hchange _) (.inr ⟨?_, member, _, ?_, hafter, hdiffers⟩)
    · exact hturns.noted working rfl rfl rfl rfl
    · rw [hlater, htimed]
      exact hfound

/-- Removing a member is noted exactly if there was one. -/
theorem remove_alters (working : world.trail.IsWorking) (organizationId userId : String) :
    (remove organizationId userId).Alters (fun before after => after = before ∨
      before.Moves after (some (.memberRemoved, organizationId, userId))) world := by
  by_cases hold : world.tables.memberships.any (Tables.isMemberOf organizationId userId) = true
  · obtain ⟨after, hdelete, hturns⟩ := World.delete_turns hold
    refine .of_run (Action.runIn_bind_ok hdelete _) (.inr ?_)
    exact hturns.noted working rfl rfl rfl rfl
  · have hdelete : (Action.ask (.memberships (.delete organizationId userId))).runIn world =
        (.ok false, world) := Action.runIn_answered (if_neg hold)
    exact .of_run (Action.runIn_bind_ok hdelete _) (.inl rfl)

end Members

/-! ## Accepting -/

namespace Invitations

open Effect.SparesRoster

variable {world : World}

/-- Joining turns the roster: the user becomes a member, or stays one. -/
theorem join_turns (world : World) (org : Organization) (userId : String) (roleIds : List String)
    (now : Nat) :
    ∃ member after,
      (join org userId roleIds now (world.roster.memberOf org.id userId)).runIn world =
        (.ok member, after) ∧
      world.Turns after (org.id, userId)
        (if (world.roster.memberOf org.id userId).isSome then .memberUpdated
          else .memberAdded) := by
  cases hfind : world.roster.memberOf org.id userId with
  | none =>
      have hnew : world.roster.memberOf
          (Membership.create org userId false roleIds now).organizationId
          (Membership.create org userId false roleIds now).userId = none := hfind
      obtain ⟨after, hinsert, hturns⟩ := World.insert_turns hnew false
      exact ⟨_, after, Action.runIn_bind_ok hinsert _, hturns⟩
  | some member =>
      have hmem : (org.id, userId) ∈ world.roster.keys :=
        Roster.isSome_memberOf_iff.1 (by rw [hfind]; rfl)
      have huser : member.userId = userId := (Prod.mk.inj (Tables.find_isMemberOf hfind).2).2
      unfold join mergeRoles
      dsimp only
      split
      · exact ⟨member, world, rfl, rfl, id, .updated hmem rfl⟩
      · rw [huser]
        obtain ⟨after, hchange, hturns, -⟩ := @World.change_turns world member
          { organizationId := org.id, userId := userId, isPrimary := none, clearsOthers := false
            added := member.missingRoles org roleIds now, removedRoleIds := []
            updatedAt := now } hfind
        exact ⟨_, after, hchange, hturns⟩

/-- Accepting an invitation is noted as adding a member or as changing one. -/
theorem accept_alters (working : world.trail.IsWorking) (code : String) (user : User) :
    (accept code user).Alters (fun before after => ∃ invitation,
      world.tables.invitations.find? (·.code == code) = some invitation ∧
      before.Moves after (some (if (before.memberOf invitation.organizationId user.id).isSome
        then .memberUpdated else .memberAdded, invitation.organizationId, user.id))) world := by
  refine .afterRead rfl rfl (.demand fun invitation hfound => .require fun _ => ?_)
  refine .afterUses (.now (plain _ rfl)) working fun now timed htimed working _ => ?_
  have hdelete : (Effect.store (.invitations (.delete code))).SparesRoster :=
    Effect.SparesRoster.store nofun
  have hends : ∀ error, (endWith code error : Action Acceptance).Alters (fun before after =>
      ∃ invitation, world.tables.invitations.find? (·.code == code) = some invitation ∧
      before.Moves after (some (if (before.memberOf invitation.organizationId user.id).isSome
        then .memberUpdated else .memberAdded, invitation.organizationId, user.id))) timed :=
    fun error => .afterUses (.ask hdelete) working fun _ _ _ _ _ => .of_failed_run rfl rfl
  dsimp only
  split
  · exact hends _
  · refine .afterRead rfl rfl ?_
    cases horg : timed.tables.organizations.find? (·.id == invitation.organizationId) with
    | none => exact hends _
    | some org =>
        have hid : org.id = invitation.organizationId := Tables.key_of_find horg
        refine .afterUses (Roles.stillAssignable_uses plain org _) working
          fun roleIds checked hchecked working _ => .afterRead rfl rfl ?_
        obtain ⟨member, joined, hjoin, hturns⟩ := join_turns checked org user.id roleIds now
        refine .of_run (Action.runIn_bind_ok hjoin _) ⟨invitation, hfound, ?_⟩
        rw [← hid]
        have haccepted : (Effect.note (((AuditNote.within .invitationAccepted org.id).signedBy
            user.id).about user.id)).SparesRoster := note rfl
        refine ((hturns.spared hdelete).spared haccepted).noted working rfl ?_ rfl rfl
        split <;> rfl

end Invitations

/-! ## All operations -/

/-- An operation is the acceptance of an invitation to an organization by a user. -/
def World.AcceptsInto (world : World) (operation : Operation) (organizationId userId : String) :
    Prop :=
  ∃ code user invitation, operation = .acceptInvitation code user ∧ user.id = userId ∧
    world.tables.invitations.find? (·.code == code) = some invitation ∧
      invitation.organizationId = organizationId

/-- An operation moves the roster, and notes a membership as updated exactly if it was there before
and the operation either accepts an invitation to it or changes its flag or roles on request. -/
structure World.MovesBy (world : World) (operation : Operation) (before after : Roster)
    (move : Option (AuditEvent × String × String)) : Prop where
  moves : before.Moves after move
  updated_iff : ∀ organizationId userId,
    move = some (.memberUpdated, organizationId, userId) ↔
      ∃ member changed, before.memberOf organizationId userId = some member ∧
        after.memberOf organizationId userId = some changed ∧
        (world.AcceptsInto operation organizationId userId ∨
          (∃ patch, operation = .updateMember organizationId userId patch) ∧
            member.Differs changed)

/-- An operation that may note no update moves the roster without one. -/
theorem World.MovesBy.of_not_updated {world : World} {operation : Operation}
    {before after : Roster} {move : Option (AuditEvent × String × String)}
    (moves : before.Moves after move) (hmove : ∀ key, move ≠ some (.memberUpdated, key))
    (hnotes : ¬operation.MayNote .memberUpdated) : world.MovesBy operation before after move where
  moves := moves
  updated_iff organizationId userId := by
    constructor
    · exact fun hupdated => absurd hupdated (hmove _)
    · rintro ⟨_, _, -, -, ⟨code, user, _, rfl, -⟩ | ⟨⟨patch, rfl⟩, -⟩⟩
      · exact absurd (.mergeInvitation code user) hnotes
      · exact absurd (.updateMember organizationId userId patch) hnotes

/-- An update of a membership moves the roster as it should. -/
theorem World.MovesBy.of_update (world : World) {before after : Roster}
    {organizationId userId : String} {patch : Membership.Patch}
    (hturns : after = before ∨
      before.Moves after (some (.memberUpdated, organizationId, userId)) ∧
        ∃ member changed, before.memberOf organizationId userId = some member ∧
          after.memberOf organizationId userId = some changed ∧ member.Differs changed) :
    ∃ move, world.MovesBy (.updateMember organizationId userId patch) before after move := by
  rcases hturns with rfl | ⟨hmoves, hdiffers⟩
  · refine ⟨none, .idle rfl, fun otherOrg otherUser => ⟨nofun, ?_⟩⟩
    rintro ⟨member, changed, hbefore, hafter, ⟨code, user, _, hop, -⟩ | ⟨-, hdiffers⟩⟩
    · cases hop
    · rw [hbefore] at hafter
      cases hafter
      exact absurd hdiffers member.not_differs_self
  · refine ⟨_, hmoves, fun otherOrg otherUser => ⟨?_, ?_⟩⟩
    · rintro ⟨⟩
      obtain ⟨member, changed, hbefore, hafter, hdiffers⟩ := hdiffers
      exact ⟨member, changed, hbefore, hafter, .inr ⟨⟨patch, rfl⟩, hdiffers⟩⟩
    · rintro ⟨_, _, -, -, ⟨code, user, _, hop, -⟩ | ⟨⟨_, hop⟩, -⟩⟩
      · cases hop
      · cases hop
        rfl

/-- An acceptance moves the roster as it should. -/
theorem World.MovesBy.of_accept {world : World} {before after : Roster} {code : String}
    {user : User} {invitation : Invitation}
    (hfound : world.tables.invitations.find? (·.code == code) = some invitation)
    (hmoves : before.Moves after (some
      (if (before.memberOf invitation.organizationId user.id).isSome then .memberUpdated
        else .memberAdded, invitation.organizationId, user.id))) :
    ∃ move, world.MovesBy (.acceptInvitation code user) before after move := by
  refine ⟨_, hmoves, fun organizationId userId => ⟨?_, ?_⟩⟩
  · intro hmove
    rw [hmove] at hmoves
    simp only [Option.some.injEq, Prod.mk.injEq] at hmove
    obtain ⟨-, rfl, rfl⟩ := hmove
    obtain ⟨hold, hnew⟩ := hmoves.updated
    obtain ⟨member, hmember⟩ := Option.isSome_iff_exists.1 (Roster.isSome_memberOf_iff.2 hold)
    obtain ⟨changed, hchanged⟩ := Option.isSome_iff_exists.1 (Roster.isSome_memberOf_iff.2 hnew)
    exact ⟨member, changed, hmember, hchanged, .inl ⟨code, user, invitation, rfl, rfl, hfound, rfl⟩⟩
  · rintro ⟨member, _, hbefore, -, ⟨_, _, other, hop, rfl, hother, rfl⟩ | ⟨⟨_, hop⟩, -⟩⟩
    · cases hop
      rw [hfound] at hother
      cases hother
      rw [hbefore]
      rfl
    · cases hop

/-- Whether an operation may write memberships or note something about them. -/
def Operation.concernsMembers : Operation → Bool
  | .addMember _ | .updateMember _ _ _ | .removeMember _ _ | .acceptInvitation _ _ => true
  | _ => false

/-- Other operations spare the roster. -/
theorem Operation.spares {operation : Operation} (hother : operation.concernsMembers = false)
    (deployment : Deployment) :
    (operation.action deployment).Uses Effect.SparesRoster fun _ => True := by
  apply operation.action_asks deployment Effect.SparesRoster.plain
  · intro call hmay
    apply Effect.SparesRoster.store
    rintro membershipCall rfl
    cases hmay <;> cases hother
  · exact fun call _ => .store nofun
  · intro note hmay
    generalize note.event = event at hmay
    cases hmay <;> cases hother

/-- Other operations move a roster that is as it was. -/
theorem World.MovesBy.of_other {operation : Operation} (hother : operation.concernsMembers = false)
    (world : World) {before after : Roster} (hsame : after = before) :
    ∃ move, world.MovesBy operation before after move := by
  refine ⟨none, .of_not_updated (.idle hsame) nofun ?_⟩
  intro hmay
  cases hmay <;> cases hother

/-- What every operation does to the roster. -/
theorem Operation.alters {world : World} (working : world.trail.IsWorking)
    (deployment : Deployment) (operation : Operation) :
    (operation.action deployment).Alters
      (fun before after => ∃ move, world.MovesBy operation before after move) world := by
  cases hother : operation.concernsMembers with
  | false =>
      exact .ofUses (operation.spares hother deployment) working
        (World.MovesBy.of_other hother world rfl)
  | true =>
      cases operation with
      | addMember draft =>
          refine (Members.add_alters working draft).mono ?_
          rintro ⟨key, hmoves⟩
          exact ⟨_, .of_not_updated hmoves nofun nofun⟩
      | updateMember organizationId userId patch =>
          exact (Members.update_alters working organizationId userId patch).mono
            (World.MovesBy.of_update world)
      | removeMember organizationId userId =>
          refine (Members.remove_alters working organizationId userId).mono ?_
          rintro (hsame | hmoves)
          · exact ⟨none, .of_not_updated (.idle hsame) nofun nofun⟩
          · exact ⟨_, .of_not_updated hmoves nofun nofun⟩
      | acceptInvitation code user =>
          refine (Invitations.accept_alters working code user).mono ?_
          rintro ⟨invitation, hfound, hmoves⟩
          exact World.MovesBy.of_accept hfound hmoves
      | _ => cases hother

end Tenancy
