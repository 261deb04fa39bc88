import Tenancy.Proofs.CommutingDeltas
import Tenancy.Proofs.OrderlyRuns
import Tenancy.Proofs.Transcripts

/-!
# Tenancy - Deltas that race

Accepting an invitation as a member and updating the member each read the membership
once, and write a delta against what they have read.  When both have read the same
membership, their deltas are compatible: a merge adds roles that are not held, and an
update removes roles that are.  So whichever of them writes first, and whatever else
goes on meanwhile, the membership shows in the end what either one does.

Main definitions:

- `Effect.ChangesBy`: a delta that a request asks for is as wanted.
- `Configuration.HasReadOnly`: an operation has read no membership but one.
- `Configuration.membershipWritesSince`: who has written memberships since an earlier
  configuration.
- `Configuration.Race`: accepting an invitation races with an update.

Main results:

- Theorem `Members.update_derives`, `Invitations.accept_derives`: the deltas of operations
  derive from what was read.
- Theorem `Regime.Continues.memberships_eq`: a run changes memberships only by the
  writes in its history.
- Theorem `Configuration.Race.derive`: the deltas of a race derive from what was read.
- Theorem `membershipDeltas_commute`: compatible deltas commute, and those that race are
  compatible and both show.
-/

namespace Tenancy

/-! ## Deltas of operations -/

/-- If a request asks for a delta to a membership, the delta is as wanted. -/
def Effect.ChangesBy (wanted : Membership.Change → Prop) (effect : Effect) : Prop :=
  ∀ change, effect = .store (.memberships (.applyChange change)) → wanted change

/-- Plain requests ask for no delta. -/
theorem Effect.ChangesBy.plain {wanted : Membership.Change → Prop} (effect : Effect)
    (hplain : effect.isPlain = true) : effect.ChangesBy wanted := by
  rintro change rfl
  cases hplain

section Derivation

variable {change : Membership.Change} {transcript : List Exchange}
  {reply : (Effect.store (.memberships (.applyChange change))).Reply}

/-- The delta that an update asks for derives from the membership that it has read. -/
theorem Members.update_derives {organizationId userId : String} {patch : Membership.Patch}
    {left : Program Effect Effect.Reply (Except Error Membership)}
    (follows : (update organizationId userId patch).run.Follows transcript left)
    (hasked : ⟨.store (.memberships (.applyChange change)), reply⟩ ∈ transcript) :
    ∃ member, ⟨.store (.memberships (.find organizationId userId)), .ok (some member)⟩ ∈
        transcript ∧
      change.IsFair organizationId userId ∧ change.IsExactFor member := by
  obtain ⟨found, rest, hfound, -, follows, hasked⟩ := Action.of_follows_ask follows hasked nofun
  cases found with
  | none =>
      -- Without a membership nothing is requested any more.
      cases follows
      cases hasked
  | some member =>
      refine ⟨member, hfound, ?_⟩
      have hrest : (Effect.store (.memberships (.applyChange change))).ChangesBy fun change =>
          change.IsFair organizationId userId ∧ change.IsExactFor member := by
        refine Action.Uses.of_follows ?_ follows _ hasked
        refine .bind (Action.Uses.pure rfl : (Action.demand _ (some member)).Uses _
          fun value => value = member) ?_
        rintro value hvalue
        subst hvalue
        refine .andThen (.now (Effect.ChangesBy.plain _ rfl)) fun now => ?_
        dsimp only
        have hbase : ({ noChange value now with
            organizationId := organizationId, userId := userId } :
              Membership.Change).IsExactFor value := ⟨nofun, nofun, nofun, nofun⟩
        have hflagged := withFlag_exact hbase patch.isPrimary
        have hfair := withFlag_isFair value organizationId userId now patch.isPrimary
        generalize withFlag _ value patch.isPrimary = flagged at hflagged hfair ⊢
        refine .bind (withRoles_exact Effect.ChangesBy.plain hflagged organizationId now
          patch.roleIds) fun delta hdelta => ?_
        obtain ⟨hexact, added, removedRoleIds, hsame⟩ := hdelta
        have hfair : delta.IsFair organizationId userId := by
          rw [hsame]
          exact hfair
        split
        · exact .pure trivial
        · refine .andThen (.ask ?_) fun _ =>
            .andThen (.note (by rintro _ ⟨⟩)) fun _ => .pure trivial
          rintro _ ⟨⟩
          exact ⟨hfair, hexact⟩
      exact hrest change rfl

/-- The delta that joining asks for derives from the membership that was found, and does not set the
flag. -/
theorem Invitations.join_derives (org : Organization) (userId : String) (roleIds : List String)
    (now : Nat) (existing : Option Membership) :
    (join org userId roleIds now existing).Uses
      (Effect.ChangesBy fun change => ∃ member, existing = some member ∧
        change.IsFair org.id member.userId ∧ change.IsExactFor member ∧ change.isPrimary = none)
      fun _ => True := by
  cases existing with
  | none =>
      have hinsert : ∀ wanted, (Effect.store (.memberships (.insert
          (Membership.create org userId false roleIds now) false))).ChangesBy wanted := nofun
      exact .andThen (.ask (hinsert _)) fun _ => .pure trivial
  | some member =>
      unfold join mergeRoles
      dsimp only
      split
      · exact .pure trivial
      · refine @Action.Uses.ask _ (.memberships (.applyChange _)) ?_
        rintro _ ⟨⟩
        refine ⟨member, rfl, ⟨rfl, rfl, rfl⟩, ⟨nofun, nofun, ?_, nofun⟩, rfl⟩
        exact fun roleId hadded => (Membership.mem_roleIds_missingRoles.1 hadded).2

/-- The delta that accepting an invitation asks for derives from the membership that was read, and
does not set the flag. -/
theorem Invitations.accept_derives {code : String} {user : User}
    {left : Program Effect Effect.Reply (Except Error Acceptance)}
    (follows : (accept code user).run.Follows transcript left)
    (hasked : ⟨.store (.memberships (.applyChange change)), reply⟩ ∈ transcript) :
    ∃ (organizationId userId : String) (member : Membership),
      ⟨.store (.memberships (.find organizationId userId)), .ok (some member)⟩ ∈ transcript ∧
      change.IsFair organizationId member.userId ∧ change.IsExactFor member ∧
      change.isPrimary = none := by
  -- Nothing but joining asks for a delta.
  have hnot : ¬(Effect.store (.memberships (.applyChange change))).ChangesBy fun _ => False :=
    fun hnone => hnone change rfl
  have hends : ∀ {error : Error} {transcript : List Exchange}
      {left : Program Effect Effect.Reply (Except Error Acceptance)},
      (endWith code error : Action Acceptance).run.Follows transcript left →
      ⟨.store (.memberships (.applyChange change)), reply⟩ ∉ transcript := by
    intro error transcript left follows hasked
    have huses : (endWith code error : Action Acceptance).Uses (Effect.ChangesBy fun _ => False)
        fun _ => True := .andThen (.ask (by rintro _ ⟨⟩)) fun _ => .throw _
    exact hnot (huses.of_follows follows _ hasked)
  obtain ⟨found, first, -, hfirst, follows, hasked⟩ := Action.of_follows_ask follows hasked nofun
  obtain ⟨invitation, second, hsecond, follows, hasked, -⟩ :=
    (Action.Uses.demand _ _).of_follows_bind follows hasked hnot
  obtain ⟨_, third, hthird, follows, hasked, -⟩ :=
    (Action.Uses.require _ _).of_follows_bind follows hasked hnot
  obtain ⟨now, fourth, -, hfourth, follows, hasked⟩ := Action.of_follows_now follows hasked nofun
  split at follows
  · exact absurd hasked (hends follows)
  obtain ⟨org, fifth, -, hfifth, follows, hasked⟩ := Action.of_follows_ask follows hasked nofun
  cases org with
  | none => exact absurd hasked (hends follows)
  | some org =>
      obtain ⟨roleIds, sixth, hsixth, follows, hasked, -⟩ :=
        (Roles.stillAssignable_uses Effect.ChangesBy.plain org _).of_follows_bind follows hasked
          hnot
      obtain ⟨existing, last, hfound, -, follows, hasked⟩ :=
        Action.of_follows_ask follows hasked nofun
      have hjoin := join_derives org user.id roleIds now existing
      have hrest := Action.Uses.of_follows (hjoin.andThen fun _ => ?_) follows _ hasked
      · obtain ⟨member, rfl, hmerge⟩ := hrest change rfl
        exact ⟨org.id, user.id, member,
          hfirst (hsecond (hthird (hfourth (hfifth (hsixth hfound))))), hmerge⟩
      · exact .andThen (.ask (by rintro _ ⟨⟩)) fun _ => .andThen (.note (by rintro _ ⟨⟩)) fun _ =>
          .andThen (.note (by rintro _ ⟨⟩)) fun _ => .pure trivial

end Derivation

/-! ## Deltas in runs -/

/-- The membership that was found, if a request was for one. -/
def Exchange.foundMember? : Exchange → Option Membership
  | ⟨.store (.memberships (.find _ _)), .ok (some member)⟩ => some member
  | _ => none

/-- What an operation of a run has found of memberships so far is one membership. -/
def Configuration.HasReadOnly (config : Configuration) (index : Nat) (member : Membership) : Prop :=
  ∀ found ∈ (transcriptOf config.history index).filterMap Exchange.foundMember?, found = member

/-- An operation of a run has asked for a delta. -/
def Configuration.HasAsked (config : Configuration) (index : Nat) (change : Membership.Change) :
    Prop :=
  ∃ reply, ⟨index, .store (.memberships (.applyChange change)), reply⟩ ∈ config.history

/-- A membership that is found has the key that was asked for. -/
theorem Exchange.IsHonest.key_of_find {organizationId userId : String} {member : Membership}
    (honest : Exchange.IsHonest
      ⟨.store (.memberships (.find organizationId userId)), .ok (some member)⟩) :
    member.key = (organizationId, userId) := by
  obtain ⟨world, hreply⟩ := honest
  exact (Tables.find_isMemberOf (Except.ok.inj hreply)).2

section Runs

variable {regime : Regime} {world : World} {config : Configuration} {index : Nat}
  {member : Membership} {change : Membership.Change}

/-- In a run, the delta that accepting an invitation has asked for derives from the membership that
was read, and does not set the flag. -/
theorem Regime.Reaches.merge_derives (reaches : regime.Reaches world config) {code : String}
    {user : User}
    (haccepts : config.tasks[index]?.map (·.operation) = some (.acceptInvitation code user))
    (hread : config.HasReadOnly index member) (hasked : config.HasAsked index change) :
    change.DerivesFrom member ∧ change.isPrimary = none := by
  obtain ⟨reply, hevent⟩ := hasked
  obtain ⟨⟨operation, rest⟩, htask, rfl⟩ := Option.map_eq_some_iff.1 haccepts
  obtain ⟨deployment, follows⟩ := reaches.recorded.follows index _ htask
  obtain ⟨organizationId, userId, found, hfound, hfair, hexact, hflag⟩ :=
    Invitations.accept_derives follows (mem_transcriptOf_of_mem_history hevent)
  have honest := reaches.recorded.honest_of_transcript _ hfound
  obtain ⟨horg, -⟩ := Prod.mk.inj honest.key_of_find
  obtain rfl := hread found (List.mem_filterMap.2 ⟨_, hfound, rfl⟩)
  rw [← horg] at hfair
  exact ⟨⟨hfair, hexact⟩, hflag⟩

/-- In a run, the delta that an update has asked for derives from the membership that was read. -/
theorem Regime.Reaches.update_derives (reaches : regime.Reaches world config)
    {organizationId userId : String} {patch : Membership.Patch}
    (hupdates : config.tasks[index]?.map (·.operation) =
      some (.updateMember organizationId userId patch))
    (hread : config.HasReadOnly index member) (hasked : config.HasAsked index change) :
    change.DerivesFrom member := by
  obtain ⟨reply, hevent⟩ := hasked
  obtain ⟨⟨operation, rest⟩, htask, rfl⟩ := Option.map_eq_some_iff.1 hupdates
  obtain ⟨deployment, follows⟩ := reaches.recorded.follows index _ htask
  obtain ⟨found, hfound, hfair, hexact⟩ :=
    Members.update_derives follows (mem_transcriptOf_of_mem_history hevent)
  have honest := reaches.recorded.honest_of_transcript _ hfound
  obtain ⟨horg, huser⟩ := Prod.mk.inj honest.key_of_find
  obtain rfl := hread found (List.mem_filterMap.2 ⟨_, hfound, rfl⟩)
  rw [← horg, ← huser] at hfair
  exact ⟨hfair, hexact⟩

end Runs

/-! ## Writes of runs -/

/-- The write to memberships that a request is, if it is one. -/
def Effect.membershipWrite? : Effect → Option MembershipCall
  | .store (.memberships call) => if (Call.memberships call).isWrite then some call else none
  | _ => none

/-- The writes to memberships in a history, with the operations that made them. -/
def membershipWrites (history : List Event) : List (Nat × MembershipCall) :=
  history.filterMap fun event => event.exchange.effect.membershipWrite?.map (event.task, ·)

/-- An event goes to the end of the writes, if it is one. -/
theorem membershipWrites_concat (history : List Event) (index : Nat) (exchange : Exchange) :
    membershipWrites (history ++ [⟨index, exchange⟩]) =
      membershipWrites history ++
        (exchange.effect.membershipWrite?.map (index, ·)).toList := by
  rw [membershipWrites, List.filterMap_append]
  cases hwrite : exchange.effect.membershipWrite? <;> simp [membershipWrites, hwrite]

/-- The writes to memberships since an earlier configuration, with the operations that made
them. -/
def Configuration.membershipWritesSince (before after : Configuration) :
    List (Nat × MembershipCall) :=
  membershipWrites (after.history.drop before.history.length)

/-- The tables after writes to memberships, one after the other. -/
def Tables.performWrites (tables : Tables) (writes : List (Nat × MembershipCall)) : Tables :=
  writes.foldl (fun tables write => (tables.perform (.memberships write.2)).2) tables

/-- What a call makes of the memberships depends on nothing but the memberships. -/
theorem Tables.memberships_perform_congr {tables other : Tables}
    (hsame : tables.memberships = other.memberships) (call : MembershipCall) :
    (tables.perform (.memberships call)).2.memberships =
      (other.perform (.memberships call)).2.memberships := by
  cases call with
  | find | listForUser | query => exact hsame
  | insert | applyChange | delete =>
      simp only [perform, performMembership, hsame]
      split
      all_goals first | exact hsame | rfl

/-- A request changes memberships only if it is a write to them. -/
theorem World.memberships_perform (world : World) (effect : Effect) :
    (World.perform effect world).2.tables.memberships =
      (effect.membershipWrite?.elim world.tables
        fun call => (world.tables.perform (.memberships call)).2).memberships := by
  cases effect with
  | clock | freshId | randomBytes | note => rfl
  | store call =>
      change (world.tables.perform call).2.memberships = _
      cases call with
      | organizations | roles | invitations | directory | catalog =>
          exact Tables.perform_memberships (by rintro _ ⟨⟩)
      | memberships call =>
          by_cases hwrite : (Call.memberships call).isWrite = true
          · simp [Effect.membershipWrite?, hwrite]
          · have hread : (Call.memberships call).isWrite = false := by simpa using hwrite
            rw [Tables.perform_of_not_write _ hread]
            simp [Effect.membershipWrite?, hread]

/-- However a run goes on, memberships change only by the writes in its history. -/
theorem Regime.Continues.memberships_eq {regime : Regime} {before after : Configuration}
    (continues : regime.Continues before after) :
    ∃ later, after.history = before.history ++ later ∧
      after.world.tables.memberships =
        (before.world.tables.performWrites (membershipWrites later)).memberships := by
  induction continues with
  | refl => exact ⟨[], (List.append_nil _).symm, rfl⟩
  | @tail middle after _ step ih =>
      obtain ⟨earlier, hearlier, hmemberships⟩ := ih
      cases step with
      | start deployment operation _ => exact ⟨earlier, hearlier, hmemberships⟩
      | shift outside _ => exact ⟨earlier, hearlier, hmemberships⟩
      | advance index _ =>
          rcases middle.advance_cases index with hsame | ⟨operation, effect, next, htask⟩
          · rw [hsame]
            exact ⟨earlier, hearlier, hmemberships⟩
          · rw [Configuration.advance_ask htask, hearlier]
            refine ⟨_, List.append_assoc _ _ _, (World.memberships_perform _ effect).trans ?_⟩
            rw [membershipWrites_concat, Tables.performWrites, List.foldl_append]
            cases effect.membershipWrite? with
            | none => exact hmemberships
            | some call => exact Tables.memberships_perform_congr hmemberships call

/-! ## Races -/

/-- A request that is a write to memberships is the call that it is for. -/
theorem Effect.eq_of_membershipWrite {effect : Effect} {call : MembershipCall}
    (hwrite : effect.membershipWrite? = some call) : effect = .store (.memberships call) := by
  unfold membershipWrite? at hwrite
  split at hwrite
  · exact congrArg (fun call => Effect.store (.memberships call))
      (Option.some.inj (Option.ite_none_right_eq_some.1 hwrite).2)
  · cases hwrite

/-- Who has written a delta since an earlier configuration has asked for it. -/
theorem Configuration.hasAsked_of_mem {before after : Configuration} {index : Nat}
    {change : Membership.Change}
    (hmem : (index, .applyChange change) ∈ before.membershipWritesSince after) :
    after.HasAsked index change := by
  obtain ⟨⟨task, effect, reply⟩, hevent, hwrite⟩ := List.mem_filterMap.1 hmem
  obtain ⟨call, hcall, ⟨⟩⟩ := Option.map_eq_some_iff.1 hwrite
  obtain rfl := Effect.eq_of_membershipWrite hcall
  exact ⟨reply, List.mem_of_mem_drop hevent⟩

/-- Two deltas that are written one after the other are both applied. -/
theorem Tables.performWrites_eq {tables after : Tables} {first second : Membership.Change}
    {member : Membership} (happlied : tables.applyBoth first second = (.ok member, after))
    (i j : Nat) :
    tables.performWrites [(i, .applyChange first), (j, .applyChange second)] = after := by
  unfold applyBoth at happlied
  split at happlied
  · rename_i middle hfirst
    simp only [performWrites, List.foldl_cons, List.foldl_nil, hfirst, happlied]
  · cases happlied

/-- If memberships were written only by two compatible deltas, in this order, then these are combined
in the end. -/
theorem Regime.Continues.combines {regime : Regime} {before after : Configuration} {i j : Nat}
    {first second : Membership.Change} {stored : Membership}
    (continues : regime.Continues before after) (compatible : first.Compatible second)
    (hstored : before.world.tables.memberships.find?
      (Tables.isMemberOf first.organizationId first.userId) = some stored)
    (hwrites : before.membershipWritesSince after =
      [(i, .applyChange first), (j, .applyChange second)]) :
    ∃ changed, before.world.tables.Combines after.world.tables first second stored changed := by
  obtain ⟨later, hlater, hmemberships⟩ := continues.memberships_eq
  have hsince : before.membershipWritesSince after = membershipWrites later := by
    rw [Configuration.membershipWritesSince, hlater, List.drop_left]
  obtain ⟨last, happlied, combines, -⟩ := Tables.combines_applyBoth compatible hstored
  refine ⟨_, combines.of_memberships_eq ?_⟩
  rw [hmemberships, ← hsince, hwrites, Tables.performWrites_eq happlied]

/-- In a run, accepting an invitation has raced with an update of the member: each has read one
membership, the same, and since an earlier configuration memberships were written only by their
deltas, in one order or the other. -/
structure Configuration.Race (before after : Configuration) (i j : Nat) (member : Membership)
    (merge update : Membership.Change) : Prop where
  accepts : ∃ code user, after.tasks[i]?.map (·.operation) = some (.acceptInvitation code user)
  updates : ∃ organizationId userId patch,
    after.tasks[j]?.map (·.operation) = some (.updateMember organizationId userId patch)
  acceptReads : after.HasReadOnly i member
  updateReads : after.HasReadOnly j member
  writes :
    before.membershipWritesSince after = [(i, .applyChange merge), (j, .applyChange update)] ∨
      before.membershipWritesSince after = [(j, .applyChange update), (i, .applyChange merge)]

/-- The deltas of a race derive from the membership that was read, and the merge does not set the
flag. -/
theorem Configuration.Race.derive {regime : Regime} {world : World} {before after : Configuration}
    {i j : Nat} {member : Membership} {merge update : Membership.Change}
    (race : before.Race after i j member merge update) (reaches : regime.Reaches world after) :
    merge.DerivesFrom member ∧ update.DerivesFrom member ∧ merge.isPrimary = none := by
  obtain ⟨code, user, haccepts⟩ := race.accepts
  obtain ⟨organizationId, userId, patch, hupdates⟩ := race.updates
  have hmerge : after.HasAsked i merge := by
    refine @Configuration.hasAsked_of_mem before after i merge ?_
    rcases race.writes with hwrites | hwrites <;> simp [hwrites]
  have hupdate : after.HasAsked j update := by
    refine @Configuration.hasAsked_of_mem before after j update ?_
    rcases race.writes with hwrites | hwrites <;> simp [hwrites]
  obtain ⟨mergeDerives, hflag⟩ := reaches.merge_derives haccepts race.acceptReads hmerge
  exact ⟨mergeDerives, reaches.update_derives hupdates race.updateReads hupdate, hflag⟩

/-- Compatible deltas to a membership commute in every store.  The deltas of accepting an invitation
and of an update that have read the same membership are compatible: if the membership is stored when
the first of them is written, then in the end it shows both, whatever the order. -/
theorem membershipDeltas_commute :
    (∀ first second : Membership.Change, first.Compatible second → first.Commutes second) ∧
    ∀ (regime : Regime) (world : World) (before after : Configuration) (i j : Nat)
      (member stored : Membership) (merge update : Membership.Change),
      regime.Reaches world before → regime.Continues before after →
      before.Race after i j member merge update →
      before.world.tables.memberships.find?
        (Tables.isMemberOf member.organizationId member.userId) = some stored →
      merge.isPrimary = none ∧ merge.Compatible update ∧
        ∃ changed,
          before.world.tables.Combines after.world.tables merge update stored changed := by
  refine ⟨fun _ _ compatible => compatible.commutes, ?_⟩
  intro regime world before after i j member stored merge update reaches continues race hstored
  obtain ⟨mergeDerives, updateDerives, hflag⟩ := race.derive (reaches.onward continues)
  have compatible := mergeDerives.compatible updateDerives (.inl hflag)
  refine ⟨hflag, compatible, ?_⟩
  rcases race.writes with hwrites | hwrites
  · rw [← mergeDerives.fair.1, ← mergeDerives.fair.2.1] at hstored
    exact continues.combines compatible hstored hwrites
  · rw [← updateDerives.fair.1, ← updateDerives.fair.2.1] at hstored
    obtain ⟨changed, combines⟩ := continues.combines compatible.symm hstored hwrites
    exact ⟨changed, combines.symm compatible.symm⟩

/-- A member accepts an invitation to another role while being made primary and getting a third role
in place of the one held: the update writes first, and the merge keeps what it did.  Deltas that add
a role twice and remove one twice commute as well. -/
theorem membershipDeltas_commute_promotion :
    (∃ (before after : Configuration) (merge update : Membership.Change)
        (stored changed : Membership),
      (Regime.uniform default).Reaches (World.blank []) before ∧
      (Regime.uniform default).Continues before after ∧
      before.Race after 8 9 stored merge update ∧
      before.world.tables.Combines after.world.tables merge update stored changed ∧
      (stored.isPrimary, stored.roleIds) = (false, ["aaa"]) ∧
      (changed.isPrimary, changed.roleIds) = (true, ["aaaaa", "aaaa"])) ∧
    ∃ first second : Membership.Change,
      (first.addedRoleIds, second.addedRoleIds) = (["r", "s", "r"], ["r"]) ∧
      (first.removedRoleIds, second.removedRoleIds) = (["q", "q"], ["q"]) ∧
      first.Commutes second := by
  constructor
  · let user : User :=
      { id := "u", email := "U@example.com ", displayName := none, createdAt := 0 }
    let role (name : String) : Operation := .createRole
      { name := name, description := none, isSystem := false, organizationId := some "a"
        tenantId := none }
    let organization (slug : String) : Operation := .createOrganization
      { slug := slug, displayName := slug, tenantId := some "t", metadata := .empty }
    let operations : List Operation :=
      [organization "north", organization "south", role "reader", role "writer", role "editor",
       .addMember
        { organizationId := "aa", userId := "u", tenantId := none, isPrimary := true
          roleIds := [] },
       .addMember
        { organizationId := "a", userId := "u", tenantId := none, isPrimary := false
          roleIds := ["aaa"] },
       .createInvitation
        { organizationId := "a", email := "u@example.com", createdBy := "c"
          roleIds := ["aaa", "aaaa"], expiresInHours := none },
       .acceptInvitation "AAAA" user,
       .updateMember "a" "u" { isPrimary := some true, roleIds := some ["aaaaa"] }]
    let schedule : List Nat :=
      (List.range 8).flatMap (List.replicate 9) ++ [8, 8, 8, 8, 8, 9, 9, 9, 9]
    let assignment (roleId : String) : RoleAssignment :=
      { organizationId := "a", userId := "u", roleId := roleId, tenantId := some "t"
        createdAt := 0 }
    let stored : Membership :=
      { organizationId := "a", userId := "u", tenantId := some "t", isPrimary := false
        roles := [assignment "aaa"], createdAt := 0, updatedAt := 0 }
    let merge : Membership.Change :=
      { organizationId := "a", userId := "u", isPrimary := none, clearsOthers := false
        added := [assignment "aaaa"], removedRoleIds := [], updatedAt := 0 }
    let update : Membership.Change :=
      { organizationId := "a", userId := "u", isPrimary := some true, clearsOthers := true
        added := [assignment "aaaaa"], removedRoleIds := ["aaa"], updatedAt := 0 }
    have starts : (Regime.uniform default).Starts (World.blank []) :=
      Regime.uniform_starts_blank default (by simp)
    have reaches := Regime.uniform_scheduled starts operations schedule
    have continues := Regime.Continues.schedule (Regime.uniform_closed default)
      (reaches.admitted starts) [9, 8]
    have hoperations := (Configuration.map_operation_schedule _ [9, 8]).trans
      (Configuration.map_operation_scheduled (World.blank []) default operations schedule)
    obtain ⟨before, after, reaches, continues, hoperations, acceptReads, updateReads, hwrites,
        hfound, hshown⟩ :
        ∃ before after, (Regime.uniform default).Reaches (World.blank []) before ∧
          (Regime.uniform default).Continues before after ∧
          after.tasks.map (·.operation) = operations ∧
          (∀ found ∈ (transcriptOf after.history 8).filterMap Exchange.foundMember?,
            found = stored) ∧
          (∀ found ∈ (transcriptOf after.history 9).filterMap Exchange.foundMember?,
            found = stored) ∧
          before.membershipWritesSince after =
            [(9, .applyChange update), (8, .applyChange merge)] ∧
          before.world.tables.memberships.find? (Tables.isMemberOf "a" "u") = some stored ∧
          (after.world.tables.memberships.find? (Tables.isMemberOf "a" "u")).map
            (fun member => (member.isPrimary, member.roleIds)) =
              some (true, ["aaaaa", "aaaa"]) :=
      ⟨_, _, reaches, continues, hoperations, by decide +kernel⟩
    have race : before.Race after 8 9 stored merge update :=
      { accepts := ⟨"AAAA", user, by rw [← List.getElem?_map, hoperations]; rfl⟩
        updates := ⟨"a", "u", { isPrimary := some true, roleIds := some ["aaaaa"] }, by
          rw [← List.getElem?_map, hoperations]; rfl⟩
        acceptReads := acceptReads
        updateReads := updateReads
        writes := .inr hwrites }
    obtain ⟨-, -, changed, combines⟩ := membershipDeltas_commute.2 _ _ before after 8 9 stored
      stored merge update reaches continues race hfound
    have hchanged : after.world.tables.memberships.find? (Tables.isMemberOf "a" "u") =
        some changed := combines.stored
    rw [hchanged] at hshown
    exact ⟨before, after, merge, update, stored, changed, reaches, continues, race, combines, rfl,
      Option.some.inj hshown⟩
  · let assignment (roleId : String) : RoleAssignment :=
      { organizationId := "a", userId := "u", roleId := roleId, tenantId := none, createdAt := 0 }
    let first : Membership.Change :=
      { organizationId := "a", userId := "u", isPrimary := none, clearsOthers := false
        added := [assignment "r", assignment "s", assignment "r"], removedRoleIds := ["q", "q"]
        updatedAt := 1 }
    let second : Membership.Change :=
      { organizationId := "a", userId := "u", isPrimary := some true, clearsOthers := true
        added := [assignment "r"], removedRoleIds := ["q"], updatedAt := 2 }
    have compatible : first.Compatible second :=
      { place := rfl
        roles := by
          intro roleId hadded
          have hnamed : roleId = "r" ∨ roleId = "s" := by
            simpa [first, second, assignment, Membership.Change.addedRoleIds, or_comm] using hadded
          rcases hnamed with rfl | rfl <;> decide
        flag := .inl rfl
        firstClears := nofun
        secondClears := fun _ => rfl }
    exact ⟨first, second, rfl, rfl, membershipDeltas_commute.1 first second compatible⟩

end Tenancy
