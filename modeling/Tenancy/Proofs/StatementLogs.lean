import Tenancy.Proofs.Conversations

/-!
# Tenancy - What statements come to

A call to the database can fail in several ways: the connection refuses the statement, a
row cannot be read, an insertion touches no row, or a membership that must be there is not
found.  A session that writes fails as soon as one of its calls does, and succeeds if
none does.  And before it withdraws the primary flags of a user's memberships in a tenant,
it locks them.

Main definitions:

- `Sql.Exchange.Succeeded`: a call to the database was a success.
- `Sql.LocksFirst`: memberships are locked before flags are withdrawn.
- `Sql.Session.Proceeds`: a session succeeds exactly if its exchanges do.

Main results:

- Theorem `Sql.Session.Proceeds.bind`: two sessions in sequence.
- Theorem `Sql.Session.Proceeds.execute`, `Sql.Session.Proceeds.insert`,
  `Sql.Session.Proceeds.fetchAll`, `Sql.Session.Proceeds.demandMember`: single calls.
- Theorem `Sql.Session.Proceeds.clearOthers`: withdrawing primary flags under locks.
-/

namespace Tenancy
namespace Sql

/-! ## Exchanges -/

/-- Queries and commands are statements; the others begin and end transactions. -/
def Request.IsStatement : Request → Prop
  | .query _ | .execute _ => True
  | _ => False

/-- A commit or a rollback. -/
def Request.EndsTransaction : Request → Prop
  | .commit | .rollback => True
  | _ => False

/-- The rows that a selection got, up to its limit, can be read as records of its table. -/
structure Selection.CanRead (selection : Selection) (rows : List Row) : Prop where
  memberships : selection.table = Table.memberships → ∃ members,
    (rows.take (selection.limit.getD rows.length)).mapM Membership.ofRow = .ok members
  assignments : selection.table = Table.assignments → ∃ assignments,
    (rows.take (selection.limit.getD rows.length)).mapM RoleAssignment.ofRow = .ok assignments

/-- The rows of a selection of memberships can be read as memberships. -/
theorem Selection.canRead_memberships {selection : Selection}
    (htable : selection.table = Table.memberships) (rows : List Row) :
    selection.CanRead rows ↔ ∃ members,
      (rows.take (selection.limit.getD rows.length)).mapM Membership.ofRow = .ok members := by
  refine ⟨fun canRead => canRead.memberships htable, fun hread => ⟨fun _ => hread, ?_⟩⟩
  exact fun hother => absurd (htable.symm.trans hother) (by decide)

/-- The rows of a selection of assignments can be read as assignments. -/
theorem Selection.canRead_assignments {selection : Selection}
    (htable : selection.table = Table.assignments) (rows : List Row) :
    selection.CanRead rows ↔ ∃ assignments,
      (rows.take (selection.limit.getD rows.length)).mapM RoleAssignment.ofRow =
        .ok assignments := by
  refine ⟨fun canRead => canRead.assignments htable, fun hread => ⟨?_, fun _ => hread⟩⟩
  exact fun hother => absurd (htable.symm.trans hother) (by decide)

/-- The first row of a selection of memberships can be read as a membership. -/
theorem Selection.canRead_first (conditions : List Condition) (row : Row) (rest : List Row) :
    (Table.memberships.select conditions).first.CanRead (row :: rest) ↔
      ∃ member, Membership.ofRow row = .ok member := by
  rw [canRead_memberships rfl]
  change (∃ members, [row].mapM Membership.ofRow = .ok members) ↔ _
  rw [List.mapM_cons]
  cases Membership.ofRow row with
  | error error => exact iff_of_false nofun nofun
  | ok member => exact iff_of_true ⟨_, rfl⟩ ⟨_, rfl⟩

/-- A call to the database was a success: the connection did not fail, what a selection got can be
read, and an insertion touched a row. -/
def Exchange.Succeeded : Exchange → Prop
  | ⟨.begin, reply⟩ => reply = .ok ()
  | ⟨.commit, reply⟩ => reply = .ok ()
  | ⟨.rollback, _⟩ => True
  | ⟨.query (.select selection), reply⟩ => ∃ rows, reply = .ok rows ∧ selection.CanRead rows
  | ⟨.query _, reply⟩ => ∃ rows, reply = .ok rows
  | ⟨.execute (.insert _ _), reply⟩ => ∃ count, reply = .ok count ∧ count ≠ 0
  | ⟨.execute _, reply⟩ => ∃ count, reply = .ok count

/-- The request that reads the membership of a user in an organization. -/
@[reducible]
def readsMember (organizationId userId : String) : Request :=
  .query (.select (Table.memberships.select (memberIs organizationId userId)).first)

/-- A membership was read but not found. -/
def Exchange.MissesMember (exchange : Exchange) : Prop :=
  ∃ organizationId userId, exchange = ⟨readsMember organizationId userId, .ok []⟩

/-- A selection of all rows misses no membership. -/
theorem Exchange.not_misses_of_limit {selection : Selection} (hlimit : selection.limit = none)
    (reply : Except Failure (List Row)) : ¬MissesMember ⟨.query (.select selection), reply⟩ := by
  rintro ⟨_, _, ⟨⟩⟩
  cases hlimit

/-- The conditions for the primary memberships of a user in a tenant, but for one organization. -/
def primariesElsewhere (keptOrganizationId userId : String) (tenantId : Option String) :
    List Condition :=
  [textIs "user_id" userId, .differs "org_id" (.text keptOrganizationId),
    .scope "tenant_id" tenantId, .equals "is_primary" (.bool true)]

/-- An update of memberships concerns a single one, or withdraws the primary flags of a user's other
memberships in a tenant after the user's memberships there were locked. -/
def LocksFirst (log : List Exchange) : Prop :=
  ∀ before update after settings conditions, log = before ++ update :: after →
    update.request = .execute (.update Table.memberships settings conditions) →
    (∃ organizationId userId, conditions = memberIs organizationId userId) ∨
      ∃ keptOrganizationId userId tenantId,
        conditions = primariesElsewhere keptOrganizationId userId tenantId ∧
        ∃ lock ∈ before, lock.request = .query (.select (lockedMemberships userId tenantId)) ∧
          lock.Succeeded

namespace LocksFirst

variable {first second log : List Exchange}

/-- Nothing has to be locked for updates of single memberships. -/
theorem of_single (hsingle : ∀ exchange ∈ log, ∀ settings conditions,
    exchange.request = .execute (.update Table.memberships settings conditions) →
      ∃ organizationId userId, conditions = memberIs organizationId userId) :
    LocksFirst log := by
  rintro before update after settings conditions rfl hupdate
  exact .inl (hsingle update (by simp) settings conditions hupdate)

/-- Flags are withdrawn after a lock. -/
theorem of_lock {lock clearing : Exchange} {keptOrganizationId userId : String}
    {tenantId : Option String}
    (hlock : lock.request = .query (.select (lockedMemberships userId tenantId)))
    (hlocked : lock.Succeeded)
    (hclearing : ∀ settings conditions,
      clearing.request = .execute (.update Table.memberships settings conditions) →
        conditions = primariesElsewhere keptOrganizationId userId tenantId) :
    LocksFirst [lock, clearing] := by
  intro before update after settings conditions hlog hupdate
  rcases before with _ | ⟨head, _ | ⟨middle, rest⟩⟩
  · rw [List.nil_append, List.cons.injEq] at hlog
    rw [← hlog.1, hlock] at hupdate
    cases hupdate
  · rw [List.cons_append, List.nil_append, List.cons.injEq, List.cons.injEq] at hlog
    obtain ⟨rfl, rfl, -⟩ := hlog
    exact .inr ⟨keptOrganizationId, userId, tenantId, hclearing settings conditions hupdate,
      lock, List.mem_cons_self, hlock, hlocked⟩
  · simp at hlog

/-- Two parts of a log lock first. -/
theorem append (hfirst : LocksFirst first) (hsecond : LocksFirst second) :
    LocksFirst (first ++ second) := by
  intro before update after settings conditions hlog hupdate
  rcases List.append_eq_append_iff.1 hlog with ⟨middle, hbefore, hrest⟩ | ⟨middle, hfront, hrest⟩
  · refine (hsecond middle update after settings conditions hrest hupdate).imp_right ?_
    rintro ⟨kept, userId, tenantId, hconditions, lock, hlock, hlocks⟩
    exact ⟨kept, userId, tenantId, hconditions, lock,
      hbefore ▸ List.mem_append_right _ hlock, hlocks⟩
  · cases middle with
    | nil =>
        -- The update is the first of the second part, where no lock comes before it.
        refine (hsecond [] update after settings conditions hrest.symm hupdate).imp_right ?_
        rintro ⟨_, _, _, _, lock, hlock, -⟩
        exact absurd hlock List.not_mem_nil
    | cons head rest =>
        rw [List.cons_append, List.cons.injEq] at hrest
        rw [← hrest.1] at hfront
        exact hfirst before update rest settings conditions hfront hupdate

end LocksFirst

/-! ## Sessions that proceed -/

/-- The exchanges of a session inside a transaction: statements only, which lock first; and the
session succeeded exactly if all of them did. -/
structure ProceedsBy (log : List Exchange) (succeeded : Prop) : Prop where
  statements : ∀ exchange ∈ log, exchange.request.IsStatement
  succeeded_iff : succeeded ↔ ∀ exchange ∈ log, exchange.Succeeded ∧ ¬exchange.MissesMember
  locksFirst : LocksFirst log

/-- One statement, which was a success or not. -/
theorem ProceedsBy.single {exchange : Exchange} {succeeded : Prop}
    (hstatement : exchange.request.IsStatement)
    (hsucceeded : succeeded ↔ exchange.Succeeded ∧ ¬exchange.MissesMember)
    (hsingle : ∀ settings conditions,
      exchange.request = .execute (.update Table.memberships settings conditions) →
        ∃ organizationId userId, conditions = memberIs organizationId userId) :
    ProceedsBy [exchange] succeeded where
  statements := List.forall_mem_singleton.2 hstatement
  succeeded_iff := by rw [List.forall_mem_singleton, hsucceeded]
  locksFirst := .of_single (List.forall_mem_singleton.2 hsingle)

/-- One command, which updates at most a single membership. -/
theorem ProceedsBy.command {statement : Statement} {reply : Except Failure Nat} {succeeded : Prop}
    (hsucceeded : succeeded ↔ Exchange.Succeeded ⟨.execute statement, reply⟩)
    (hupdate : ∀ settings conditions, statement = .update Table.memberships settings conditions →
      ∃ organizationId userId, conditions = memberIs organizationId userId) :
    ProceedsBy [⟨.execute statement, reply⟩] succeeded := by
  refine .single trivial ?_ fun settings conditions hrequest => ?_
  · rw [hsucceeded, and_iff_left]
    rintro ⟨_, _, ⟨⟩⟩
  · injection hrequest with hstatement
    exact hupdate settings conditions hstatement

/-- One selection whose rows have come. -/
theorem ProceedsBy.selected {selection : Selection} {rows : List Row} {succeeded : Prop}
    (hsucceeded : succeeded ↔ selection.CanRead rows)
    (hfound : ¬Exchange.MissesMember ⟨.query (.select selection), .ok rows⟩) :
    ProceedsBy [⟨.query (.select selection), .ok rows⟩] succeeded := by
  refine .single trivial ?_ nofun
  rw [and_iff_left hfound, hsucceeded]
  refine ⟨fun canRead => ⟨rows, rfl, canRead⟩, ?_⟩
  rintro ⟨_, ⟨⟩, canRead⟩
  exact canRead

/-- One selection that has failed. -/
theorem ProceedsBy.refused {selection : Selection} {succeeded : Prop} (hfailed : ¬succeeded)
    (failure : Failure) :
    ProceedsBy [⟨.query (.select selection), .error failure⟩] succeeded := by
  refine .single trivial (iff_of_false hfailed ?_) nofun
  rintro ⟨⟨_, ⟨⟩, -⟩, -⟩

/-- Flags are withdrawn after a lock that was a success. -/
theorem ProceedsBy.cleared {keptOrganizationId userId : String} {tenantId : Option String}
    {rows : List Row} {settings : List (String × Value)} {reply : Except Failure Nat}
    {succeeded : Prop} (hlocked : (lockedMemberships userId tenantId).CanRead rows)
    (hsucceeded : succeeded ↔ ∃ count, reply = .ok count) :
    ProceedsBy
      [⟨.query (.select (lockedMemberships userId tenantId)), .ok rows⟩,
        ⟨.execute (.update Table.memberships settings
          (primariesElsewhere keptOrganizationId userId tenantId)), reply⟩] succeeded where
  statements := by simp [Request.IsStatement]
  succeeded_iff := by
    have hfound := @Exchange.not_misses_of_limit (lockedMemberships userId tenantId) rfl (.ok rows)
    rw [List.forall_mem_cons, List.forall_mem_singleton, hsucceeded]
    refine ⟨fun hcounted => ⟨⟨⟨rows, rfl, hlocked⟩, hfound⟩, hcounted, ?_⟩, fun hall => hall.2.1⟩
    rintro ⟨_, _, ⟨⟩⟩
  locksFirst := by
    refine @LocksFirst.of_lock _ _ keptOrganizationId _ _ rfl ⟨rows, rfl, hlocked⟩
      fun _ conditions hrequest => ?_
    injection hrequest with hstatement
    injection hstatement with _ _ hconditions
    exact hconditions.symm

/-- After exchanges that were successes, others follow. -/
theorem ProceedsBy.append {first second : List Exchange} {done succeeded : Prop}
    (hfirst : ProceedsBy first done) (hdone : done) (hsecond : ProceedsBy second succeeded) :
    ProceedsBy (first ++ second) succeeded where
  statements := List.forall_mem_append.2 ⟨hfirst.statements, hsecond.statements⟩
  succeeded_iff := by
    rw [List.forall_mem_append, hsecond.succeeded_iff]
    exact (and_iff_right (hfirst.succeeded_iff.1 hdone)).symm
  locksFirst := hfirst.locksFirst.append hsecond.locksFirst

namespace Session

variable {α β : Type}

/-- A session proceeds by its exchanges, whatever the connection replies. -/
def Proceeds (session : Session α) : Prop :=
  session.Converses fun log result => ProceedsBy log (result.isOk = true)

namespace Proceeds

theorem pure (value : α) : (Pure.pure value : Session α).Proceeds := by
  refine Converses.pure ⟨nofun, ?_, .of_single nofun⟩
  exact iff_of_true rfl nofun

/-- Two sessions in sequence proceed. -/
theorem bind {session : Session α} {next : α → Session β} (first : session.Proceeds)
    (hnext : ∀ value, (next value).Proceeds) : (session >>= next).Proceeds := by
  refine Converses.bind first (fun log value hlog => ?_) fun log error hlog => ?_
  · exact (hnext value).mono fun rest result hrest => hlog.append rfl hrest
  · exact ⟨hlog.statements, hlog.succeeded_iff, hlog.locksFirst⟩

/-- A command that is no insertion and updates at most a single membership. -/
theorem execute {statement : Statement} {next : Nat → Session α}
    (hinsert : ∀ table rows, statement ≠ .insert table rows)
    (hupdate : ∀ settings conditions, statement = .update Table.memberships settings conditions →
      ∃ organizationId userId, conditions = memberIs organizationId userId)
    (hnext : ∀ count, (next count).Proceeds) :
    (Session.execute statement >>= next).Proceeds := by
  have hsucceeded : ∀ reply, Exchange.Succeeded ⟨.execute statement, reply⟩ ↔
      ∃ count, reply = .ok count := by
    intro reply
    cases statement with
    | insert table rows => exact absurd rfl (hinsert table rows)
    | _ => exact Iff.rfl
  refine Converses.execute (fun count => ?_) fun failure => ?_
  · have hcounted : ProceedsBy [⟨.execute statement, .ok count⟩] True :=
      .command (iff_of_true trivial ((hsucceeded _).2 ⟨count, rfl⟩)) hupdate
    exact (hnext count).mono fun rest result hrest => hcounted.append trivial hrest
  · exact .command (iff_of_false nofun (by rw [hsucceeded]; exact nofun)) hupdate

/-- An insertion is a success if it touches a row. -/
theorem insert (table : Table) (rows : List (List Value)) :
    (Session.insert table rows).Proceeds := by
  refine Converses.execute (fun count => ?_) fun failure => ?_
  · split
    · rename_i hnone
      refine .throw (.command (iff_of_false nofun ?_) nofun)
      rintro ⟨_, ⟨⟩, hsome⟩
      exact hsome hnone
    · rename_i hsome
      exact .pure (.command (iff_of_true rfl ⟨count, rfl, hsome⟩) nofun)
  · exact .command (iff_of_false nofun nofun) nofun

/-- Reading all rows of a selection is a success if they can be read. -/
theorem fetchAll {read : Row → Except StoreError α} {selection : Selection}
    (hread : ∀ rows, selection.CanRead rows ↔ ∃ values,
      (rows.take (selection.limit.getD rows.length)).mapM read = .ok values)
    (hlimit : selection.limit = none) : (Sql.fetchAll read selection).Proceeds := by
  refine Converses.query (fun rows => .check (.selected ?_ (Exchange.not_misses_of_limit hlimit _)))
    fun failure => .refused nofun failure
  rw [hread, hlimit, Option.getD_none, List.take_length]
  cases rows.mapM read with
  | error error => exact iff_of_false nofun nofun
  | ok values => exact iff_of_true rfl ⟨values, rfl⟩

/-- Reading a membership that must be there is a success if it is found and can be read. -/
theorem demandMember (organizationId userId : String) :
    (fetchMember organizationId userId >>= Sql.demandMember).Proceeds := by
  unfold fetchMember fetchFirst
  rw [bind_assoc]
  -- A missing row fails only where the membership is demanded, after the same exchange.
  refine Converses.query (fun rows => ?_) fun failure => .refused nofun failure
  cases rows with
  | nil =>
      refine .throw (.single trivial (iff_of_false nofun ?_) nofun)
      exact fun hfound => hfound.2 ⟨organizationId, userId, rfl⟩
  | cons row rest =>
      have hfound : ¬Exchange.MissesMember
          ⟨readsMember organizationId userId, .ok (row :: rest)⟩ := by
        rintro ⟨_, _, ⟨⟩⟩
      have hread := Selection.canRead_first (memberIs organizationId userId) row rest
      dsimp only
      cases hrow : Membership.ofRow row with
      | error error =>
          refine Converses.throw (.selected (iff_of_false nofun ?_) hfound)
          rw [hread, hrow]
          exact nofun
      | ok member =>
          exact Converses.pure (.selected (iff_of_true rfl (hread.2 ⟨member, hrow⟩)) hfound)

/-- Withdrawing primary flags locks memberships first. -/
theorem clearOthers (keptOrganizationId userId : String) (tenantId : Option String) (now : Nat) :
    (Sql.clearOthers keptOrganizationId userId tenantId now).Proceeds := by
  unfold Sql.clearOthers Sql.fetchAll
  rw [bind_assoc]
  refine Converses.query (fun rows => ?_) fun failure => .refused nofun failure
  have hread := @Selection.canRead_memberships (lockedMemberships userId tenantId) rfl rows
  have hlimit : (lockedMemberships userId tenantId).limit = none := rfl
  rw [hlimit, Option.getD_none, List.take_length] at hread
  have hfound := @Exchange.not_misses_of_limit (lockedMemberships userId tenantId) rfl (.ok rows)
  cases hrows : rows.mapM Membership.ofRow with
  | error error =>
      refine Converses.throw (.selected (iff_of_false nofun ?_) hfound)
      rw [hread, hrows]
      exact nofun
  | ok members =>
      have hlock : (lockedMemberships userId tenantId).CanRead rows := hread.2 ⟨members, hrows⟩
      rw [Session.check, pure_bind]
      -- The update comes only after a lock that was a success, so both are looked at together.
      refine Converses.execute (fun count => .pure ?_) fun failure => ?_
      · exact .cleared hlock (iff_of_true rfl ⟨count, rfl⟩)
      · exact .cleared hlock (iff_of_false nofun nofun)

end Proceeds
end Session

end Sql
end Tenancy
