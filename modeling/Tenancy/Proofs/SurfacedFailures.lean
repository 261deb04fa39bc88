import Tenancy.Proofs.Transactions

/-!
# Tenancy - Failures of the connection reach the caller

A storage call stops at the first request that its connection fails, and fails for the
same reason: with a conflict where a unique key was taken, and as a failure of the
database otherwise.  So whoever loses a race for a unique key is told that it was a
conflict, also by a transaction, which is rolled back before it says so.

Main definitions:

- `Sql.Exchange.Fails`: a connection failed a request.
- `Sql.Session.Surfaces`: a session fails for the reason that a request failed.

Main results:

- Theorem `Sql.Session.Surfaces.bind`: two sessions in sequence.
- Theorem `Sql.Session.Surfaces.transaction`: a transaction surfaces what its body does,
  and the failures of its beginning and of its commit.
- Theorem `Sql.performMembership_surfaces` and its siblings: all storage calls surface
  the failures of their connection.
- Theorem `Sql.Session.Surfaces.conflict`: a unique key that is taken is a conflict.
-/

namespace Tenancy
namespace Sql

/-- A connection failed a request for a reason. -/
def Exchange.Fails (failure : Failure) : Exchange → Prop
  | ⟨.begin, reply⟩ => reply = .error failure
  | ⟨.commit, reply⟩ => reply = .error failure
  | ⟨.rollback, _⟩ => False
  | ⟨.query _, reply⟩ => reply = .error failure
  | ⟨.execute _, reply⟩ => reply = .error failure

namespace Session

variable {α β : Type}

/-- Whatever a connection replies, a session in which a request failed fails for that reason. -/
def Surfaces (session : Session α) : Prop :=
  session.Converses fun log result => ∀ exchange ∈ log, ∀ failure, exchange.Fails failure →
    result = .error failure.storeError

namespace Surfaces

theorem pure (value : α) : (Pure.pure value : Session α).Surfaces :=
  Converses.pure nofun

theorem throw (error : StoreError) : (MonadExcept.throw error : Session α).Surfaces :=
  Converses.throw nofun

theorem check (reading : Except StoreError α) : (Session.check reading).Surfaces :=
  Converses.check nofun

theorem query (statement : Statement) : (Session.query statement).Surfaces := by
  refine ⟨fun reply => List.forall_mem_singleton.2 fun failure hfails => ?_⟩
  rw [show reply = .error failure from hfails]
  rfl

theorem execute (statement : Statement) : (Session.execute statement).Surfaces := by
  refine ⟨fun reply => List.forall_mem_singleton.2 fun failure hfails => ?_⟩
  rw [show reply = .error failure from hfails]
  rfl

/-- Two sessions in sequence: after a request that failed, the second one does not run. -/
theorem bind {session : Session α} {next : α → Session β} (first : session.Surfaces)
    (hnext : ∀ value, (next value).Surfaces) : (session >>= next).Surfaces := by
  refine Converses.bind first (fun log value hlog => ?_) fun log error hlog exchange hmem => ?_
  · refine (hnext value).mono fun rest result hrest => List.forall_mem_append.2 ⟨?_, hrest⟩
    intro exchange hmem failure hfails
    cases hlog exchange hmem failure hfails
  · intro failure hfails
    have herror := hlog exchange hmem failure hfails
    rw [Except.error.injEq] at herror ⊢
    exact herror

/-- One of two sessions, by a condition. -/
theorem ite {condition : Prop} [Decidable condition] {session other : Session α}
    (first : session.Surfaces) (second : other.Surfaces) :
    (if condition then session else other).Surfaces := by
  split
  · exact first
  · exact second

/-- A transaction surfaces what its body does, and that it could not begin or commit. -/
theorem transaction {body : Session α} (surfaces : body.Surfaces) :
    (Sql.transaction body).Surfaces := by
  refine (transaction_converses surfaces).mono fun log result transacts => ?_
  cases transacts with
  | refused failure =>
      refine List.forall_mem_singleton.2 fun other hfails => ?_
      cases hfails
      rfl
  | committed reply succeeded =>
      rw [List.forall_mem_cons, List.forall_mem_append, List.forall_mem_singleton]
      refine ⟨nofun, fun exchange hmem failure hfails => ?_, fun failure hfails => ?_⟩
      · cases succeeded exchange hmem failure hfails
      · rw [show reply = .error failure from hfails]
        rfl
  | rolledBack failed =>
      rw [List.forall_mem_cons, List.forall_mem_append, List.forall_mem_singleton]
      exact ⟨nofun, failed, fun _ => False.elim⟩

/-- A unique key that is taken is a conflict. -/
theorem conflict {σ : Type} {session : Session α} (surfaces : session.Surfaces)
    {connection : Connection σ} {state : σ} {exchange : Exchange} {detail : String}
    (hmem : exchange ∈ session.log connection state)
    (hfails : exchange.Fails (.uniqueViolation detail)) :
    session.result connection state = .error (.conflict detail) :=
  surfaces.log_result connection state exchange hmem _ hfails

theorem insert (table : Table) (rows : List (List Value)) :
    (Session.insert table rows).Surfaces :=
  bind (execute _) fun _ => ite (throw _) (pure ())

theorem fetchAll (read : Row → Except StoreError α) (selection : Selection) :
    (Sql.fetchAll read selection).Surfaces :=
  bind (query _) fun _ => check _

theorem fetchFirst (read : Row → Except StoreError α) (selection : Selection) :
    (Sql.fetchFirst read selection).Surfaces := by
  refine bind (query _) fun rows => ?_
  cases rows with
  | nil => exact .pure none
  | cons row rest => exact .bind (.check _) fun _ => .pure _

theorem fetchCount (selection : Selection) : (Sql.fetchCount selection).Surfaces := by
  refine bind (query _) fun rows => ?_
  cases rows with
  | nil => exact .pure 0
  | cons row rest => exact .check _

end Surfaces
end Session

open Session

/-! ## Storage calls -/

/-- Calls about organizations fail for the reason that a request of theirs failed. -/
theorem performOrganization_surfaces (call : OrganizationCall) :
    (performOrganization call).Surfaces := by
  cases call with
  | create => exact .insert _ _
  | findById | findBySlug | findByDisplayName => exact .fetchFirst _ _
  | list => exact .fetchAll _ _
  | update => exact .bind (.execute _) fun _ => .ite (.throw _) (.pure ())

theorem loadMembership_surfaces (organizationId userId : String) :
    (loadMembership organizationId userId).Surfaces := by
  refine .bind (.fetchFirst _ _) fun found => ?_
  cases found with
  | none => exact .pure none
  | some member => exact .bind (.fetchAll _ _) fun _ => .pure _

theorem demandMember_surfaces (found : Option Membership) : (demandMember found).Surfaces := by
  cases found with
  | none => exact .throw _
  | some member => exact .pure member

theorem clearIf_surfaces (clears : Bool) (keptOrganizationId userId : String)
    (tenantId : Option String) (now : Nat) :
    (clearIf clears keptOrganizationId userId tenantId now).Surfaces :=
  .ite (.bind (.fetchAll _ _) fun _ => .bind (.execute _) fun _ => .pure ()) (.pure ())

theorem insertAssignments_surfaces (assignments : List RoleAssignment) :
    (insertAssignments assignments).Surfaces :=
  .ite (.pure ()) (.insert _ _)

theorem deleteAssignments_surfaces (organizationId userId : String) (roleIds : List String) :
    (deleteAssignments organizationId userId roleIds).Surfaces :=
  .ite (.pure ()) (.bind (.execute _) fun _ => .pure ())

theorem insertMember_surfaces (member : Membership) (clears : Bool) :
    (insertMember member clears).Surfaces := by
  rw [insertMember_eq]
  exact .bind (clearIf_surfaces _ _ _ _ _) fun _ => .bind (.insert _ _) fun _ =>
    insertAssignments_surfaces member.roles

theorem writeChange_surfaces (change : Membership.Change) : (writeChange change).Surfaces :=
  .bind (.execute _) fun _ => .bind (deleteAssignments_surfaces _ _ _) fun _ =>
    .bind (insertAssignments_surfaces _) fun _ =>
      .bind (loadMembership_surfaces _ _) demandMember_surfaces

theorem applyChange_surfaces (change : Membership.Change) : (applyChange change).Surfaces := by
  rw [applyChange_eq]
  exact .bind (.bind (.fetchFirst _ _) demandMember_surfaces) fun _ =>
    .bind (clearIf_surfaces _ _ _ _ _) fun _ => writeChange_surfaces change

theorem queryMembers_surfaces (filter : MemberFilter) (offset limit : Nat) :
    (queryMembers filter offset limit).Surfaces := by
  refine .bind (.fetchCount _) fun total => .ite (.pure _) ?_
  refine .bind (.fetchAll _ _) fun members => .ite (.pure _) ?_
  exact .bind (.fetchAll _ _) fun _ => .pure _

theorem listForUser_surfaces (userId : String) : (listForUser userId).Surfaces :=
  .bind (.fetchAll _ _) fun _ => .ite (.pure _) (.bind (.fetchAll _ _) fun _ => .pure _)

/-- Calls about memberships fail for the reason that a request of theirs failed. -/
theorem performMembership_surfaces (call : MembershipCall) :
    (performMembership call).Surfaces := by
  cases call with
  | find organizationId userId => exact loadMembership_surfaces organizationId userId
  | listForUser userId => exact listForUser_surfaces userId
  | insert member clears => exact .transaction (insertMember_surfaces member clears)
  | applyChange change => exact .transaction (applyChange_surfaces change)
  | query filter offset limit => exact queryMembers_surfaces filter offset limit
  | delete =>
      exact .transaction (.bind (.execute _) fun _ => .bind (.execute _) fun _ => .pure _)

theorem changeGrants_surfaces (added : List Grant) (removedIds : List String) :
    (changeGrants added removedIds).Surfaces := by
  have hinserts : (if added.isEmpty then Pure.pure ()
      else Session.insert Table.grants (added.map (·.cells))).Surfaces :=
    .ite (.pure ()) (.insert _ _)
  exact .ite hinserts (.bind (.execute _) fun _ => hinserts)

/-- Calls about roles fail for the reason that a request of theirs failed. -/
theorem performRole_surfaces (call : RoleCall) : (performRole call).Surfaces := by
  cases call with
  | create => exact .insert _ _
  | find | findByName => exact .fetchFirst _ _
  | findMany | grantsOf => exact .ite (.pure []) (.fetchAll _ _)
  | list | listAssignable => exact .fetchAll _ _
  | update => exact .bind (.execute _) fun _ => .ite (.throw _) (.pure ())
  | delete =>
      exact .transaction (.bind (.execute _) fun _ => .bind (.execute _) fun _ => .pure _)
  | changeGrants added removedIds => exact .transaction (changeGrants_surfaces added removedIds)

/-- Calls about invitations fail for the reason that a request of theirs failed. -/
theorem performInvitation_surfaces (call : InvitationCall) :
    (performInvitation call).Surfaces := by
  cases call with
  | create => exact .insert _ _
  | findByCode | findForEmail => exact .fetchFirst _ _
  | listForOrganization => exact .fetchAll _ _
  | delete => exact .bind (.execute _) fun _ => .pure _
  | deleteExpired => exact .execute _

/-- Calls about the audit log fail for the reason that a request of theirs failed. -/
theorem performAudit_surfaces (call : AuditCall) : (performAudit call).Surfaces := by
  cases call with
  | record => exact .insert _ _
  | ofOrganization | ofActor => exact .fetchAll _ _

end Sql
end Tenancy
