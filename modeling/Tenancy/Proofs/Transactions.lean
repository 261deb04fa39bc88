import Tenancy.Proofs.StatementLogs

/-!
# Tenancy - Writes of several rows are transactions

A call that writes several rows begins a transaction, makes its statements inside it and
commits if all of them were successes; otherwise it rolls back.  Which statements it makes
depends on what it was asked and on what it read, and each of them may fail.

Main definitions:

- `Sql.Write`: the calls that write several rows.
- `Sql.Write.milestones`: what they have requested when they commit.
- `Sql.Write.IsTransaction`: a call is one transaction.

Main results:

- Theorem `Sql.Write.proceeds`: inside their transactions, all calls proceed.
- Theorem `Sql.Write.makes`: inside their transactions, all calls make their requests.
- Theorem `Sql.writes_are_transactions`: each call is one transaction, whatever the
  connection replies.
-/

namespace Tenancy
namespace Sql

/-! ## The calls -/

/-- The calls that write several rows. -/
inductive Write
  | insertMember (member : Membership) (clears : Bool)
  | changeMember (change : Membership.Change)
  | deleteMember (organizationId userId : String)
  | deleteRole (roleId : String)
  | changeGrants (added : List Grant) (removedIds : List String)

namespace Write

/-- What each call answers. -/
@[reducible]
def Answer : Write → Type
  | .insertMember _ _ => Unit
  | .changeMember _ => Membership
  | .deleteMember _ _ => Bool
  | .deleteRole _ => Bool
  | .changeGrants _ _ => Unit

/-- The session for each call. -/
def session : (write : Write) → Session write.Answer
  | .insertMember member clears => performMembership (.insert member clears)
  | .changeMember change => performMembership (.applyChange change)
  | .deleteMember organizationId userId => performMembership (.delete organizationId userId)
  | .deleteRole roleId => performRole (.delete roleId)
  | .changeGrants added removedIds => performRole (.changeGrants added removedIds)

/-- What each call does inside its transaction. -/
def body : (write : Write) → Session write.Answer
  | .insertMember member clears => Sql.insertMember member clears
  | .changeMember change => applyChange change
  | .deleteMember organizationId userId => Sql.deleteMember organizationId userId
  | .deleteRole roleId => Sql.deleteRole roleId
  | .changeGrants added removedIds => Sql.changeGrants added removedIds

/-- Each call is a transaction. -/
theorem session_eq (write : Write) : write.session = transaction write.body := by
  cases write <;> rfl

end Write

open Session

/-! ## Stages of the calls -/

/-- Withdraw primary flags if a call asks for it. -/
def clearIf (clears : Bool) (keptOrganizationId userId : String) (tenantId : Option String)
    (now : Nat) : Session Unit :=
  if clears then clearOthers keptOrganizationId userId tenantId now else pure ()

/-- What a change writes and reads once primary flags are withdrawn. -/
def writeChange (change : Membership.Change) : Session Membership := do
  let _ ← execute (.update Table.memberships (changeSettings change)
    (memberIs change.organizationId change.userId))
  deleteAssignments change.organizationId change.userId change.removedRoleIds
  insertAssignments change.added
  demandMember (← loadMembership change.organizationId change.userId)

/-- A new membership is inserted after flags were withdrawn, and before its roles. -/
theorem insertMember_eq (member : Membership) (clears : Bool) :
    insertMember member clears =
      clearIf clears member.organizationId member.userId member.tenantId member.createdAt >>=
        fun _ => Session.insert Table.memberships [member.cells] >>=
        fun _ => insertAssignments member.roles := by
  cases clears <;> rfl

/-- A change reads the membership, then flags are withdrawn, and then it is written. -/
theorem applyChange_eq (change : Membership.Change) :
    applyChange change =
      (fetchMember change.organizationId change.userId >>= demandMember) >>= fun existing =>
        clearIf change.clearsOthers change.organizationId change.userId existing.tenantId
          change.updatedAt >>= fun _ => writeChange change := by
  unfold applyChange clearIf
  rw [bind_assoc]
  cases change.clearsOthers <;> rfl

/-- A membership that is loaded must be there, and then its roles are read. -/
theorem demandLoaded_eq (organizationId userId : String) :
    (loadMembership organizationId userId >>= demandMember) =
      ((fetchMember organizationId userId >>= demandMember) >>= fun member =>
        fetchAssignments (memberIs organizationId userId) >>= fun assignments =>
        pure { member with roles := assignments }) := by
  unfold loadMembership
  rw [bind_assoc, bind_assoc]
  congr 1
  funext found
  cases found with
  | none => rfl
  | some member => simp [demandMember]

/-! ## The calls proceed -/

theorem clearIf_proceeds (clears : Bool) (keptOrganizationId userId : String)
    (tenantId : Option String) (now : Nat) :
    (clearIf clears keptOrganizationId userId tenantId now).Proceeds := by
  unfold clearIf
  split
  · exact .clearOthers _ _ _ _
  · exact .pure ()

/-- Inserting assignments proceeds. -/
theorem insertAssignments_proceeds (assignments : List RoleAssignment) :
    (insertAssignments assignments).Proceeds := by
  unfold insertAssignments
  split
  · exact .pure ()
  · exact .insert _ _

theorem deleteAssignments_proceeds (organizationId userId : String) (roleIds : List String) :
    (deleteAssignments organizationId userId roleIds).Proceeds := by
  unfold deleteAssignments
  split
  · exact .pure ()
  · exact .execute nofun nofun fun _ => .pure ()

/-- Loading a membership that must be there proceeds. -/
theorem demandLoaded_proceeds (organizationId userId : String) :
    (loadMembership organizationId userId >>= demandMember).Proceeds := by
  rw [demandLoaded_eq]
  refine .bind (.demandMember _ _) fun member => .bind ?_ fun _ => .pure _
  exact .fetchAll (Selection.canRead_assignments rfl) rfl

theorem writeChange_proceeds (change : Membership.Change) : (writeChange change).Proceeds := by
  refine .execute nofun ?_ fun _ => .bind (deleteAssignments_proceeds _ _ _) fun _ =>
    .bind (insertAssignments_proceeds _) fun _ => demandLoaded_proceeds _ _
  rintro _ _ ⟨⟩
  exact ⟨_, _, rfl⟩

theorem insertMember_proceeds (member : Membership) (clears : Bool) :
    (insertMember member clears).Proceeds := by
  rw [insertMember_eq]
  exact .bind (clearIf_proceeds _ _ _ _ _) fun _ => .bind (.insert _ _) fun _ =>
    insertAssignments_proceeds member.roles

theorem applyChange_proceeds (change : Membership.Change) : (applyChange change).Proceeds := by
  rw [applyChange_eq]
  exact .bind (.demandMember _ _) fun _ => .bind (clearIf_proceeds _ _ _ _ _) fun _ =>
    writeChange_proceeds change

theorem deleteMember_proceeds (organizationId userId : String) :
    (deleteMember organizationId userId).Proceeds :=
  .execute nofun nofun fun _ => .execute nofun nofun fun _ => .pure _

theorem deleteRole_proceeds (roleId : String) : (deleteRole roleId).Proceeds :=
  .execute nofun nofun fun _ => .execute nofun nofun fun _ => .pure _

theorem changeGrants_proceeds (added : List Grant) (removedIds : List String) :
    (changeGrants added removedIds).Proceeds := by
  have hinserts : (if added.isEmpty then pure ()
      else Session.insert Table.grants (added.map (·.cells))).Proceeds := by
    split
    · exact .pure ()
    · exact .insert _ _
  unfold changeGrants
  dsimp only
  split
  · exact hinserts
  · exact .execute nofun nofun fun _ => hinserts

/-- Inside their transactions, all calls proceed. -/
theorem Write.proceeds (write : Write) : write.body.Proceeds := by
  cases write with
  | insertMember member clears => exact insertMember_proceeds member clears
  | changeMember change => exact applyChange_proceeds change
  | deleteMember organizationId userId => exact deleteMember_proceeds organizationId userId
  | deleteRole roleId => exact deleteRole_proceeds roleId
  | changeGrants added removedIds => exact changeGrants_proceeds added removedIds

/-! ## What the calls have done -/

/-- A request withdraws the primary flags of a user's other memberships in a tenant. -/
def Request.WithdrawsFrom (keptOrganizationId userId : String) (tenantId : Option String)
    (request : Request) : Prop :=
  ∃ now, request = .execute (.update Table.memberships
    [("is_primary", .bool false), ("updated_at", .time now)]
    (primariesElsewhere keptOrganizationId userId tenantId))

/-- The kinds of requests that withdrawing primary flags makes, if a call asks for it. -/
def withdrawals (clears : Bool) (kind : Request → Prop) : List (Request → Prop) :=
  if clears then [kind] else []

/-- What a call has requested when it commits, in this order: a changed membership was read before
and after the change, and where primary flags are to be withdrawn, they were. -/
def Write.milestones : Write → List (Request → Prop)
  | .insertMember member clears =>
    withdrawals clears
      (Request.WithdrawsFrom member.organizationId member.userId member.tenantId)
  | .changeMember change =>
    (fun request => request = readsMember change.organizationId change.userId) ::
      (withdrawals change.clearsOthers (fun request => ∃ tenantId,
        request.WithdrawsFrom change.organizationId change.userId tenantId) ++
      [fun request => request = readsMember change.organizationId change.userId])
  | _ => []

/-- Withdrawing primary flags makes its update. -/
theorem clearIf_makes {keptOrganizationId userId : String} {tenantId : Option String}
    {kind : Request → Prop}
    (hkind : ∀ request : Request, request.WithdrawsFrom keptOrganizationId userId tenantId →
      kind request) (clears : Bool) (now : Nat) :
    (clearIf clears keptOrganizationId userId tenantId now).Makes (withdrawals clears kind) := by
  cases clears with
  | false => exact .nothing _
  | true =>
      have hclears : (clearOthers keptOrganizationId userId tenantId now).Makes [kind] := by
        refine .after _ fun _ => Converses.execute (fun count => .pure fun _ => ?_) fun _ => nofun
        exact .single (hkind _ ⟨now, rfl⟩)
      exact hclears

/-- Reading a membership makes that request. -/
theorem fetchMember_makes (organizationId userId : String) :
    (fetchMember organizationId userId).Makes
      [fun request => request = readsMember organizationId userId] := by
  refine Converses.query (fun rows => ?_) fun _ => nofun
  exact ⟨(ProgramConverses.trivial _).mono fun _ _ _ _ => .cons rfl .nil⟩

theorem insertMember_makes (member : Membership) (clears : Bool) :
    (insertMember member clears).Makes (Write.insertMember member clears).milestones := by
  rw [insertMember_eq]
  exact .before (clearIf_makes (fun _ hrequest => hrequest) _ _) _

theorem applyChange_makes (change : Membership.Change) :
    (applyChange change).Makes (Write.changeMember change).milestones := by
  have hread := fetchMember_makes change.organizationId change.userId
  have hwrite : (writeChange change).Makes
      [fun request => request = readsMember change.organizationId change.userId] :=
    .after _ fun _ => .after _ fun _ => .after _ fun _ => .before (.before hread _) _
  rw [applyChange_eq]
  refine .bind (.before hread _) fun existing => .bind ?_ fun _ => hwrite
  exact clearIf_makes (fun _ hrequest => ⟨existing.tenantId, hrequest⟩) _ _

/-- A call that succeeds inside its transaction has made its requests. -/
theorem Write.makes (write : Write) : write.body.Makes write.milestones := by
  cases write with
  | insertMember member clears => exact insertMember_makes member clears
  | changeMember change => exact applyChange_makes change
  | deleteMember | deleteRole | changeGrants => exact Makes.nothing _

/-! ## Transactions -/

/-- A call is one transaction, by its exchanges with a connection and its result. -/
structure Write.IsTransaction (write : Write) (log : List Exchange)
    (result : Except StoreError write.Answer) : Prop where
  /-- The transaction begins first, and if it can, statements follow and then one end. -/
  single : (∃ failure, log = [⟨.begin, .error failure⟩]) ∨
    ∃ statements last, log = ⟨.begin, .ok ()⟩ :: (statements ++ [last]) ∧
      (∀ exchange ∈ statements, exchange.request.IsStatement) ∧ last.request.EndsTransaction
  /-- A commit is requested exactly if everything before was a success and what was read of a
  membership was found. -/
  commits_iff : (∃ exchange ∈ log, exchange.request = .commit) ↔
    ∀ exchange ∈ log, ¬exchange.request.EndsTransaction →
      exchange.Succeeded ∧ ¬exchange.MissesMember
  /-- The call succeeds exactly if its commit does. -/
  succeeds_iff : (∃ answer, result = .ok answer) ↔ ⟨.commit, .ok ()⟩ ∈ log
  /-- No primary flag is withdrawn from another membership before the lock. -/
  locksFirst : LocksFirst log
  /-- A call that commits has read a changed membership twice and withdrawn what it was asked to. -/
  passes : (∃ exchange ∈ log, exchange.request = .commit) → Passes write.milestones log

section Transactions

variable {write : Write} {result : Except StoreError write.Answer} {statements : List Exchange}
  {last : Exchange}

/-- A statement ends no transaction. -/
theorem Request.IsStatement.not_ends {request : Request} (hstatement : request.IsStatement) :
    ¬request.EndsTransaction := by
  cases request with
  | commit | rollback => exact hstatement.elim
  | begin | query | execute => exact id

/-- An end of a transaction among its exchanges is the last of them. -/
theorem eq_last_of_ends (hstatements : ∀ exchange ∈ statements, exchange.request.IsStatement)
    {exchange : Exchange}
    (hmem : exchange ∈ (⟨.begin, .ok ()⟩ : Exchange) :: (statements ++ [last]))
    (hends : exchange.request.EndsTransaction) : exchange = last := by
  rcases List.mem_cons.1 hmem with rfl | hmem
  · exact hends.elim
  · rcases List.mem_append.1 hmem with hmem | hmem
    · exact absurd hends (hstatements exchange hmem).not_ends
    · exact List.mem_singleton.1 hmem

/-- Everything before the end of a transaction was a success if all statements were. -/
theorem successes_iff (hstatements : ∀ exchange ∈ statements, exchange.request.IsStatement)
    (hend : last.request.EndsTransaction) :
    (∀ exchange ∈ (⟨.begin, .ok ()⟩ : Exchange) :: (statements ++ [last]),
      ¬exchange.request.EndsTransaction → exchange.Succeeded ∧ ¬exchange.MissesMember) ↔
      ∀ exchange ∈ statements, exchange.Succeeded ∧ ¬exchange.MissesMember := by
  have hbegin : Exchange.Succeeded ⟨.begin, .ok ()⟩ ∧ ¬Exchange.MissesMember ⟨.begin, .ok ()⟩ :=
    ⟨rfl, by rintro ⟨_, _, ⟨⟩⟩⟩
  rw [List.forall_mem_cons, List.forall_mem_append, List.forall_mem_singleton]
  constructor
  · exact fun hall exchange hmem => hall.2.1 exchange hmem (hstatements exchange hmem).not_ends
  · exact fun hall => ⟨fun _ => hbegin, fun exchange hmem _ => hall exchange hmem,
      fun hcall => absurd hend hcall⟩

/-- A transaction that has begun is one transaction of its call, if it commits where its statements
were successes. -/
theorem Write.IsTransaction.of_begun {succeeded : Prop}
    (proceeds : ProceedsBy statements succeeded) (hend : last.request.EndsTransaction)
    (hcommit : last.request = .commit ↔ succeeded)
    (hresult : (∃ answer, result = .ok answer) ↔ ⟨.commit, .ok ()⟩ = last)
    (hpasses : succeeded → Passes write.milestones statements) :
    write.IsTransaction (⟨.begin, .ok ()⟩ :: (statements ++ [last])) result := by
  have hcommits : (∃ exchange ∈ (⟨.begin, .ok ()⟩ : Exchange) :: (statements ++ [last]),
      exchange.request = .commit) ↔ succeeded := by
    rw [← hcommit]
    refine ⟨?_, fun hlast => ⟨last, by simp, hlast⟩⟩
    rintro ⟨exchange, hmem, hrequest⟩
    rwa [← eq_last_of_ends proceeds.statements hmem (by rw [hrequest]; trivial)]
  constructor
  case single => exact .inr ⟨statements, last, rfl, proceeds.statements, hend⟩
  case commits_iff =>
    rw [hcommits, successes_iff proceeds.statements hend, proceeds.succeeded_iff]
  case succeeds_iff =>
    rw [hresult]
    refine ⟨fun hlast => by simp [hlast], fun hmem => ?_⟩
    exact eq_last_of_ends proceeds.statements hmem trivial
  case locksFirst =>
    have hends : LocksFirst [last] := by
      refine .of_single (List.forall_mem_singleton.2 fun _ _ hrequest => ?_)
      rw [hrequest] at hend
      exact hend.elim
    have hbegin : LocksFirst [(⟨.begin, .ok ()⟩ : Exchange)] :=
      .of_single (List.forall_mem_singleton.2 nofun)
    exact hbegin.append (proceeds.locksFirst.append hends)
  case passes =>
    intro hcommitted
    refine (hpasses (hcommits.1 hcommitted)).mono ?_
    exact ((List.sublist_append_left statements [last]).cons _)

/-- A transaction whose body proceeds and makes its requests is one transaction of its call. -/
theorem TransactionLog.isTransaction {log : List Exchange}
    (transacts : TransactionLog (fun log result => ProceedsBy log (result.isOk = true) ∧
      (result.isOk = true → Passes write.milestones log)) log result) :
    write.IsTransaction log result := by
  cases transacts with
  | refused failure =>
      have hcommits : ¬∃ exchange ∈ ([⟨.begin, .error failure⟩] : List Exchange),
          exchange.request = .commit := by
        simp
      constructor
      case single => exact .inl ⟨failure, rfl⟩
      case commits_iff =>
        refine iff_of_false hcommits fun hall => ?_
        cases (hall _ List.mem_cons_self id).1
      case succeeds_iff => exact iff_of_false nofun fun hmem => hcommits ⟨_, hmem, rfl⟩
      case locksFirst => exact .of_single (List.forall_mem_singleton.2 nofun)
      case passes => exact fun hcommitted => absurd hcommitted hcommits
  | @committed statements value reply succeeded =>
      obtain ⟨proceeds, makes⟩ := succeeded
      refine .of_begun proceeds trivial (iff_of_true rfl rfl) ?_ makes
      cases reply with
      | error failure => exact iff_of_false nofun nofun
      | ok => exact iff_of_true ⟨value, rfl⟩ rfl
  | @rolledBack statements error failed =>
      obtain ⟨proceeds, makes⟩ := failed
      refine .of_begun proceeds trivial (iff_of_false nofun nofun) (iff_of_false nofun ?_) makes
      rintro ⟨⟩

end Transactions

/-- Whatever a connection replies, each call that writes several rows is one transaction: it commits
exactly if all calls to the database before were successes and a changed membership was found both
times, it succeeds exactly if the commit does, and the memberships of a user in a tenant are locked
before primary flags are withdrawn there. -/
theorem writes_are_transactions {σ : Type} (write : Write) (connection : Connection σ)
    (state : σ) : write.IsTransaction (write.session.log connection state)
      (write.session.result connection state) := by
  rw [write.session_eq]
  have converses := transaction_converses (write.proceeds.and write.makes)
  exact (converses.log_result connection state).isTransaction

end Sql
end Tenancy
