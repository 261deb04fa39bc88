import Tenancy.Proofs.JsonTexts
import Tenancy.Sql.Rows

/-!
# Tenancy - Records read back from rows

A record that is written into a row is read back from it, whatever it holds.  Only times
may differ: a time beyond the signed range is read back as the latest time in it.
Memberships and their role assignments are rows of their own; put together again they are
the memberships that were written.

Main definitions:

- `Sql.storedTime`: the time that is read back for a time.
- `RowFormat`: a table with the ways into its rows and back.
- `RowFormat.ReadsBack`: records are read back with their times as stored.
- `Organization.rowFormat` and its siblings: the formats of the records.

Main results:

- Theorem `Organization.readsBack` and its siblings: each format reads back.
- Theorems `Organization.Status.parse_eq_some_iff`, `AuditEvent.named_eq_some_iff`: statuses and
  events are read from the names that are written for them.
- Theorem `Sql.assemble_of_distinct`: assignments find their memberships.
- Theorem `records_read_back`: all records are read back.
-/

namespace Tenancy
namespace Sql

/-! ## Cells -/

/-- The time that is read back for a time that was stored. -/
def storedTime (time : Nat) : Nat :=
  min time maxSigned64

/-- A time in the signed range is stored as it is. -/
theorem storedTime_of_le {time : Nat} (hle : time ≤ maxSigned64) : storedTime time = time :=
  Nat.min_eq_left hle

namespace Row

@[simp]
theorem textOf_text (value : String) : textOf? (.text value) = some value :=
  rfl

@[simp]
theorem textOf_option (value : Option String) :
    orNull textOf? (.option .text value) = some value := by
  cases value <;> rfl

@[simp]
theorem boolOf_bool (value : Bool) : boolOf? (.bool value) = some value :=
  rfl

@[simp]
theorem timeOf_time (time : Nat) : timeOf? (.time time) = some (storedTime time) := by
  simp only [Value.time, timeOf?, storedTime, Option.some.injEq]
  omega

@[simp]
theorem timeOf_option (time : Option Nat) :
    orNull timeOf? (.option .time time) = some (time.map storedTime) := by
  cases time with
  | none => rfl
  | some time =>
      simp only [Value.option, Value.time, orNull, timeOf?, storedTime, Option.map_some,
        Option.some.injEq]
      omega

end Row

/-! ## Formats -/

/-- A table with the ways of records into its rows and back. -/
structure RowFormat (α : Type) where
  table : Table
  cells : α → List Value
  ofRow : Row → Except StoreError α
  /-- The times that a record holds. -/
  times : α → List Nat
  /-- The record with its times changed and the rest as it is. -/
  mapTimes : (Nat → Nat) → α → α
  mapTimes_eq : ∀ {change : Nat → Nat} {record : α},
    (∀ time ∈ times record, change time = time) → mapTimes change record = record

variable {α : Type}

/-- Every record is read back with its times as stored, and as it was if its times are in the signed
range. -/
def RowFormat.ReadsBack (format : RowFormat α) : Prop :=
  ∀ record,
    format.ofRow (format.table.row (format.cells record)) =
        .ok (format.mapTimes storedTime record) ∧
      ((∀ time ∈ format.times record, time ≤ maxSigned64) →
        format.ofRow (format.table.row (format.cells record)) = .ok record)

/-- Records that are read back with their times as stored are read back. -/
theorem RowFormat.readsBack_of_ofRow {format : RowFormat α}
    (hread : ∀ record, format.ofRow (format.table.row (format.cells record)) =
      .ok (format.mapTimes storedTime record)) : format.ReadsBack := by
  intro record
  refine ⟨hread record, fun hle => ?_⟩
  rw [hread, format.mapTimes_eq fun time htime => storedTime_of_le (hle time htime)]

/-- Reading all rows returns what reading each of them returns. -/
theorem mapM_ofRow {β : Type} {ofRow : Row → Except StoreError β} {toRow : α → Row} {found : α → β}
    (hread : ∀ record, ofRow (toRow record) = .ok (found record)) (records : List α) :
    (records.map toRow).mapM ofRow = .ok (records.map found) := by
  induction records with
  | nil => rfl
  | cons record rest ih =>
      rw [List.map_cons, List.mapM_cons, ih, hread record]
      rfl

/-! ## Names -/

/-- A value that is found by its own name is found by no other text. -/
theorem find_name_eq_some_iff {values : List α} {name : α → String}
    (hfound : ∀ value, values.find? (name · == name value) = some value) {text : String}
    {value : α} : values.find? (name · == text) = some value ↔ text = name value := by
  constructor
  · intro hvalue
    have hname := List.find?_some hvalue
    exact (eq_of_beq hname).symm
  · rintro rfl
    exact hfound value

end Sql

open Sql

namespace Organization.Status

/-- A status has the same name in tables and in JSON. -/
theorem jsonName_eq (status : Status) : status.jsonName = status.name := by
  cases status <;> decide

/-- A text in JSON is read as a status exactly if it is the name of that status. -/
theorem named_eq_some_iff {text : String} {status : Status} :
    named? text = some status ↔ text = status.name := by
  simp only [named?, jsonName_eq]
  exact find_name_eq_some_iff fun status => by cases status <;> decide

/-- A text in a table is read as a status exactly if its lowercase is the name of that status. -/
theorem parse_eq_some_iff {raw : String} {status : Status} :
    parse raw = some status ↔ Text.lowercase raw = status.name := by
  unfold parse
  split
  · next hactive => cases status <;> simp [name, hactive]
  · next harchived => cases status <;> simp [name, harchived]
  · next hactive harchived =>
      cases status with
      | active => simpa [name] using hactive
      | archived => simpa [name] using harchived

/-- The names of statuses are in lowercase. -/
theorem lowercase_name (status : Status) : Text.lowercase status.name = status.name := by
  cases status <;> decide +kernel

end Organization.Status

namespace AuditEvent

/-- An event has the same name in tables and in JSON. -/
theorem jsonName_eq (event : AuditEvent) : event.jsonName = event.name := by
  cases event <;> decide

/-- A text in JSON or in a table is read as an event exactly if it is the name of that event. -/
theorem named_eq_some_iff {text : String} {event : AuditEvent} :
    named? text = some event ↔ text = event.name := by
  simp only [named?, jsonName_eq]
  exact find_name_eq_some_iff fun event => by cases event <;> decide

end AuditEvent

/-! ## Roles -/

/-- The rows of roles. -/
def Role.rowFormat : RowFormat Role where
  table := Table.roles
  cells := Role.cells
  ofRow := Role.ofRow
  times role := [role.createdAt, role.updatedAt]
  mapTimes change role :=
    { role with createdAt := change role.createdAt, updatedAt := change role.updatedAt }
  mapTimes_eq {_ role} hkept := by
    simp only [hkept role.createdAt (by simp), hkept role.updatedAt (by simp)]

/-- Roles are read back. -/
theorem Role.readsBack : Role.rowFormat.ReadsBack := by
  refine RowFormat.readsBack_of_ofRow fun role => ?_
  simp [rowFormat, ofRow, Table.roles, fieldNames, Table.row, cells, Row.text, Row.text?, Row.bool,
    Row.time, Row.cell, List.lookup_cons, bind, Except.bind, pure, Except.pure]

/-! ## Organizations -/

/-- A status is read back from its name. -/
theorem Organization.storedStatus_name (id : String) (status : Status) :
    storedStatus id status.name = .ok status := by
  rw [storedStatus, Status.parse_eq_some_iff.2 status.lowercase_name]

/-- Metadata are read back from their text. -/
theorem Organization.storedMetadata_encoded (id : String) (metadata : Metadata) :
    storedMetadata id metadata.encoded = .ok metadata := by
  rw [storedMetadata, Metadata.ofJson_encoded]

/-- The rows of organizations. -/
def Organization.rowFormat : RowFormat Organization where
  table := Table.organizations
  cells := Organization.cells
  ofRow := Organization.ofRow
  times org := [org.createdAt, org.updatedAt] ++ org.archivedAt.toList
  mapTimes change org :=
    { org with
      createdAt := change org.createdAt
      updatedAt := change org.updatedAt
      archivedAt := org.archivedAt.map change }
  mapTimes_eq {change org} hkept := by
    have harchived : org.archivedAt.map change = org.archivedAt := by
      cases harchived : org.archivedAt with
      | none => rfl
      | some time => rw [Option.map_some, hkept time (by simp [harchived])]
    simp only [hkept org.createdAt (by simp), hkept org.updatedAt (by simp), harchived]

/-- Organizations are read back. -/
theorem Organization.readsBack : Organization.rowFormat.ReadsBack := by
  refine RowFormat.readsBack_of_ofRow fun org => ?_
  simp [rowFormat, ofRow, Table.organizations, fieldNames, Table.row, cells, Row.text, Row.text?,
    Row.time, Row.time?, Row.cell, List.lookup_cons, storedStatus_name, storedMetadata_encoded,
    bind, Except.bind, pure, Except.pure]

/-! ## Invitations -/

/-- Invited roles are read back from their text. -/
theorem Invitation.storedRoleIds_render (roleIds : List String) :
    storedRoleIds (roleIdsJson roleIds).render = .ok roleIds := by
  rw [storedRoleIds, Invitation.roleIds_encoded]

/-- The rows of invitations. -/
def Invitation.rowFormat : RowFormat Invitation where
  table := Table.invitations
  cells := Invitation.cells
  ofRow := Invitation.ofRow
  times invitation := [invitation.createdAt, invitation.expiresAt]
  mapTimes change invitation :=
    { invitation with
      createdAt := change invitation.createdAt
      expiresAt := change invitation.expiresAt }
  mapTimes_eq {_ invitation} hkept := by
    simp only [hkept invitation.createdAt (by simp), hkept invitation.expiresAt (by simp)]

/-- Invitations are read back. -/
theorem Invitation.readsBack : Invitation.rowFormat.ReadsBack := by
  refine RowFormat.readsBack_of_ofRow fun invitation => ?_
  simp [rowFormat, ofRow, Table.invitations, fieldNames, Table.row, cells, Row.text, Row.time,
    Row.cell, List.lookup_cons, storedRoleIds_render, bind, Except.bind, pure, Except.pure]

/-! ## Audit entries -/

/-- An event is read back from its name. -/
theorem AuditEntry.storedEvent_name (event : AuditEvent) : storedEvent event.name = .ok event := by
  rw [storedEvent, AuditEvent.named_eq_some_iff.2 rfl]

/-- The rows of audit entries. -/
def AuditEntry.rowFormat : RowFormat AuditEntry where
  table := Table.audit
  cells := AuditEntry.cells
  ofRow := AuditEntry.ofRow
  times entry := [entry.timestamp]
  mapTimes change entry := { entry with timestamp := change entry.timestamp }
  mapTimes_eq {_ entry} hkept := by
    simp only [hkept entry.timestamp (by simp)]

/-- Audit entries are read back. -/
theorem AuditEntry.readsBack : AuditEntry.rowFormat.ReadsBack := by
  refine RowFormat.readsBack_of_ofRow fun entry => ?_
  simp [rowFormat, ofRow, Table.audit, fieldNames, Table.row, cells, Row.text, Row.text?, Row.time,
    Row.cell, List.lookup_cons, storedEvent_name, bind, Except.bind, pure, Except.pure]

/-! ## Memberships -/

/-- The rows of role assignments. -/
def RoleAssignment.rowFormat : RowFormat RoleAssignment where
  table := Table.assignments
  cells := RoleAssignment.cells
  ofRow := RoleAssignment.ofRow
  times assignment := [assignment.createdAt]
  mapTimes change assignment := { assignment with createdAt := change assignment.createdAt }
  mapTimes_eq {_ assignment} hkept := by
    simp only [hkept assignment.createdAt (by simp)]

/-- Role assignments are read back. -/
theorem RoleAssignment.readsBack : RoleAssignment.rowFormat.ReadsBack := by
  refine RowFormat.readsBack_of_ofRow fun assignment => ?_
  simp [rowFormat, ofRow, Table.assignments, fieldNames, Table.row, cells, Row.text, Row.text?,
    Row.time, Row.cell, List.lookup_cons, bind, Except.bind, pure, Except.pure]

/-- A membership is read back without its roles. -/
theorem Membership.ofRow_row (member : Membership) :
    ofRow (Table.memberships.row member.cells) =
      .ok { member with
        roles := []
        createdAt := storedTime member.createdAt
        updatedAt := storedTime member.updatedAt } := by
  simp [ofRow, Table.memberships, Table.row, cells, Row.text, Row.text?, Row.bool, Row.time,
    Row.cell, List.lookup_cons, bind, Except.bind, pure, Except.pure]

/-- The key of the membership that an assignment belongs to. -/
def RoleAssignment.memberKey (assignment : RoleAssignment) : String × String :=
  (assignment.organizationId, assignment.userId)

/-- A member owns the assignments with its key. -/
theorem Membership.owns_eq (member : Membership) (assignment : RoleAssignment) :
    member.owns assignment = (assignment.memberKey == member.key) :=
  rfl

/-- Leaving out what one member owns leaves all that another one owns. -/
theorem Membership.filter_owns_of_ne {member other : Membership} (hother : other.key ≠ member.key)
    (assignments : List RoleAssignment) :
    (assignments.filter (!member.owns ·)).filter other.owns = assignments.filter other.owns := by
  rw [List.filter_filter]
  apply List.filter_congr
  intro assignment _
  rw [Bool.and_eq_left_iff_imp, Bool.not_eq_true', owns_eq, owns_eq, beq_iff_eq,
    beq_eq_false_iff_ne]
  intro howner
  rwa [howner]

/-- Assignments find their memberships if these have distinct keys. -/
theorem Sql.assemble_of_distinct {members : List Membership}
    (distinct : (members.map Membership.key).Nodup) (assignments : List RoleAssignment) :
    assemble assignments members =
      members.map fun member => { member with roles := assignments.filter member.owns } := by
  induction members generalizing assignments with
  | nil => rfl
  | cons head rest ih =>
      rw [List.map_cons, List.nodup_cons] at distinct
      rw [assemble, List.map_cons, ih distinct.2]
      congr 1
      apply List.map_congr_left
      intro member hmember
      have hother : member.key ≠ head.key := fun hsame =>
        distinct.1 (hsame ▸ List.mem_map_of_mem hmember)
      rw [Membership.filter_owns_of_ne hother]

namespace Membership

/-- The times of a membership and of its role assignments. -/
def times (member : Membership) : List Nat :=
  [member.createdAt, member.updatedAt] ++ member.roles.map (·.createdAt)

/-- The membership with these times changed. -/
def mapTimes (change : Nat → Nat) (member : Membership) : Membership :=
  { member with
    roles := member.roles.map (RoleAssignment.rowFormat.mapTimes change)
    createdAt := change member.createdAt
    updatedAt := change member.updatedAt }

/-- A change that keeps the times keeps the membership. -/
theorem mapTimes_eq {change : Nat → Nat} {member : Membership}
    (hkept : ∀ time ∈ member.times, change time = time) : member.mapTimes change = member := by
  have hrole : ∀ assignment ∈ member.roles,
      RoleAssignment.rowFormat.mapTimes change assignment = assignment := by
    intro assignment hmem
    apply RoleAssignment.rowFormat.mapTimes_eq
    intro time htime
    rw [List.mem_singleton.1 htime]
    exact hkept _ (List.mem_append_right _ (List.mem_map_of_mem hmem))
  have hroles : member.roles.map (RoleAssignment.rowFormat.mapTimes change) = member.roles :=
    (List.map_congr_left hrole).trans (List.map_id _)
  simp only [mapTimes, hroles, hkept member.createdAt (by simp [times]),
    hkept member.updatedAt (by simp [times])]

/-- Memberships and assignments are all read back and put together again. -/
theorem assemble_rows {members : List Membership} {assignments : List RoleAssignment}
    (distinct : (members.map Membership.key).Nodup)
    (owned : ∀ member ∈ members, assignments.filter member.owns = member.roles) :
    ∃ rows assigned,
      (members.map fun member => Table.memberships.row member.cells).mapM ofRow = .ok rows ∧
      (assignments.map fun assignment => Table.assignments.row assignment.cells).mapM
        RoleAssignment.ofRow = .ok assigned ∧
      assemble assigned rows = members.map (mapTimes storedTime) := by
  have hassigned : ∀ assignment, RoleAssignment.ofRow (Table.assignments.row assignment.cells) =
      .ok (RoleAssignment.rowFormat.mapTimes storedTime assignment) :=
    fun assignment => (RoleAssignment.readsBack assignment).1
  refine ⟨_, _, mapM_ofRow ofRow_row members, mapM_ofRow hassigned assignments, ?_⟩
  rw [assemble_of_distinct, List.map_map]
  · apply List.map_congr_left
    intro member hmember
    -- Assignments keep their owners when they are read back.
    have howners : (assignments.map (RoleAssignment.rowFormat.mapTimes storedTime)).filter
        member.owns =
          (assignments.filter member.owns).map (RoleAssignment.rowFormat.mapTimes storedTime) := by
      rw [List.filter_map]
      rfl
    rw [owned member hmember] at howners
    rw [mapTimes, ← howners]
    rfl
  · rw [List.map_map]
    exact distinct

end Membership

/-- Every record that is written into a row is read back from it, and never as an error.  Times
beyond the signed range are read back as the latest time in it, and all else as it was: of
organizations with any metadata, invitations with any roles, roles and audit entries, and of
memberships with distinct keys that are put together with their role assignments, in whatever order
the assignments of different members come. -/
theorem records_read_back :
    Organization.rowFormat.ReadsBack ∧ Invitation.rowFormat.ReadsBack ∧
      Role.rowFormat.ReadsBack ∧ AuditEntry.rowFormat.ReadsBack ∧
      ∀ (members : List Membership) (assignments : List RoleAssignment),
        (members.map Membership.key).Nodup →
        (∀ member ∈ members, assignments.filter member.owns = member.roles) →
        ∃ rows assigned,
          (members.map fun member => Table.memberships.row member.cells).mapM Membership.ofRow =
            .ok rows ∧
          (assignments.map fun assignment => Table.assignments.row assignment.cells).mapM
            RoleAssignment.ofRow = .ok assigned ∧
          assemble assigned rows = members.map (Membership.mapTimes storedTime) ∧
          ((∀ member ∈ members, ∀ time ∈ member.times, time ≤ maxSigned64) →
            assemble assigned rows = members) := by
  refine ⟨Organization.readsBack, Invitation.readsBack, Role.readsBack, AuditEntry.readsBack, ?_⟩
  intro members assignments distinct owned
  obtain ⟨rows, assigned, hrows, hassigned, hassembled⟩ :=
    Membership.assemble_rows distinct owned
  refine ⟨rows, assigned, hrows, hassigned, hassembled, fun hle => ?_⟩
  rw [hassembled]
  refine (List.map_congr_left fun member hmember => ?_).trans (List.map_id _)
  exact Membership.mapTimes_eq fun time htime => storedTime_of_le (hle member hmember time htime)

/-- Two members of an organization, the first with a role assigned at a time. -/
def Membership.pair (assignedAt : Nat) : List Membership :=
  [{ organizationId := "a", userId := "u", tenantId := none, isPrimary := true
     roles := [⟨"a", "u", "r", none, 2⟩, ⟨"a", "u", "s", none, assignedAt⟩]
     createdAt := 1, updatedAt := 2 },
    { organizationId := "a", userId := "v", tenantId := none, isPrimary := false
      roles := [⟨"a", "v", "r", none, 3⟩], createdAt := 3, updatedAt := 3 }]

/-- Their role assignments in turns. -/
def RoleAssignment.inTurns (assignedAt : Nat) : List RoleAssignment :=
  [⟨"a", "u", "r", none, 2⟩, ⟨"a", "v", "r", none, 3⟩, ⟨"a", "u", "s", none, assignedAt⟩]

/-- Members whose assignments come in turns, one of them made later than can be stored; and an
invitation to roles with quotes and control characters in their ids. -/
theorem records_read_back_in_turns :
    (∃ rows assigned,
      ((Membership.pair maxWord64).map fun member =>
        Table.memberships.row member.cells).mapM Membership.ofRow = .ok rows ∧
      ((RoleAssignment.inTurns maxWord64).map fun assignment =>
        Table.assignments.row assignment.cells).mapM RoleAssignment.ofRow = .ok assigned ∧
      assemble assigned rows = Membership.pair maxSigned64) ∧
    ∃ invitation, invitation.roleIds = ["\"", "\u0001", "\\u0001"] ∧
      Invitation.ofRow (Table.invitations.row invitation.cells) = .ok invitation := by
  obtain ⟨-, hinvitations, -, -, hmembers⟩ := records_read_back
  constructor
  · obtain ⟨rows, assigned, hrows, hassigned, hassembled, -⟩ :=
      hmembers (Membership.pair maxWord64) (RoleAssignment.inTurns maxWord64) (by decide)
        (by decide)
    exact ⟨rows, assigned, hrows, hassigned, hassembled.trans (by decide)⟩
  · exact ⟨{ (default : Invitation) with roleIds := ["\"", "\u0001", "\\u0001"] }, rfl,
      (hinvitations _).2 (by decide)⟩

end Tenancy
