import Mathlib.Data.List.Nodup
import Tenancy.Proofs.StoredRows

/-!
# Tenancy - Memberships put together from their rows

Memberships and role assignments are rows of two tables.  Reading memberships groups the
assignments by organization and user and hands each group to the membership of that key.
The grouping can go through an index that is filled once and from which a group is taken
when its membership comes; nothing is lost on the way, nothing is given twice, and nothing
crosses from one user or organization to another.

Main definitions:

- `Sql.AssignmentIndex`: assignments by key, with `ofList` to fill it and `drain` to take
  the groups out.
- `Sql.AssignmentIndex.Lists`: an index that holds a list of assignments in its order.
- `Sql.MemberRow`, `Sql.AssignmentRow`: what the rows of the two tables hold.

Main results:

- Theorem `Sql.AssignmentIndex.drain_ofList`: going through an index gives the same
  memberships.
- Theorem `Sql.assemble_roles_perm`: assignments that belong to memberships are given once, others
  never.
- Theorem `assembledMemberships_exact`: memberships have exactly the assignments of their
  keys, in their order.
-/

namespace Tenancy

namespace Sql

/-! ## Assignments by key -/

/-- Role assignments by the key of the membership they belong to. -/
abbrev AssignmentIndex := Std.HashMap (String × String) (List RoleAssignment)

namespace AssignmentIndex

/-- Add an assignment behind those of its key. -/
def add (index : AssignmentIndex) (assignment : RoleAssignment) : AssignmentIndex :=
  index.insert assignment.memberKey (index.getD assignment.memberKey [] ++ [assignment])

/-- The index of a list of assignments. -/
def ofList (assignments : List RoleAssignment) : AssignmentIndex :=
  assignments.foldl add ∅

/-- Go through memberships, taking the assignments of each out of the index. -/
def drain : AssignmentIndex → List Membership → List Membership
  | _, [] => []
  | index, member :: rest =>
    { member with roles := index.getD member.key [] } :: drain (index.erase member.key) rest

/-- The index holds under each key the assignments of that key, in the order of a list. -/
def Lists (index : AssignmentIndex) (assignments : List RoleAssignment) : Prop :=
  ∀ key, index.getD key [] = assignments.filter (·.memberKey == key)

variable {index : AssignmentIndex} {assignments : List RoleAssignment}

/-- An assignment that is added comes last in the list. -/
theorem Lists.add (lists : index.Lists assignments) (assignment : RoleAssignment) :
    (index.add assignment).Lists (assignments ++ [assignment]) := by
  intro key
  rw [AssignmentIndex.add, Std.HashMap.getD_insert, List.filter_append]
  by_cases hkey : assignment.memberKey = key <;> simp [hkey, lists key]

/-- Adding assignments one by one adds them to the list. -/
theorem Lists.foldl_add (lists : index.Lists assignments) (added : List RoleAssignment) :
    (added.foldl AssignmentIndex.add index).Lists (assignments ++ added) := by
  induction added generalizing index assignments with
  | nil => simpa using lists
  | cons assignment rest ih =>
      have hrest := ih (lists.add assignment)
      rwa [List.append_assoc, List.singleton_append] at hrest

/-- The index of a list holds that list. -/
theorem ofList_lists (assignments : List RoleAssignment) :
    (ofList assignments).Lists assignments := by
  have hempty : AssignmentIndex.Lists ∅ [] := fun key => Std.HashMap.getD_empty
  exact hempty.foldl_add assignments

/-- Taking out what a membership owns leaves the rest. -/
theorem Lists.erase (lists : index.Lists assignments) (member : Membership) :
    AssignmentIndex.Lists (index.erase member.key) (assignments.filter (!member.owns ·)) := by
  intro key
  rw [Std.HashMap.getD_erase, List.filter_filter]
  by_cases hkey : member.key = key
  · subst hkey
    simp [Membership.owns_eq]
  · rw [if_neg (by simpa using hkey), lists key]
    apply List.filter_congr
    intro assignment _
    by_cases hsame : assignment.memberKey = key
    · simp [Membership.owns_eq, hsame, Ne.symm hkey]
    · simp [hsame]

/-- Taking assignments out of an index puts them where the list it holds would. -/
theorem Lists.drain_eq (lists : index.Lists assignments) (members : List Membership) :
    index.drain members = assemble assignments members := by
  induction members generalizing index assignments with
  | nil => rfl
  | cons member rest ih =>
      rw [drain, assemble, lists member.key, ih (lists.erase member)]
      rfl

/-- Memberships that are put together through an index are the same. -/
theorem drain_ofList (assignments : List RoleAssignment) (members : List Membership) :
    (ofList assignments).drain members = assemble assignments members :=
  (ofList_lists assignments).drain_eq members

end AssignmentIndex

/-! ## Nothing lost, nothing twice -/

/-- Whether an assignment belongs to one of the memberships. -/
def isListed (members : List Membership) (assignment : RoleAssignment) : Bool :=
  (members.map Membership.key).contains assignment.memberKey

/-- An assignment belongs to the first of the memberships or to one of the others. -/
theorem isListed_cons (member : Membership) (rest : List Membership)
    (assignment : RoleAssignment) :
    isListed (member :: rest) assignment =
      (member.owns assignment || isListed rest assignment) := by
  rw [isListed, List.map_cons, List.contains_cons, Membership.owns_eq]
  rfl

/-- The assignments that belong to memberships are given to these, each once, and the others to
none; also if keys are repeated. -/
theorem assemble_roles_perm (assignments : List RoleAssignment) (members : List Membership) :
    ((assemble assignments members).flatMap (·.roles)).Perm
      (assignments.filter (isListed members)) := by
  induction members generalizing assignments with
  | nil => simp [assemble, isListed]
  | cons member rest ih =>
      have howned : (assignments.filter (isListed (member :: rest))).filter member.owns =
          assignments.filter member.owns := by
        rw [List.filter_filter]
        apply List.filter_congr
        intro assignment _
        rw [isListed_cons]
        cases member.owns assignment <;> rfl
      have hothers : (assignments.filter (isListed (member :: rest))).filter (!member.owns ·) =
          (assignments.filter (!member.owns ·)).filter (isListed rest) := by
        rw [List.filter_filter, List.filter_filter]
        apply List.filter_congr
        intro assignment _
        rw [isListed_cons]
        cases member.owns assignment <;> simp
      have hsplit :=
        List.filter_append_perm member.owns (assignments.filter (isListed (member :: rest)))
      rw [howned, hothers] at hsplit
      rw [assemble, List.flatMap_cons]
      exact ((ih _).append_left _).trans hsplit

/-! ## Rows -/

/-- What a row of the table of memberships holds. -/
structure MemberRow where
  organizationId : String
  userId : String
  tenantId : Option String
  isPrimary : Bool
  createdAt : Int
  updatedAt : Int

namespace MemberRow

/-- The row itself. -/
def row (stored : MemberRow) : Row :=
  Table.memberships.row
    [.text stored.organizationId, .text stored.userId, .option .text stored.tenantId,
      .bool stored.isPrimary, .int stored.createdAt, .int stored.updatedAt]

/-- The key of the membership. -/
def key (stored : MemberRow) : String × String :=
  (stored.organizationId, stored.userId)

/-- The membership with the fields of a row and the given roles; times before 1970 are zero. -/
def membership (stored : MemberRow) (roles : List RoleAssignment) : Membership :=
  { organizationId := stored.organizationId, userId := stored.userId
    tenantId := stored.tenantId, isPrimary := stored.isPrimary, roles := roles
    createdAt := stored.createdAt.toNat, updatedAt := stored.updatedAt.toNat }

/-- A row is read as the membership with its fields and no roles. -/
theorem ofRow_row (stored : MemberRow) :
    Membership.ofRow stored.row = .ok (stored.membership []) := by
  simp [Membership.ofRow, row, membership, Table.memberships, Table.row, Row.text, Row.text?,
    Row.bool, Row.time, Row.timeOf?, Row.cell, List.lookup_cons, bind, Except.bind, pure,
    Except.pure]

end MemberRow

/-- What a row of the table of role assignments holds. -/
structure AssignmentRow where
  organizationId : String
  userId : String
  roleId : String
  tenantId : Option String
  createdAt : Int

namespace AssignmentRow

/-- The row itself. -/
def row (stored : AssignmentRow) : Row :=
  Table.assignments.row
    [.text stored.organizationId, .text stored.userId, .text stored.roleId,
      .option .text stored.tenantId, .int stored.createdAt]

/-- The key of the membership that the assignment belongs to. -/
def key (stored : AssignmentRow) : String × String :=
  (stored.organizationId, stored.userId)

/-- The assignment with the fields of a row; a time before 1970 is zero. -/
def assignment (stored : AssignmentRow) : RoleAssignment :=
  { organizationId := stored.organizationId, userId := stored.userId, roleId := stored.roleId
    tenantId := stored.tenantId, createdAt := stored.createdAt.toNat }

/-- A row is read as the assignment with its fields. -/
theorem ofRow_row (stored : AssignmentRow) :
    RoleAssignment.ofRow stored.row = .ok stored.assignment := by
  simp [RoleAssignment.ofRow, row, assignment, Table.assignments, RoleAssignment.fieldNames,
    Table.row, Row.text, Row.text?, Row.time, Row.timeOf?, Row.cell, List.lookup_cons, bind,
    Except.bind, pure, Except.pure]

/-- The assignments with a property are those of the rows with it. -/
theorem filter_map_assignment (stored : List AssignmentRow) (passes : String × String → Bool) :
    (stored.map assignment).filter (fun assignment => passes assignment.memberKey) =
      (stored.filter (fun row => passes row.key)).map assignment :=
  List.filter_map

end AssignmentRow

/-- The assignments in the rows with the key of a membership row, in their order. -/
def MemberRow.assignments (stored : MemberRow) (assigned : List AssignmentRow) :
    List RoleAssignment :=
  (assigned.filter (·.key == stored.key)).map AssignmentRow.assignment

/-- The membership of a row owns the assignments in the rows with its key. -/
theorem MemberRow.filter_owns (stored : MemberRow) (assigned : List AssignmentRow) :
    (assigned.map AssignmentRow.assignment).filter (stored.membership []).owns =
      stored.assignments assigned :=
  AssignmentRow.filter_map_assignment assigned (· == stored.key)

end Sql

open Sql

/-- Rows of memberships with distinct keys and rows of role assignments in any order are read and
put together: each row of a membership becomes one membership, in the order of the rows and with the
fields of the row, and its roles are the assignments of its key, in their order.  Going through an
index that each membership takes its assignments from gives the same.  Altogether the memberships
have the assignments whose keys are among theirs, each once, and no others. -/
theorem assembledMemberships_exact {rows : List MemberRow} (assigned : List AssignmentRow)
    (distinct : (rows.map MemberRow.key).Nodup) :
    ∃ members assignments,
      (rows.map MemberRow.row).mapM Membership.ofRow = .ok members ∧
      (assigned.map AssignmentRow.row).mapM RoleAssignment.ofRow = .ok assignments ∧
      assemble assignments members =
        (rows.map fun row => row.membership (row.assignments assigned)) ∧
      (AssignmentIndex.ofList assignments).drain members = assemble assignments members ∧
      ((assemble assignments members).flatMap (·.roles)).Perm
        ((assigned.filter fun assignment =>
          (rows.map MemberRow.key).contains assignment.key).map AssignmentRow.assignment) := by
  refine ⟨_, _, mapM_ofRow MemberRow.ofRow_row rows, mapM_ofRow AssignmentRow.ofRow_row assigned,
    ?_, AssignmentIndex.drain_ofList _ _, ?_⟩
  · rw [assemble_of_distinct, List.map_map]
    · apply List.map_congr_left
      intro row _
      rw [← MemberRow.filter_owns]
      rfl
    · rwa [List.map_map]
  · have hkeys : (rows.map fun row => row.membership []).map Membership.key =
        rows.map MemberRow.key := List.map_map
    rw [← AssignmentRow.filter_map_assignment assigned (rows.map MemberRow.key).contains, ← hkeys]
    exact assemble_roles_perm _ _

/-- Two members of an organization, and the membership of the first in another one, written before
1970. -/
def Sql.MemberRow.sample : List MemberRow :=
  [⟨"a", "v", none, false, 4, 5⟩, ⟨"a", "u", none, true, 1, 2⟩, ⟨"b", "u", some "t", true, -3, -1⟩]

/-- Their role assignments in turns, and one of a user who is no member. -/
def Sql.AssignmentRow.sample : List AssignmentRow :=
  [⟨"a", "u", "s", none, 1⟩, ⟨"b", "u", "r", some "t", -3⟩, ⟨"b", "v", "r", some "t", 2⟩,
    ⟨"a", "u", "r", none, 2⟩]

/-- Assignments in turns: the first member has none, the second one both of its own, and the third
one its own, made before 1970. -/
theorem assembledMemberships_exact_in_turns :
    (MemberRow.sample.map MemberRow.key).Nodup ∧ ∃ members assignments,
      (MemberRow.sample.map MemberRow.row).mapM Membership.ofRow = .ok members ∧
      (AssignmentRow.sample.map AssignmentRow.row).mapM RoleAssignment.ofRow = .ok assignments ∧
      assemble assignments members =
        [⟨"a", "v", none, false, [], 4, 5⟩,
          ⟨"a", "u", none, true, [⟨"a", "u", "s", none, 1⟩, ⟨"a", "u", "r", none, 2⟩], 1, 2⟩,
          ⟨"b", "u", some "t", true, [⟨"b", "u", "r", some "t", 0⟩], 0, 0⟩] := by
  have distinct : (MemberRow.sample.map MemberRow.key).Nodup := by decide
  obtain ⟨members, assignments, hmembers, hassignments, hassembled, -⟩ :=
    assembledMemberships_exact AssignmentRow.sample distinct
  exact ⟨distinct, members, assignments, hmembers, hassignments, hassembled.trans (by decide)⟩

end Tenancy
