import Tenancy.Proofs.InvitationAcceptance

/-!
# Tenancy - What is stored after a write to a membership

A delta says which roles go and which come.  Applied to a membership, it leaves the
assignments that stay as they are, in their order, and adds the new ones at the end.  In
the store, the new membership stands under its key, and another one has changed only if
the write withdraws primary flags.

Main definitions:

- `Tables.Writes`: tables before and after a membership was written.

Main results:

- Theorem `Membership.reassign_eq_append`: the assignments after a delta.
- Theorem `Tables.writes_insert`, `Tables.writes_applyChange`: what the two kinds of
  writes store.
-/

namespace Tenancy

/-! ## Assignments in order -/

namespace Membership

/-- Assignments of different roles that are not held are added at the end as they are. -/
theorem foldl_assign_eq_append {kept added : List RoleAssignment}
    (hdistinct : (added.map (·.roleId)).Nodup)
    (hnew : ∀ assignment ∈ added, assignment.roleId ∉ kept.map (·.roleId)) :
    added.foldl assign kept = kept ++ added := by
  induction added generalizing kept with
  | nil => rw [List.foldl_nil, List.append_nil]
  | cons head rest ih =>
      obtain ⟨hhead, hrest⟩ := List.nodup_cons.1 hdistinct
      have hassign : assign kept head = kept ++ [head] := by
        refine if_neg fun hany => hnew head List.mem_cons_self ?_
        simpa using hany
      rw [List.foldl_cons, hassign, ih hrest, List.append_assoc, List.singleton_append]
      intro assignment hmem hheld
      rw [List.map_append, List.map_singleton, List.mem_append, List.mem_singleton] at hheld
      rcases hheld with hheld | hsame
      · exact hnew assignment (List.mem_cons_of_mem _ hmem) hheld
      · exact hhead (List.mem_map.2 ⟨assignment, hmem, hsame⟩)

/-- After a delta, the assignments that are not removed stay in their order, and added ones of
different roles that are not held come after them. -/
theorem reassign_eq_append {roles added : List RoleAssignment} {removedRoleIds : List String}
    (hdistinct : (added.map (·.roleId)).Nodup)
    (hnew : ∀ assignment ∈ added, assignment.roleId ∉ roles.map (·.roleId)) :
    reassign roles added removedRoleIds =
      roles.filter (!removedRoleIds.contains ·.roleId) ++ added := by
  refine foldl_assign_eq_append hdistinct fun assignment hmem hkept => hnew assignment hmem ?_
  exact List.map_subset _ (List.filter_subset_self _) hkept

variable {member : Membership} {wanted : List String}

/-- Of different wanted roles, different ones are missing. -/
theorem nodup_missingRoles (hwanted : wanted.Nodup) (org : Organization) (now : Nat) :
    ((member.missingRoles org wanted now).map (·.roleId)).Nodup := by
  have hids : (member.missingRoles org wanted now).map (·.roleId) =
      wanted.filter (!member.hasRole ·) := by
    simp [missingRoles, RoleAssignment.create, Function.comp_def]
  rw [hids]
  exact hwanted.filter _

/-- The missing roles are not held. -/
theorem missingRoles_not_held (org : Organization) (now : Nat) :
    ∀ assignment ∈ member.missingRoles org wanted now,
      assignment.roleId ∉ member.roles.map (·.roleId) := by
  intro assignment hmem
  exact (mem_roleIds_missingRoles.1 (List.mem_map_of_mem hmem)).2

/-- Adding what is missing keeps all assignments and their order. -/
theorem reassign_missing (hwanted : wanted.Nodup) (org : Organization) (now : Nat) :
    reassign member.roles (member.missingRoles org wanted now) [] =
      member.roles ++ member.missingRoles org wanted now := by
  rw [reassign_eq_append (nodup_missingRoles hwanted org now) (missingRoles_not_held org now)]
  simp

/-- Removing what is surplus and adding what is missing keeps the wanted assignments and their
order. -/
theorem reassign_wanted (hwanted : wanted.Nodup) (org : Organization) (now : Nat) :
    reassign member.roles (member.missingRoles org wanted now) (member.surplusRoles wanted) =
      member.roles.filter (wanted.contains ·.roleId) ++ member.missingRoles org wanted now := by
  rw [reassign_eq_append (nodup_missingRoles hwanted org now) (missingRoles_not_held org now)]
  congr 1
  refine List.filter_congr fun assignment hmem => ?_
  have hheld : assignment.roleId ∈ member.roleIds := List.mem_map_of_mem hmem
  rw [Bool.eq_iff_iff, Bool.not_eq_true', ← Bool.not_eq_true, List.contains_iff_mem,
    List.contains_iff_mem, surplusRoles, List.mem_filter, Bool.not_eq_true', ← Bool.not_eq_true,
    List.contains_iff_mem]
  tauto

end Membership

/-! ## Memberships in the store -/

namespace Tables

/-- The membership of a user in an organization was written: it is stored, `others` is what has
become of the other ones, and nothing else has changed but the number of writes. -/
structure Writes (before after : Tables) (organizationId userId : String) (member : Membership)
    (others : List Membership) : Prop where
  stored : after.memberships.find? (isMemberOf organizationId userId) = some member
  others : after.othersThan organizationId userId = others
  frame : after =
    { before with memberships := after.memberships, membershipWrites := after.membershipWrites }

variable {tables : Tables} {member : Membership}

/-- A membership that is stored already needs no write. -/
theorem writes_self {organizationId userId : String}
    (hfind : tables.memberships.find? (isMemberOf organizationId userId) = some member) :
    tables.Writes tables organizationId userId member
      (tables.othersThan organizationId userId) where
  stored := hfind
  others := rfl
  frame := rfl

/-- A new membership is stored beside the others. -/
theorem writes_insert
    (hfind : tables.memberships.find? (isMemberOf member.organizationId member.userId) = none) :
    tables.Writes (tables.perform (.memberships (.insert member false))).2 member.organizationId
      member.userId member (tables.othersThan member.organizationId member.userId) := by
  have hself : isMemberOf member.organizationId member.userId member = true := isMemberOf_iff.2 rfl
  rw [perform_insert hfind]
  refine ⟨?_, ?_, rfl⟩
  · simp only [Bool.false_eq_true, if_false]
    rw [List.find?_append, hfind, Option.none_or, List.find?_singleton, hself]
    rfl
  · simp only [othersThan, Bool.false_eq_true, if_false]
    rw [List.filter_append]
    simp [hself]

/-- Withdrawing primary flags commutes with setting one membership aside. -/
theorem filter_clearOthers (memberships : List Membership) (organizationId userId : String)
    (tenantId : Option String) (now : Nat) :
    (clearOthers memberships organizationId userId tenantId now).filter
        (!isMemberOf organizationId userId ·) =
      (memberships.filter (!isMemberOf organizationId userId ·)).map
        (Membership.withdrawPrimary organizationId userId tenantId now) := by
  rw [clearOthers, List.filter_map]
  congr 2
  funext other
  have hkey := Membership.withdrawPrimary_key organizationId userId tenantId now other
  rw [Function.comp_apply]
  congr 1
  rw [Bool.eq_iff_iff, isMemberOf_iff, isMemberOf_iff, hkey]

/-- A changed membership is stored in its place, and if the change clears others, their primary
flags are withdrawn. -/
theorem writes_applyChange {change : Membership.Change}
    (hfind : tables.memberships.find? (isMemberOf change.organizationId change.userId) =
      some member) :
    tables.Writes (tables.perform (.memberships (.applyChange change))).2 change.organizationId
      change.userId (member.applyChange change)
      (if change.clearsOthers then
        (tables.othersThan change.organizationId change.userId).map
          (Membership.withdrawPrimary change.organizationId change.userId member.tenantId
            change.updatedAt)
      else tables.othersThan change.organizationId change.userId) := by
  obtain ⟨-, hkey⟩ := find_isMemberOf hfind
  have hplace : ∀ other : Membership, isMemberOf change.organizationId change.userId other =
      (other.key == (member.applyChange change).key) := by
    intro other
    rw [Bool.eq_iff_iff, isMemberOf_iff, beq_iff_eq]
    exact ⟨fun hother => hother.trans hkey.symm, fun hother => hother.trans hkey⟩
  have hself : ∀ other : Membership, other.key = (member.applyChange change).key →
      (!isMemberOf change.organizationId change.userId other) = false := by
    intro other hother
    rw [hplace, hother, beq_self_eq_true, Bool.not_true]
  rw [perform_applyChange hfind]
  refine ⟨?_, ?_, rfl⟩
  · rw [funext hplace]
    exact find_put Membership.key (member.applyChange change) _
  · refine (filter_put (!isMemberOf change.organizationId change.userId ·) (hself _ rfl) _
      fun other _ hother => hself other hother).trans ?_
    split
    · exact filter_clearOthers _ _ _ _ _
    · rfl

end Tables
end Tenancy
