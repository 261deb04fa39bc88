import Tenancy.Proofs.KeyedRecords
import Tenancy.Proofs.Transcripts

/-!
# Tenancy - Deleted roles stay away

A role is stored by one call, and a delete succeeds only if the store confirms that
there was a role to delete.  Updates of a role that is gone are refused.  So if no two
roles of a run are created with one id, then a role that was deleted with success is
never stored again, whatever was on its way at the time.

Main definitions:

- `Exchange.createdRole?`, `Exchange.deletedRole?`: what an exchange says about a role.
- `Configuration.NeverReusesRoleIds`: no two roles were created with one id.
- `Configuration.hasDeleted`: a delete of a role has succeeded.

Main results:

- Theorem `Tables.count_role_perform`: calls store no more roles than they create.
- Theorem `Roles.delete_owes`: a delete that succeeds was confirmed.
- Theorem `Regime.Continues.role_gone`: in a run that never reuses a role id, a deleted
  role stays away.
-/

namespace Tenancy

/-! ## What exchanges say about roles -/

namespace Exchange

/-- The id of a role that was created. -/
def createdRole? : Exchange → Option String
  | ⟨.store (.roles (.create role)), .ok ()⟩ => some role.id
  | _ => none

/-- The id of a role that was there and was deleted. -/
def deletedRole? : Exchange → Option String
  | ⟨.store (.roles (.delete roleId)), .ok true⟩ => some roleId
  | _ => none

end Exchange

/-- No two roles of a run were created with the same id. -/
def Configuration.NeverReusesRoleIds (config : Configuration) : Prop :=
  (config.readings Exchange.createdRole?).Nodup

instance (config : Configuration) : Decidable config.NeverReusesRoleIds :=
  inferInstanceAs (Decidable (List.Nodup _))

/-! ## What the store answers -/

/-- After a call there are no more roles with an id, together with the one that was deleted, than
there were before, together with the one that was created. -/
theorem Tables.count_role_perform (tables : Tables) (call : Call) (roleId : String) :
    ((tables.perform call).2.roles.map (·.id)).count roleId +
        (Exchange.deletedRole? ⟨.store call, (tables.perform call).1⟩).toList.count roleId ≤
      (tables.roles.map (·.id)).count roleId +
        (Exchange.createdRole? ⟨.store call, (tables.perform call).1⟩).toList.count roleId := by
  cases call with
  | organizations | memberships | invitations | directory | catalog =>
      rw [perform_roles (by rintro _ ⟨⟩)]
      simp [Exchange.deletedRole?]
  | roles call =>
      cases call with
      | find | findMany | findByName | list | listAssignable | grantsOf =>
          simp [perform, performRole, Exchange.deletedRole?]
      | changeGrants added removedIds =>
          simp only [perform, performRole]
          split <;> simp [Exchange.deletedRole?]
      | create role =>
          simp only [perform, performRole]
          split
          · simp [Exchange.deletedRole?]
          · split
            · simp [Exchange.deletedRole?]
            · simp [Exchange.deletedRole?, Exchange.createdRole?, List.count_append]
      | update role =>
          simp only [perform, performRole]
          split
          · simp [Exchange.deletedRole?]
          · split
            · rename_i hstored
              have hid : role.id ∈ tables.roles.map (·.id) := by simpa using hstored
              have hkeys : (put (·.id) role tables.roles).map (·.id) = tables.roles.map (·.id) :=
                map_key_put hid
              simp [Exchange.deletedRole?, hkeys]
            · simp [Exchange.deletedRole?]
      | delete removed =>
          simp only [perform, performRole, count_key_filter]
          by_cases hid : removed = roleId
          · subst hid
            by_cases hfound : tables.roles.any (·.id == removed) = true
            · have hpositive : 0 < (tables.roles.map (·.id)).count removed := by
                simpa [List.count_pos_iff] using hfound
              simp [hfound, Exchange.deletedRole?]
              omega
            · simp [hfound, Exchange.deletedRole?]
          · cases hfound : tables.roles.any (·.id == removed) <;>
              simp [hid, Exchange.deletedRole?]

/-- An id that no stored role has is not found. -/
theorem Tables.find_role_eq_none {tables : Tables} {roleId : String}
    (hgone : roleId ∉ tables.roles.map (·.id)) : tables.roles.find? (·.id == roleId) = none := by
  simpa [List.find?_eq_none] using hgone

/-! ## Deletes that succeed -/

/-- Deleting a role is told that there was one before it succeeds. -/
theorem Roles.delete_owes (roleId : String) :
    (Roles.delete roleId).Owes (fun exchange => exchange.deletedRole? = some roleId)
      fun _ => False := by
  refine .andThen _ fun role => .andThen _ fun _ =>
    .ask (.roles (.delete roleId)) fun _ deleted _ => ?_
  cases deleted with
  | true => exact .inl rfl
  | false => exact .inr (.throw (.roleMissing roleId))

/-- Whether an operation has deleted a role with success. -/
def Task.hasDeleted (roleId : String) : Task → Bool
  | ⟨.deleteRole deleted, .done (.ok ())⟩ => deleted == roleId
  | _ => false

/-- Whether some operation has deleted a role with success. -/
def Configuration.hasDeleted (config : Configuration) (roleId : String) : Bool :=
  config.tasks.any (Task.hasDeleted roleId)

/-- A delete of a role that has succeeded was confirmed. -/
theorem Configuration.Recorded.mem_deletedRoles {config : Configuration} {roleId : String}
    (recorded : config.Recorded) (hdeleted : config.hasDeleted roleId = true) :
    roleId ∈ config.readings Exchange.deletedRole? := by
  obtain ⟨task, hmem, htask⟩ := List.any_eq_true.1 hdeleted
  obtain ⟨index, hindex⟩ := List.getElem?_of_mem hmem
  unfold Task.hasDeleted at htask
  split at htask
  · rename_i deleted
    obtain rfl : deleted = roleId := by simpa using htask
    obtain ⟨exchange, hexchange, hconfirmed⟩ := recorded.owed
      (fun _ => Roles.delete_owes deleted) hindex id
    exact List.mem_filterMap.2 ⟨_, mem_history_of_mem_transcriptOf hexchange, hconfirmed⟩
  · cases htask

/-! ## Roles in runs -/

section Runs

variable {regime : Regime} {world : World} {config before after : Configuration}

/-- With each id, no more roles are stored and have been deleted than were created. -/
theorem Regime.Reaches.count_role_le (starts : regime.Starts world)
    (reaches : regime.Reaches world config) (roleId : String) :
    (config.world.tables.roles.map (·.id)).count roleId +
        (config.readings Exchange.deletedRole?).count roleId ≤
      (config.readings Exchange.createdRole?).count roleId := by
  refine reaches.add_count_le (fun tables => (tables.roles.map (·.id)).count roleId)
    Exchange.createdRole? Exchange.deletedRole? roleId roleId ?_ (fun _ _ => rfl) ?_
  · simp [starts.noRecords.roles]
  · intro before effect
    cases effect with
    | store call => exact before.tables.count_role_perform call roleId
    | clock | freshId | randomBytes | note => rfl

/-- In a run that never reuses a role id, a role that was deleted is not stored. -/
theorem Regime.Reaches.role_gone (starts : regime.Starts world)
    (reaches : regime.Reaches world config) (fresh : config.NeverReusesRoleIds) {roleId : String}
    (hdeleted : roleId ∈ config.readings Exchange.deletedRole?) :
    roleId ∉ config.world.tables.roles.map (·.id) := by
  have hcount := reaches.count_role_le starts roleId
  have honce : (config.readings Exchange.createdRole?).count roleId ≤ 1 :=
    List.nodup_iff_count_le_one.1 fresh roleId
  have hone : 0 < (config.readings Exchange.deletedRole?).count roleId :=
    List.count_pos_iff.2 hdeleted
  exact List.count_eq_zero.1 (by omega)

/-- What was created before was created with different ids, if all that was created later was. -/
theorem Configuration.NeverReusesRoleIds.earlier (fresh : after.NeverReusesRoleIds)
    (continues : regime.Continues before after) : before.NeverReusesRoleIds :=
  List.Nodup.sublist (continues.readings_prefix Exchange.createdRole?).sublist fresh

/-- In a run that never reuses a role id, a role that was deleted with success stays away. -/
theorem Regime.Continues.role_gone (starts : regime.Starts world)
    (reaches : regime.Reaches world before) (continues : regime.Continues before after)
    (fresh : after.NeverReusesRoleIds) {roleId : String}
    (hdeleted : before.hasDeleted roleId = true) :
    roleId ∉ after.world.tables.roles.map (·.id) := by
  have hconfirmed := reaches.recorded.mem_deletedRoles hdeleted
  exact (reaches.onward continues).role_gone starts fresh
    ((continues.readings_prefix Exchange.deletedRole?).subset hconfirmed)

end Runs
end Tenancy
