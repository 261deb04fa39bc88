import Tenancy.Proofs.GrantScopes
import Tenancy.Proofs.RunWrites

/-!
# Tenancy - Writing the difference

Once it is known which permissions a role shall be granted at a scope, the grants
there are compared with them.  Missing permissions get new grants, surplus grants are
removed, and both are one write to the store.  Without a difference the store is not
written at all.

Main definitions:

- `Roles.settle`, `Roles.writeDelta`: the parts of setting permissions that compare and
  write.
- `Roles.surplusIds`: the grants that are to be removed.

Main results:

- Theorem `Roles.keepWanted_eq`: how the grants at a scope are sorted.
- Theorem `Roles.writeDelta_ends`: a difference is one write.
- Theorem `Roles.settle_settles`: settling replaces the grants at the scope by at most
  one write.
-/

namespace Tenancy

/-! ## Keeping what is wanted -/

/-- Of grants that give different permissions, those of wanted permissions are kept and the others
removed. -/
theorem Roles.keepWanted_eq (wanted : List String) {kept : List String} {grants : List Grant}
    (hdistinct : (grants.map (·.permissionId)).Nodup)
    (hnew : ∀ grant ∈ grants, grant.permissionId ∉ kept) :
    Roles.keepWanted wanted kept grants =
      (((grants.filter (wanted.contains ·.permissionId)).map (·.permissionId)).reverse ++ kept,
        (grants.filter (!wanted.contains ·.permissionId)).map (·.id)) := by
  induction grants generalizing kept with
  | nil => rfl
  | cons grant rest ih =>
      rw [List.map_cons, List.nodup_cons] at hdistinct
      have hrest : ∀ other ∈ rest, other.permissionId ∉ kept :=
        fun other hmem => hnew other (List.mem_cons_of_mem _ hmem)
      have hunseen : grant.permissionId ∉ kept := hnew grant List.mem_cons_self
      by_cases hwanted : grant.permissionId ∈ wanted
      · have hothers : ∀ other ∈ rest, other.permissionId ∉ grant.permissionId :: kept := by
          intro other hmem hseen
          rcases List.mem_cons.1 hseen with heq | hseen
          · exact hdistinct.1 (heq ▸ List.mem_map_of_mem hmem)
          · exact hrest other hmem hseen
        simp [Roles.keepWanted, hwanted, hunseen, ih hdistinct.2 hothers]
      · simp [Roles.keepWanted, hwanted, ih hdistinct.2 hrest]

/-! ## Replacing grants in a run -/

namespace Roles

/-- Give a role permissions at a scope that it misses there and remove grants, if there are any. -/
def writeDelta (role : Role) (scope tenantId : Option String) (missing removedIds : List String) :
    Action Unit := do
  let added ← newGrants role scope tenantId missing
  if added.isEmpty && removedIds.isEmpty then pure ()
  else
    Action.ask (.roles (.changeGrants added removedIds))
    Action.note
      { event := .rolePermissionsUpdated, organizationId := scope, actorId := none
        targetId := some role.id
        details := some ("added=" ++ toString added.length ++ ",removed=" ++
          toString removedIds.length) }

/-- What is left of setting permissions once the names are resolved: the grants at the scope are
read, and the difference is written. -/
def settle (role : Role) (scope tenantId : Option String) (wanted : List String) :
    Action Unit := do
  let grants ← Action.ask (.roles (.grantsOf [role.id]))
  let (kept, removedIds) := keepWanted wanted [] (grants.filter (isGrantAt role scope tenantId))
  writeDelta role scope tenantId (wanted.filter (!kept.contains ·)) removedIds

/-- Setting permissions is loading the role and the scope, resolving the names and settling. -/
theorem setPermissions_eq (roleId : String) (scope : Option String) (names : List String) :
    setPermissions roleId scope names = (do
      let role ← load roleId
      let tenantId ← scopeTenant role roleId scope
      let wanted ← wantedIds (Permission.normalize names)
      settle role scope tenantId wanted) :=
  rfl

variable {world : World} {role : Role} {scope tenantId : Option String}

/-- New grants are made for the permissions in order, with fresh ids. -/
theorem newGrants_ends (role : Role) (scope tenantId : Option String) (permissionIds : List String)
    (world : World) :
    ∃ added after, (newGrants role scope tenantId permissionIds).Ends world (.ok added) after [] ∧
      after.tables = world.tables ∧ added.map (·.permissionId) = permissionIds ∧
      ∀ grant ∈ added, grant.roleId = role.id ∧ grant.organizationId = scope ∧
        grant.tenantId = tenantId := by
  induction permissionIds generalizing world with
  | nil => exact ⟨[], world, .pure [] world, rfl, rfl, by simp⟩
  | cons permissionId rest ih =>
      obtain ⟨others, after, hends, htables, hpermissions, hothers⟩ := ih world.drawId.2
      have hid : Action.freshId.Ends world (.ok world.drawId.1) world.drawId.2 [] := ⟨rfl, rfl⟩
      refine ⟨_, after, hid.bind (hends.bind (.pure _ after)), htables, ?_, ?_⟩
      · rw [List.map_cons, hpermissions]
      · intro grant hmem
        rcases List.mem_cons.1 hmem with rfl | hmem
        · exact ⟨rfl, rfl, rfl⟩
        · exact hothers grant hmem

/-- The grants that settling looks at are those at the scope. -/
theorem filter_isGrantAt (sound : world.tables.IsSoundAt role.id scope tenantId) :
    (world.tables.grants.filter ([role.id].contains ·.roleId)).filter
      (isGrantAt role scope tenantId) = world.tables.grantsAt role.id scope := by
  rw [List.filter_filter, Tables.grantsAt]
  refine List.filter_congr fun grant hmem => ?_
  by_cases hat : grant.roleId = role.id ∧ grant.organizationId = scope
  · have htenant := sound.tenants grant (Tables.mem_grantsAt.2 ⟨hmem, hat⟩)
    simp [isGrantAt, hat, Grant.visibleToTenant, htenant]
  · rw [Bool.eq_iff_iff]
    simp only [isGrantAt, Bool.and_eq_true, beq_iff_eq]
    tauto

/-- The wanted permissions of which none is kept are the missing ones. -/
theorem filter_not_kept (tables : Tables) (roleId : String) (scope : Option String)
    (wanted : List String) :
    wanted.filter (fun permissionId =>
      !((((tables.grantsAt roleId scope).filter fun grant : Grant =>
        wanted.contains grant.permissionId).map fun grant : Grant =>
          grant.permissionId).reverse ++ []).contains permissionId) =
      tables.missingAt roleId scope wanted := by
  refine List.filter_congr fun permissionId hwanted => ?_
  refine congrArg not ?_
  rw [Bool.eq_iff_iff, List.append_nil, List.contains_iff_mem, List.contains_iff_mem,
    List.mem_reverse, Tables.assignedAt, List.mem_map, List.mem_map]
  constructor
  · rintro ⟨grant, hmem, rfl⟩
    exact ⟨grant, List.mem_of_mem_filter hmem, rfl⟩
  · rintro ⟨grant, hmem, rfl⟩
    exact ⟨grant, List.mem_filter.2 ⟨hmem, List.contains_iff_mem.2 hwanted⟩, rfl⟩

/-- The ids of the grants of a role at a scope that give no wanted permission. -/
def surplusIds (tables : Tables) (roleId : String) (scope : Option String) (wanted : List String) :
    List String :=
  ((tables.grantsAt roleId scope).filter (!wanted.contains ·.permissionId)).map (·.id)

/-- Settling looks at the grants at the scope and writes what separates them from the wanted
permissions. -/
theorem settle_ends (sound : world.tables.IsSoundAt role.id scope tenantId) {wanted : List String}
    {result : Except Error Unit} {after : World} {writes : List Effect}
    (hdelta : (writeDelta role scope tenantId (world.tables.missingAt role.id scope wanted)
      (surplusIds world.tables role.id scope wanted)).Ends world result after writes) :
    (settle role scope tenantId wanted).Ends world result after writes := by
  have hgrants : (Action.ask (.roles (.grantsOf [role.id]))).Ends world
      (.ok (world.tables.grants.filter ([role.id].contains ·.roleId))) world [] :=
    .ofUses (.ask rfl) (Action.runIn_read rfl rfl)
  refine hgrants.bind ?_
  rw [filter_isGrantAt sound, keepWanted_eq wanted sound.distinct (by simp)]
  dsimp only
  rw [filter_not_kept]
  exact hdelta

/-- Without a difference, nothing is written. -/
theorem writeDelta_ends_idle {missing removedIds : List String} (role : Role)
    (scope tenantId : Option String) (world : World) (hmissing : missing = [])
    (hremoved : removedIds = []) :
    (writeDelta role scope tenantId missing removedIds).Ends world (.ok ()) world [] := by
  subst hmissing hremoved
  exact ⟨rfl, rfl⟩

/-- Changing grants and leaving a note is one write. -/
theorem changeGrants_ends (added : List Grant) (removedIds : List String) (note : AuditNote)
    (world : World) :
    ∃ result after,
      (do Action.ask (.roles (.changeGrants added removedIds)); Action.note note :
        Action Unit).Ends world result after [.store (.roles (.changeGrants added removedIds))] ∧
      (result = .ok () → ∃ grants,
        Tables.addGrants (world.tables.grants.filter (!removedIds.contains ·.id)) added =
          some grants ∧
        after.tables = { world.tables with
          grants := grants, grantWrites := world.tables.grantWrites + 1 }) := by
  have hwrite : (Action.ask (.roles (.changeGrants added removedIds))).Ends world _ _ _ :=
    .write rfl world
  cases hadd : Tables.addGrants (world.tables.grants.filter (!removedIds.contains ·.id)) added with
  | none =>
      have hperform : world.tables.perform (.roles (.changeGrants added removedIds)) =
          (.error (.conflict "role permission already granted at this scope"), world.tables) := by
        simp only [Tables.perform, Tables.performRole, hadd]
      rw [hperform] at hwrite
      refine ⟨_, _, hwrite.bind_error _, ?_⟩
      rintro ⟨⟩
  | some grants =>
      have hperform : world.tables.perform (.roles (.changeGrants added removedIds)) =
          (.ok (), { world.tables with
            grants := grants, grantWrites := world.tables.grantWrites + 1 }) := by
        simp only [Tables.perform, Tables.performRole, hadd]
      rw [hperform] at hwrite
      exact ⟨_, _, hwrite.bind ⟨rfl, rfl⟩, fun _ => ⟨grants, rfl, rfl⟩⟩

/-- A difference is one write; where the store takes it, the grants are changed. -/
theorem writeDelta_ends {missing removedIds : List String} (role : Role)
    (scope tenantId : Option String) (world : World)
    (hsome : (missing.isEmpty && removedIds.isEmpty) = false) :
    ∃ added result after write,
      (writeDelta role scope tenantId missing removedIds).Ends world result after [write] ∧
      added.map (·.permissionId) = missing ∧
      (∀ grant ∈ added, grant.roleId = role.id ∧ grant.organizationId = scope ∧
        grant.tenantId = tenantId) ∧
      (result = .ok () → ∃ grants,
        Tables.addGrants (world.tables.grants.filter (!removedIds.contains ·.id)) added =
          some grants ∧
        after.tables = { world.tables with
          grants := grants, grantWrites := world.tables.grantWrites + 1 }) := by
  obtain ⟨added, made, hmade, htables, hpermissions, hadded⟩ :=
    newGrants_ends role scope tenantId missing world
  have hwrites : ¬(added.isEmpty && removedIds.isEmpty) = true := by
    rw [← hpermissions, List.isEmpty_map] at hsome
    rw [hsome]
    exact Bool.false_ne_true
  obtain ⟨result, after, hends, hchanged⟩ := changeGrants_ends added removedIds
    { event := .rolePermissionsUpdated, organizationId := scope, actorId := none
      targetId := some role.id
      details := some ("added=" ++ toString added.length ++ ",removed=" ++
        toString removedIds.length) } made
  rw [htables] at hchanged
  refine ⟨added, result, after, .store (.roles (.changeGrants added removedIds)), hmade.bind ?_,
    hpermissions, hadded, hchanged⟩
  rw [if_neg hwrites]
  exact hends

/-- The surplus ids tell the surplus grants from all others. -/
theorem contains_surplusIds {tables : Tables} {roleId : String}
    (sound : tables.IsSoundAt roleId scope tenantId) (wanted : List String) {grant : Grant}
    (hgrant : grant ∈ tables.grants) :
    (surplusIds tables roleId scope wanted).contains grant.id =
      Tables.isSurplus roleId scope wanted grant := by
  rw [Bool.eq_iff_iff, List.contains_iff_mem, surplusIds, List.mem_map]
  simp only [List.mem_filter, Tables.mem_grantsAt, Tables.isSurplus, Bool.and_eq_true, beq_iff_eq]
  constructor
  · rintro ⟨other, ⟨⟨hother, hat⟩, hsurplus⟩, hid⟩
    have hsame : other = grant := Tables.eq_of_key_eq sound.ids hother hgrant hid
    rw [← hsame]
    exact ⟨hat, hsurplus⟩
  · rintro ⟨hat, hsurplus⟩
    exact ⟨grant, ⟨⟨hgrant, hat⟩, hsurplus⟩, rfl⟩

/-- Nothing is missing or surplus exactly if the wanted permissions are the assigned ones. -/
theorem missing_surplus_eq_nil_iff (tables : Tables) (roleId : String) (scope : Option String)
    (wanted : List String) :
    tables.missingAt roleId scope wanted = [] ∧ surplusIds tables roleId scope wanted = [] ↔
      ∀ permissionId, permissionId ∈ tables.assignedAt roleId scope ↔ permissionId ∈ wanted := by
  rw [Tables.missingAt, surplusIds, List.map_eq_nil_iff, List.filter_eq_nil_iff,
    List.filter_eq_nil_iff]
  simp only [Bool.not_eq_true', Bool.not_eq_false, List.contains_iff_mem]
  constructor
  · rintro ⟨hmissing, hsurplus⟩ permissionId
    refine ⟨fun hassigned => ?_, fun hwanted => hmissing permissionId hwanted⟩
    obtain ⟨grant, hgrant, rfl⟩ := List.mem_map.1 hassigned
    exact hsurplus grant hgrant
  · intro hsame
    refine ⟨fun permissionId hwanted => (hsame permissionId).2 hwanted, fun grant hgrant => ?_⟩
    exact (hsame grant.permissionId).1 (List.mem_map_of_mem hgrant)

/-- Settling writes at most once, and not at all if the wanted permissions are the assigned ones;
where it succeeds, the grants at the scope were replaced. -/
theorem settle_settles (sound : world.tables.IsSoundAt role.id scope tenantId)
    (wanted : List String) :
    ∃ result after writes, (settle role scope tenantId wanted).Ends world result after writes ∧
      writes.length ≤ 1 ∧
      ((∀ permissionId, permissionId ∈ world.tables.assignedAt role.id scope ↔
        permissionId ∈ wanted) → result = .ok () ∧ after = world ∧ writes = []) ∧
      (result = .ok () →
        Tables.Settled world.tables after.tables role.id scope tenantId wanted) := by
  have hkept : world.tables.grants.filter
      (fun grant => !(surplusIds world.tables role.id scope wanted).contains grant.id) =
      world.tables.grants.filter (!Tables.isSurplus role.id scope wanted ·) :=
    List.filter_congr fun grant hgrant => congrArg not (contains_surplusIds sound wanted hgrant)
  by_cases hnone : world.tables.missingAt role.id scope wanted = [] ∧
      surplusIds world.tables role.id scope wanted = []
  · obtain ⟨hmissing, hsurplus⟩ := hnone
    have hidle := writeDelta_ends_idle role scope tenantId world hmissing hsurplus
    refine ⟨_, _, _, settle_ends sound hidle, Nat.zero_le 1, fun _ => ⟨rfl, rfl, rfl⟩, fun _ => ?_⟩
    refine ⟨rfl, ⟨[], ?_, hmissing.symm, by simp⟩, sound.ids⟩
    rw [← hkept, hsurplus]
    simp
  · have hsome : ((world.tables.missingAt role.id scope wanted).isEmpty &&
        (surplusIds world.tables role.id scope wanted).isEmpty) = false := by
      rw [← Bool.not_eq_true, Bool.and_eq_true, List.isEmpty_iff, List.isEmpty_iff]
      exact hnone
    obtain ⟨added, result, after, write, hends, hpermissions, hadded, hchanged⟩ :=
      writeDelta_ends role scope tenantId world hsome
    refine ⟨result, after, [write], settle_ends sound hends, le_refl 1, fun hsame => ?_,
      fun hok => ?_⟩
    · exact absurd ((missing_surplus_eq_nil_iff _ _ _ _).2 hsame) hnone
    · obtain ⟨grants, hadd, htables⟩ := hchanged hok
      have hids := Tables.nodup_of_addGrants hadd (Tables.nodup_map_filter sound.ids _)
      rw [htables]
      refine ⟨rfl, ⟨added, ?_, hpermissions, hadded⟩, hids⟩
      rw [← hkept]
      exact Tables.eq_append_of_addGrants hadd

end Roles
end Tenancy
