import Tenancy.Proofs.RoleOwners
import Tenancy.Proofs.SoloRuns

/-!
# Tenancy - Which roles an organization may assign

Requests for roles pass through a check that refuses all of them if one is missing or
does not fit; lists that were checked before are looked through again and lose the
roles that are gone; and the store lists the roles to choose from by a condition of its
own.  All three come to one question about the tables.

Main definitions:

- `Tables.canAssign`: whether an organization may assign the role with an id.

Main results:

- Theorem `Roles.runIn_assignable`, `Roles.runIn_assignable_error`: what the check comes
  to.
- Theorem `Roles.runIn_stillAssignable`: what is left of a list.
- Theorem `Roles.lists_iff_canAssign`: what is listed.
-/

namespace Tenancy

/-! ## Roles that may be assigned -/

namespace Tables

variable {tables : Tables} {org : Organization} {roleId : String}

/-- Whether an organization may assign the role with an id: there is one, and it fits. -/
def canAssign (tables : Tables) (org : Organization) (roleId : String) : Bool :=
  (tables.roles.find? (·.id == roleId)).any (·.fits org)

/-- The roles of a list of ids that an organization may assign, each once. -/
def assignableOf (tables : Tables) (org : Organization) (listed : List String) : List String :=
  (Text.distinctTrimmed listed).filter (tables.canAssign org)

/-- Among roles with distinct ids, a role may be assigned if some stored role with its id fits. -/
theorem canAssign_iff (distinct : (tables.roles.map (·.id)).Nodup) :
    tables.canAssign org roleId = true ↔
      ∃ role ∈ tables.roles, role.id = roleId ∧ role.fits org = true := by
  unfold canAssign
  rw [Option.any_eq_true]
  constructor
  · rintro ⟨role, hfind, hfits⟩
    have hid : role.id = roleId := key_of_find hfind
    exact ⟨role, List.mem_of_find?_eq_some hfind, hid, hfits⟩
  · rintro ⟨role, hrole, rfl, hfits⟩
    exact ⟨role, find_eq_some_of_mem distinct hrole, hfits⟩

/-- A role that is looked up among others is found if it is stored. -/
theorem find_filterMap_find (roles : List Role) {roleIds : List String} (hmem : roleId ∈ roleIds) :
    (roleIds.filterMap fun id => roles.find? (·.id == id)).find? (·.id == roleId) =
      roles.find? (·.id == roleId) := by
  -- Lookups of other ids find nothing under this one, so only the first lookup of it counts.
  have hothers : ∀ id role, roles.find? (·.id == id) = some role → id ≠ roleId →
      (role.id == roleId) = false := by
    intro id role hfind hne
    have hid : role.id = id := key_of_find hfind
    simpa [hid] using hne
  induction roleIds with
  | nil => cases hmem
  | cons head rest ih =>
      by_cases hhead : head = roleId
      · subst hhead
        cases hfind : roles.find? (·.id == head) with
        | some role =>
            have hid : role.id = head := key_of_find hfind
            simp only [List.filterMap_cons, hfind]
            rw [List.find?_cons_of_pos (by simp [hid])]
        | none =>
            simp only [List.filterMap_cons, hfind]
            rw [List.find?_eq_none]
            intro role hrole
            obtain ⟨id, -, hother⟩ := List.mem_filterMap.1 hrole
            have hne : id ≠ head := by
              rintro rfl
              rw [hfind] at hother
              cases hother
            simp [hothers id role hother hne]
      · have hrest := ih ((List.mem_cons.1 hmem).resolve_left (Ne.symm hhead))
        cases hfind : roles.find? (·.id == head) with
        | none =>
            simp only [List.filterMap_cons, hfind]
            exact hrest
        | some role =>
            simp only [List.filterMap_cons, hfind]
            rw [List.find?_cons_of_neg (by simp [hothers head role hfind hhead]), hrest]

end Tables

/-! ## The check of requested roles -/

namespace Roles

variable {world : World} {org : Organization} {requested : List String}

/-- The check passes exactly if each role is found and fits. -/
theorem checkEach_eq_ok_iff {roles : List Role} {roleIds : List String} :
    checkEach org roles roleIds = .ok () ↔
      ∀ roleId ∈ roleIds, (roles.find? (·.id == roleId)).any (·.fits org) = true := by
  induction roleIds with
  | nil => simp [checkEach]
  | cons head rest ih =>
      rw [List.forall_mem_cons, ← ih]
      cases hfind : roles.find? (·.id == head) with
      | none => simp [checkEach, hfind]
      | some role => cases hfits : role.fits org <;> simp [checkEach, hfind, hfits]

/-- Looking roles up answers those that are stored. -/
theorem runIn_findMany (world : World) (roleIds : List String) :
    (Action.ask (.roles (.findMany roleIds))).runIn world =
      (.ok (roleIds.filterMap fun roleId => world.tables.roles.find? (·.id == roleId)), world) :=
  Action.runIn_read rfl rfl

/-- The roles that were looked up pass the check exactly if the organization may assign them. -/
theorem checkEach_findMany (tables : Tables) (roleIds : List String) :
    checkEach org (roleIds.filterMap fun roleId => tables.roles.find? (·.id == roleId)) roleIds =
        .ok () ↔ ∀ roleId ∈ roleIds, tables.canAssign org roleId = true := by
  rw [checkEach_eq_ok_iff]
  refine forall₂_congr fun roleId hmem => ?_
  rw [Tables.find_filterMap_find _ hmem, Tables.canAssign]

/-- Requested roles that the organization may assign pass, each once. -/
theorem runIn_assignable
    (hall : ∀ roleId ∈ Text.distinctTrimmed requested,
      world.tables.canAssign org roleId = true) :
    (assignable org requested).runIn world = (.ok (Text.distinctTrimmed requested), world) := by
  unfold assignable
  dsimp only
  split
  · rfl
  · refine (Action.runIn_bind_ok (runIn_findMany world _) _).trans ?_
    rw [(checkEach_findMany world.tables _).2 hall]
    rfl

/-- If the organization may not assign one of the requested roles, they are refused. -/
theorem runIn_assignable_error
    (hnot : ¬∀ roleId ∈ Text.distinctTrimmed requested,
      world.tables.canAssign org roleId = true) :
    ∃ error, (assignable org requested).runIn world = (.error error, world) := by
  have hsome : ¬(Text.distinctTrimmed requested).isEmpty = true := by
    intro hempty
    refine hnot fun roleId hmem => ?_
    rw [List.isEmpty_iff.1 hempty] at hmem
    cases hmem
  have hcheck := mt (checkEach_findMany world.tables _).1 hnot
  unfold assignable
  dsimp only
  rw [if_neg hsome]
  have hbind := Action.runIn_bind_ok (runIn_findMany world (Text.distinctTrimmed requested))
    fun roles => do
      Action.check (checkEach org roles (Text.distinctTrimmed requested))
      pure (Text.distinctTrimmed requested)
  generalize Text.distinctTrimmed requested = roleIds at *
  cases hresult : checkEach org
      (roleIds.filterMap fun roleId => world.tables.roles.find? (·.id == roleId)) roleIds with
  | ok value => exact absurd hresult hcheck
  | error error =>
      refine ⟨error, hbind.trans ?_⟩
      rw [hresult]
      rfl

/-- An action that begins with the check succeeds exactly if the organization may assign the roles,
provided that the rest of it succeeds with them. -/
theorem succeeds_assignable_bind {α : Type} {next : List String → Action α}
    (hnext : (∀ roleId ∈ Text.distinctTrimmed requested,
      world.tables.canAssign org roleId = true) →
      (next (Text.distinctTrimmed requested)).Succeeds world) :
    (assignable org requested >>= next).Succeeds world ↔
      ∀ roleId ∈ Text.distinctTrimmed requested, world.tables.canAssign org roleId = true := by
  by_cases hall : ∀ roleId ∈ Text.distinctTrimmed requested,
      world.tables.canAssign org roleId = true
  · exact (Action.succeeds_bind (runIn_assignable hall) next).trans
      (iff_of_true (hnext hall) hall)
  · obtain ⟨error, hrun⟩ := runIn_assignable_error hall
    exact iff_of_false (Action.not_succeeds_bind hrun next) hall

/-- Of a list of roles, those are left that the organization may assign. -/
theorem stillAssignable_findMany (tables : Tables) (roleIds : List String) :
    roleIds.filter (fun roleId =>
      (roleIds.filterMap fun id => tables.roles.find? (·.id == id)).any fun role =>
        role.id == roleId && role.fits org) =
      roleIds.filter (tables.canAssign org) := by
  refine List.filter_congr fun roleId hmem => ?_
  rw [Tables.canAssign, Bool.eq_iff_iff, List.any_eq_true, Option.any_eq_true]
  constructor
  · rintro ⟨role, hrole, hcond⟩
    obtain ⟨hid, hfits⟩ := Bool.and_eq_true_iff.1 hcond
    obtain ⟨other, -, hfind⟩ := List.mem_filterMap.1 hrole
    have hother : role.id = other := Tables.key_of_find hfind
    rw [← hother, eq_of_beq hid] at hfind
    exact ⟨role, hfind, hfits⟩
  · rintro ⟨role, hfind, hfits⟩
    have hid : role.id = roleId := Tables.key_of_find hfind
    exact ⟨role, List.mem_filterMap.2 ⟨roleId, hmem, hfind⟩, by simp [hid, hfits]⟩

/-- Of a list of roles, those are left that the organization may assign. -/
theorem runIn_stillAssignable (world : World) (org : Organization) (listed : List String) :
    (stillAssignable org listed).runIn world =
      (.ok (world.tables.assignableOf org listed), world) := by
  unfold stillAssignable Tables.assignableOf
  dsimp only
  split
  · rename_i hempty
    rw [List.isEmpty_iff.1 hempty]
    rfl
  · refine (Action.runIn_bind_ok (runIn_findMany world _) _).trans ?_
    rw [stillAssignable_findMany]
    rfl

/-! ## The list to choose from -/

/-- A stored organization is listed the roles that it may choose from. -/
theorem runIn_listAssignable
    (hfind : world.tables.organizations.find? (·.id == org.id) = some org) :
    (listAssignable org.id).runIn world =
      (.ok ((world.tables.roles.filter (Tables.isListedFor org.tenantId org.id)).mergeSort
        Tables.roleLE), world) :=
  (Action.runIn_bind_ok (Action.runIn_loadOrganization hfind) _).trans (Action.runIn_read rfl rfl)

/-- A role is among those that an organization is listed to choose from. -/
def Lists (world : World) (org : Organization) (roleId : String) : Prop :=
  ∃ roles, ((listAssignable org.id).runIn world).1 = .ok roles ∧ roleId ∈ roles.map (·.id)

/-- In every reachable world, an organization is listed exactly the roles that it may assign. -/
theorem lists_iff_canAssign {regime : Regime} {start : World} {config : Configuration}
    (starts : regime.Starts start) (reaches : regime.Reaches start config)
    (distinct : ∀ world, regime.admits world → world.supply.DistinctIds)
    (horg : org ∈ config.world.tables.organizations) (roleId : String) :
    Lists config.world org roleId ↔ config.world.tables.canAssign org roleId = true := by
  have keys := reaches.hasDistinctKeys starts
  have hfits : ∀ role ∈ config.world.tables.roles,
      Tables.isListedFor org.tenantId org.id role = role.fits org := fun role hrole =>
    Tables.isListedFor_eq_fits fun howner =>
      reaches.tenantId_of_owned starts distinct hrole horg howner
  rw [Tables.canAssign_iff keys.roles, Lists,
    runIn_listAssignable (Tables.find_eq_some_of_mem keys.organizations horg)]
  constructor
  · rintro ⟨roles, ⟨⟩, hmem⟩
    obtain ⟨role, hrole, rfl⟩ := List.mem_map.1 hmem
    obtain ⟨hstored, hlisted⟩ := List.mem_filter.1 ((List.mergeSort_perm _ _).mem_iff.1 hrole)
    exact ⟨role, hstored, rfl, hfits role hstored ▸ hlisted⟩
  · rintro ⟨role, hstored, rfl, hfit⟩
    refine ⟨_, rfl, List.mem_map_of_mem ((List.mergeSort_perm _ _).mem_iff.2 ?_)⟩
    exact List.mem_filter.2 ⟨hstored, (hfits role hstored).trans hfit⟩

end Roles
end Tenancy
