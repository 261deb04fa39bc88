import Mathlib.Data.List.Nodup
import Mathlib.Order.Lattice
import Tenancy.Proofs.Footprint

/-!
# Tenancy - Records with keys

The tables are lists in which every record has its own key.  Putting a record in
place of the one with its key changes no key and no other record, and withdrawing
primary flags changes no key either.

Main definitions:

- `Tables.HasDistinctKeys`: in each table, no two records have the same key.

Main results:

- Theorem `Tables.pairwise_mergeSort_of_key`: sorting by keys puts records in order.
- Theorem `Tables.map_key_put`: putting a record in place keeps the list of keys.
- Theorem `Tables.mem_of_mem_clearOthers`: what withdrawing primary flags leaves
  alone.
- Theorem `Tables.HasDistinctKeys.perform`: the store keeps keys distinct,
  whatever it is asked.
-/

namespace Tenancy
namespace Tables

/-! ## Sorting records -/

/-- Sorting by a test that compares keys puts records in order. -/
theorem pairwise_mergeSort_of_key {α κ : Type} [LinearOrder κ] {key : α → κ}
    {inOrder : α → α → Bool} (hkey : ∀ a b, inOrder a b = true ↔ key a ≤ key b)
    (records : List α) :
    (records.mergeSort inOrder).Pairwise fun a b => inOrder a b = true := by
  refine List.pairwise_mergeSort (fun a b c hab hbc => ?_) (fun a b => ?_) records
  · rw [hkey] at hab hbc ⊢
    exact hab.trans hbc
  · rw [Bool.or_eq_true, hkey, hkey]
    exact le_total _ _

/-! ## Putting a record in place -/

section Put

variable {α κ : Type} [BEq κ] {key : α → κ} {record : α} {records : List α}

/-- A record after putting one in place is the new one or an old one. -/
theorem mem_put {other : α} (hmem : other ∈ put key record records) :
    other = record ∨ other ∈ records := by
  induction records with
  | nil => simpa [put] using hmem
  | cons head rest ih =>
      unfold put at hmem
      split at hmem
      · rcases List.mem_cons.1 hmem with rfl | hmem
        · exact .inl rfl
        · exact .inr (List.mem_cons_of_mem _ hmem)
      · rcases List.mem_cons.1 hmem with rfl | hmem
        · exact .inr List.mem_cons_self
        · exact (ih hmem).imp_right (List.mem_cons_of_mem _)

variable [LawfulBEq κ]

/-- Putting a record in place of one with its key keeps the list of keys. -/
theorem map_key_put (hkey : key record ∈ records.map key) :
    (put key record records).map key = records.map key := by
  induction records with
  | nil => simp at hkey
  | cons head rest ih =>
      unfold put
      split
      · rename_i heq
        simp [(eq_of_beq heq).symm]
      · rename_i hne
        have hrest : key record ∈ rest.map key := by
          rcases List.mem_cons.1 hkey with heq | hrest
          · exact absurd (beq_iff_eq.2 heq.symm) hne
          · exact hrest
        simp [ih hrest]

/-- A record that was put in place is found under its key. -/
theorem find_put (key : α → κ) (record : α) (records : List α) :
    (put key record records).find? (fun other => key other == key record) = some record := by
  induction records with
  | nil => simp [put]
  | cons head rest ih =>
      unfold put
      split
      · simp
      · rename_i hne
        simp only [List.find?_cons, hne]
        exact ih

/-- Putting a record in place changes nothing that is found under another key. -/
theorem find_put_of_ne {wanted : κ} (hne : key record ≠ wanted) (records : List α) :
    (put key record records).find? (key · == wanted) = records.find? (key · == wanted) := by
  have hrecord : (key record == wanted) = false := beq_eq_false_iff_ne.2 hne
  induction records with
  | nil => simp [put, hrecord]
  | cons head rest ih =>
      unfold put
      split
      · rename_i heq
        have hhead : (key head == wanted) = false := by rw [eq_of_beq heq, hrecord]
        rw [List.find?_cons, List.find?_cons, hrecord, hhead]
      · rw [List.find?_cons, List.find?_cons, ih]

/-- Putting a record in place changes nothing that a predicate selects, if it selects neither the
record nor the one that is replaced. -/
theorem filter_put (selects : α → Bool) (hrecord : selects record = false) (records : List α)
    (hold : ∀ old ∈ records, key old = key record → selects old = false) :
    (put key record records).filter selects = records.filter selects := by
  induction records with
  | nil => simp [put, hrecord]
  | cons head rest ih =>
      unfold put
      split
      · rename_i heq
        have hhead := hold head List.mem_cons_self (eq_of_beq heq)
        simp [hrecord, hhead]
      · have hrest := ih fun old hmem => hold old (List.mem_cons_of_mem _ hmem)
        rw [List.filter_cons, List.filter_cons, hrest]

end Put

/-- Records with different keys are told apart by them. -/
theorem eq_of_key_eq {α κ : Type} {key : α → κ} {records : List α}
    (hkeys : (records.map key).Nodup) {a b : α} (ha : a ∈ records) (hb : b ∈ records)
    (heq : key a = key b) : a = b :=
  List.inj_on_of_nodup_map hkeys ha hb heq

/-- Where any two records are the same there is at most one. -/
theorem length_le_one_of_forall_eq {α : Type} {records : List α} (hnodup : records.Nodup)
    (hsame : ∀ a ∈ records, ∀ b ∈ records, a = b) : records.length ≤ 1 := by
  match records with
  | [] | [_] => simp
  | a :: b :: rest =>
    have heq : a = b := hsame a (by simp) b (by simp)
    simp [heq] at hnodup

/-- A record with a new key can be added to records with distinct keys. -/
theorem nodup_map_append {α κ : Type} {key : α → κ} {records : List α} {record : α}
    (hnodup : (records.map key).Nodup) (hnew : key record ∉ records.map key) :
    ((records ++ [record]).map key).Nodup := by
  rw [List.map_append, List.map_singleton, ← List.concat_eq_append]
  exact hnodup.concat hnew

/-- Putting a record in place keeps a further trait distinct, if the record shares it with no record
of another key. -/
theorem nodup_map_put {α κ τ : Type} [BEq κ] [LawfulBEq κ] {key : α → κ} {trait : α → τ}
    {record : α} {records : List α} (hkeys : (records.map key).Nodup)
    (hnodup : (records.map trait).Nodup)
    (hothers : ∀ other ∈ records, key other ≠ key record → trait other ≠ trait record) :
    ((put key record records).map trait).Nodup := by
  induction records with
  | nil => simp [put]
  | cons head rest ih =>
      obtain ⟨hhead, hrest⟩ := List.nodup_cons.1 hkeys
      obtain ⟨htrait, htraits⟩ := List.nodup_cons.1 hnodup
      unfold put
      split
      · rename_i heq
        refine List.nodup_cons.2 ⟨fun hmem => ?_, htraits⟩
        obtain ⟨other, hother, hsame⟩ := List.mem_map.1 hmem
        refine hothers other (List.mem_cons_of_mem _ hother) (fun hkey => hhead ?_) hsame
        rw [eq_of_beq heq, ← hkey]
        exact List.mem_map_of_mem hother
      · rename_i hne
        refine List.nodup_cons.2 ⟨fun hmem => ?_, ih hrest htraits fun other hother =>
          hothers other (List.mem_cons_of_mem _ hother)⟩
        obtain ⟨other, hother, hsame⟩ := List.mem_map.1 hmem
        rcases mem_put hother with rfl | hother
        · exact hothers head List.mem_cons_self (fun hkey => hne (beq_iff_eq.2 hkey)) hsame.symm
        · exact htrait (hsame ▸ List.mem_map_of_mem hother)

/-- A record that is found by a key has that key. -/
theorem key_of_find {α κ : Type} [BEq κ] [LawfulBEq κ] {key : α → κ} {wanted : κ}
    {records : List α} {record : α}
    (hfind : records.find? (fun other => key other == wanted) = some record) :
    key record = wanted := by
  simpa using List.find?_some hfind

/-- A record with a key of its own is the one that is found under it. -/
theorem find_eq_some_of_mem {α κ : Type} [BEq κ] [LawfulBEq κ] {key : α → κ} {records : List α}
    (hkeys : (records.map key).Nodup) {record : α} (hmem : record ∈ records) :
    records.find? (fun other => key other == key record) = some record := by
  have hsome : (records.find? (fun other => key other == key record)).isSome = true :=
    List.find?_isSome.2 ⟨record, hmem, beq_self_eq_true (key record)⟩
  obtain ⟨found, hfind⟩ := Option.isSome_iff_exists.1 hsome
  have hkey : key found = key record := key_of_find hfind
  rw [hfind, eq_of_key_eq hkeys (List.mem_of_find?_eq_some hfind) hmem hkey]

/-- Fewer records have distinct keys. -/
theorem nodup_map_filter {α κ : Type} {key : α → κ} {records : List α}
    (hnodup : (records.map key).Nodup) (keep : α → Bool) :
    ((records.filter keep).map key).Nodup :=
  hnodup.sublist (List.filter_sublist.map _)

/-- Removing the records with a key removes all of them and no others. -/
theorem count_key_filter {α κ : Type} [DecidableEq κ] (key : α → κ) (records : List α)
    (removed wanted : κ) :
    ((records.filter (key · != removed)).map key).count wanted =
      if removed = wanted then 0 else (records.map key).count wanted := by
  have hmap : (records.filter (key · != removed)).map key =
      (records.map key).filter (· != removed) := by
    rw [List.filter_map]
    rfl
  rw [hmap]
  split
  · rename_i hkey
    rw [List.count_eq_zero, hkey]
    simp
  · rename_i hkey
    exact List.count_filter (by simpa using Ne.symm hkey)

/-! ## Memberships -/

/-- A membership is that of a user in an organization exactly when it has their key. -/
theorem isMemberOf_iff {organizationId userId : String} {member : Membership} :
    isMemberOf organizationId userId member = true ↔ member.key = (organizationId, userId) := by
  simp [isMemberOf, Membership.key]

/-- Whether some membership is that of a user in an organization shows in the keys. -/
theorem any_isMemberOf {memberships : List Membership} {organizationId userId : String} :
    memberships.any (isMemberOf organizationId userId) = true ↔
      (organizationId, userId) ∈ memberships.map Membership.key := by
  simp only [List.any_eq_true, isMemberOf_iff, List.mem_map]

/-- A membership that is found has the key looked for. -/
theorem find_isMemberOf {memberships : List Membership} {organizationId userId : String}
    {member : Membership}
    (hfind : memberships.find? (isMemberOf organizationId userId) = some member) :
    member ∈ memberships ∧ member.key = (organizationId, userId) :=
  ⟨List.mem_of_find?_eq_some hfind, isMemberOf_iff.1 (List.find?_some hfind)⟩

end Tables

namespace Membership

variable (keptOrganizationId userId : String) (tenantId : Option String) (now : Nat)

/-- Withdrawing the primary flag changes nothing but the flag and the update time. -/
theorem withdrawPrimary_eq (member : Membership) :
    withdrawPrimary keptOrganizationId userId tenantId now member =
      { member with
        isPrimary := (withdrawPrimary keptOrganizationId userId tenantId now member).isPrimary
        updatedAt :=
          (withdrawPrimary keptOrganizationId userId tenantId now member).updatedAt } := by
  unfold withdrawPrimary
  split <;> rfl

@[simp]
theorem withdrawPrimary_key (member : Membership) :
    (withdrawPrimary keptOrganizationId userId tenantId now member).key = member.key := by
  rw [withdrawPrimary_eq]
  rfl

@[simp]
theorem withdrawPrimary_tenantId (member : Membership) :
    (withdrawPrimary keptOrganizationId userId tenantId now member).tenantId =
      member.tenantId := by
  rw [withdrawPrimary_eq]

@[simp]
theorem withdrawPrimary_roles (member : Membership) :
    (withdrawPrimary keptOrganizationId userId tenantId now member).roles = member.roles := by
  rw [withdrawPrimary_eq]

/-- Who is still primary after the flag was withdrawn elsewhere kept everything. -/
theorem withdrawPrimary_of_isPrimary {member : Membership}
    (hprimary :
      (withdrawPrimary keptOrganizationId userId tenantId now member).isPrimary = true) :
    withdrawPrimary keptOrganizationId userId tenantId now member = member := by
  unfold withdrawPrimary at hprimary ⊢
  split at hprimary
  · simp at hprimary
  · exact if_neg ‹_›

/-! ## Assignments -/

/-- Adding an assignment adds nothing else. -/
theorem mem_assign {roles : List RoleAssignment} {added assignment : RoleAssignment}
    (hmem : assignment ∈ assign roles added) : assignment ∈ roles ∨ assignment = added := by
  unfold assign at hmem
  split at hmem
  · exact .inl hmem
  · simpa using hmem

/-- Adding an assignment assigns no role twice. -/
theorem nodup_assign {roles : List RoleAssignment} (hnodup : (roles.map (·.roleId)).Nodup)
    (added : RoleAssignment) : ((assign roles added).map (·.roleId)).Nodup := by
  unfold assign
  split
  · exact hnodup
  · rename_i hnew
    have hadded : added.roleId ∉ roles.map (·.roleId) := by
      simpa [List.any_eq_true] using hnew
    exact Tables.nodup_map_append hnodup hadded

/-- Adding assignments one by one adds nothing else. -/
theorem mem_foldl_assign {kept added : List RoleAssignment} {assignment : RoleAssignment}
    (hmem : assignment ∈ added.foldl assign kept) : assignment ∈ kept ∨ assignment ∈ added := by
  induction added generalizing kept with
  | nil => exact .inl hmem
  | cons head rest ih =>
      rcases ih hmem with hkept | hrest
      · rcases mem_assign hkept with hkept | rfl
        · exact .inl hkept
        · exact .inr List.mem_cons_self
      · exact .inr (List.mem_cons_of_mem _ hrest)

/-- The assignments after removals and additions were there before or were added. -/
theorem mem_reassign {roles added : List RoleAssignment} {removedRoleIds : List String}
    {assignment : RoleAssignment} (hmem : assignment ∈ reassign roles added removedRoleIds) :
    assignment ∈ roles ∨ assignment ∈ added :=
  (mem_foldl_assign hmem).imp_left List.mem_of_mem_filter

/-- Removals and additions assign no role twice. -/
theorem nodup_reassign {roles : List RoleAssignment} (hnodup : (roles.map (·.roleId)).Nodup)
    (added : List RoleAssignment) (removedRoleIds : List String) :
    ((reassign roles added removedRoleIds).map (·.roleId)).Nodup := by
  have hkept : ((roles.filter (!removedRoleIds.contains ·.roleId)).map (·.roleId)).Nodup :=
    Tables.nodup_map_filter hnodup _
  unfold reassign
  generalize roles.filter _ = kept at hkept ⊢
  induction added generalizing kept with
  | nil => exact hkept
  | cons head rest ih => exact ih _ (nodup_assign hkept head)

end Membership

namespace Tables

/-- Withdrawing primary flags changes no key. -/
@[simp]
theorem map_key_clearOthers (memberships : List Membership)
    (keptOrganizationId userId : String) (tenantId : Option String) (now : Nat) :
    (clearOthers memberships keptOrganizationId userId tenantId now).map Membership.key =
      memberships.map Membership.key := by
  simp [clearOthers, Function.comp_def]

/-- Who is primary after flags were withdrawn was stored before in the same form. -/
theorem mem_of_mem_clearOthers {memberships : List Membership} {keptOrganizationId userId : String}
    {tenantId : Option String} {now : Nat} {member : Membership}
    (hmem : member ∈ clearOthers memberships keptOrganizationId userId tenantId now)
    (hprimary : member.isPrimary = true) : member ∈ memberships := by
  obtain ⟨before, hbefore, rfl⟩ := List.mem_map.1 hmem
  rw [Membership.withdrawPrimary_of_isPrimary _ _ _ _ hprimary]
  exact hbefore

/-! ## Grants -/

/-- Grants that are added without conflict come after the others. -/
theorem eq_append_of_addGrants {grants added result : List Grant}
    (hadd : addGrants grants added = some result) : result = grants ++ added := by
  induction added generalizing grants with
  | nil => simpa [addGrants] using hadd.symm
  | cons grant rest ih =>
      unfold addGrants at hadd
      split at hadd
      · cases hadd
      · simpa using ih hadd

/-- Adding grants without conflict keeps any keys distinct that only conflicting grants share. -/
theorem nodup_map_of_addGrants {κ : Type} {key : Grant → κ}
    (hconflict : ∀ a b : Grant, key a = key b → (a.id == b.id || a.sameGrant b) = true)
    {grants added result : List Grant} (hadd : addGrants grants added = some result)
    (hnodup : (grants.map key).Nodup) : (result.map key).Nodup := by
  induction added generalizing grants with
  | nil =>
      rw [← Option.some.inj hadd]
      exact hnodup
  | cons grant rest ih =>
      unfold addGrants at hadd
      split at hadd
      · cases hadd
      · rename_i hnew
        refine ih hadd ?_
        have hkey : key grant ∉ grants.map key := by
          intro hmem
          obtain ⟨other, hother, heq⟩ := List.mem_map.1 hmem
          exact hnew (List.any_eq_true.2 ⟨other, hother, hconflict other grant heq⟩)
        exact nodup_map_append hnodup hkey

/-- Adding grants without conflict keeps their ids distinct. -/
theorem nodup_of_addGrants {grants added result : List Grant}
    (hadd : addGrants grants added = some result) (hnodup : (grants.map (·.id)).Nodup) :
    (result.map (·.id)).Nodup := by
  refine nodup_map_of_addGrants (fun a b hid => ?_) hadd hnodup
  have hsame : a.id = b.id := hid
  simp [hsame]

/-! ## Distinct keys -/

/-- In each table, no two records have the same key. -/
structure HasDistinctKeys (tables : Tables) : Prop where
  organizations : (tables.organizations.map (·.id)).Nodup
  memberships : (tables.memberships.map Membership.key).Nodup
  roles : (tables.roles.map (·.id)).Nodup
  grants : (tables.grants.map (·.id)).Nodup
  invitations : (tables.invitations.map (·.code)).Nodup

namespace HasDistinctKeys

variable {tables : Tables}

/-- Calls about organizations keep keys distinct. -/
theorem performOrganization (distinct : tables.HasDistinctKeys) (call : OrganizationCall) :
    (tables.performOrganization call).2.HasDistinctKeys := by
  cases call with
  | findById | findBySlug | findByDisplayName | list => exact distinct
  | create org =>
      simp only [Tables.performOrganization]
      split
      · exact distinct
      · rename_i hnew
        split
        · exact distinct
        · have hid : org.id ∉ tables.organizations.map (·.id) := by simpa using hnew
          exact { distinct with organizations := nodup_map_append distinct.organizations hid }
  | update org =>
      simp only [Tables.performOrganization]
      split
      · exact distinct
      · split
        · rename_i hstored
          have hid : org.id ∈ tables.organizations.map (·.id) := by simpa using hstored
          refine { distinct with organizations := ?_ }
          rw [map_key_put hid]
          exact distinct.organizations
        · exact distinct

/-- Calls about memberships keep keys distinct. -/
theorem performMembership (distinct : tables.HasDistinctKeys) (call : MembershipCall) :
    (tables.performMembership call).2.HasDistinctKeys := by
  have hcleared : ∀ organizationId userId tenantId now,
      ((clearOthers tables.memberships organizationId userId tenantId now).map
        Membership.key).Nodup := by
    intro organizationId userId tenantId now
    rw [map_key_clearOthers]
    exact distinct.memberships
  cases call with
  | find | listForUser | query => exact distinct
  | insert member clearsOthers =>
      simp only [Tables.performMembership]
      split
      · exact distinct
      · rename_i hnew
        rw [any_isMemberOf] at hnew
        refine { distinct with memberships := ?_ }
        dsimp only
        split
        · refine nodup_map_append (hcleared _ _ _ _) ?_
          rw [map_key_clearOthers]
          exact hnew
        · exact nodup_map_append distinct.memberships hnew
  | applyChange change =>
      simp only [Tables.performMembership]
      split
      · exact distinct
      · rename_i member hfind
        have hstored : (member.applyChange change).key ∈ tables.memberships.map Membership.key :=
          List.mem_map.2 ⟨member, (find_isMemberOf hfind).1, rfl⟩
        refine { distinct with memberships := ?_ }
        dsimp only
        split
        · rw [map_key_put (by rw [map_key_clearOthers]; exact hstored)]
          exact hcleared _ _ _ _
        · rw [map_key_put hstored]
          exact distinct.memberships
  | delete organizationId userId =>
      simp only [Tables.performMembership]
      split
      · exact { distinct with memberships := nodup_map_filter distinct.memberships _ }
      · exact distinct

/-- Calls about roles and grants keep keys distinct. -/
theorem performRole (distinct : tables.HasDistinctKeys) (call : RoleCall) :
    (tables.performRole call).2.HasDistinctKeys := by
  cases call with
  | find | findMany | findByName | list | listAssignable | grantsOf => exact distinct
  | create role =>
      simp only [Tables.performRole]
      split
      · exact distinct
      · rename_i hnew
        split
        · exact distinct
        · have hid : role.id ∉ tables.roles.map (·.id) := by simpa using hnew
          exact { distinct with roles := nodup_map_append distinct.roles hid }
  | update role =>
      simp only [Tables.performRole]
      split
      · exact distinct
      · split
        · rename_i hstored
          have hid : role.id ∈ tables.roles.map (·.id) := by simpa using hstored
          refine { distinct with roles := ?_ }
          rw [map_key_put hid]
          exact distinct.roles
        · exact distinct
  | delete roleId =>
      exact { distinct with
        roles := nodup_map_filter distinct.roles _
        grants := nodup_map_filter distinct.grants _ }
  | changeGrants added removedIds =>
      simp only [Tables.performRole]
      split
      · exact distinct
      · rename_i grants hadd
        exact { distinct with
          grants := nodup_of_addGrants hadd (nodup_map_filter distinct.grants _) }

/-- Calls about invitations keep keys distinct. -/
theorem performInvitation (distinct : tables.HasDistinctKeys) (call : InvitationCall) :
    (tables.performInvitation call).2.HasDistinctKeys := by
  cases call with
  | findByCode | findForEmail | listForOrganization => exact distinct
  | create invitation =>
      simp only [Tables.performInvitation]
      split
      · exact distinct
      · rename_i hnew
        have hcode : invitation.code ∉ tables.invitations.map (·.code) := by
          intro hmem
          obtain ⟨other, hother, heq⟩ := List.mem_map.1 hmem
          exact hnew (List.any_eq_true.2 ⟨other, hother, by simp [heq]⟩)
        exact { distinct with invitations := nodup_map_append distinct.invitations hcode }
  | delete code =>
      exact { distinct with invitations := nodup_map_filter distinct.invitations _ }
  | deleteExpired now =>
      exact { distinct with invitations := nodup_map_filter distinct.invitations _ }

/-- The store keeps keys distinct, whatever it is asked. -/
theorem perform (distinct : tables.HasDistinctKeys) (call : Call) :
    (tables.perform call).2.HasDistinctKeys := by
  cases call with
  | organizations call => exact distinct.performOrganization call
  | memberships call => exact distinct.performMembership call
  | roles call => exact distinct.performRole call
  | invitations call => exact distinct.performInvitation call
  | directory call | catalog call =>
      rw [tables.perform_of_not_write rfl]
      exact distinct

end HasDistinctKeys
end Tables

/-- Without records, keys are distinct. -/
theorem Tables.HasNoRecords.hasDistinctKeys {tables : Tables} (hnone : tables.HasNoRecords) :
    tables.HasDistinctKeys := by
  constructor <;> simp [hnone.organizations, hnone.memberships, hnone.roles, hnone.grants,
    hnone.invitations]

/-- One step of a run keeps keys distinct. -/
theorem Regime.Step.hasDistinctKeys {regime : Regime} {before after : Configuration}
    (step : regime.Step before after) (distinct : before.world.tables.HasDistinctKeys) :
    after.world.tables.HasDistinctKeys :=
  @Regime.Step.invariant regime Tables.HasDistinctKeys before after step distinct
    (fun _ call distinct => distinct.perform call) fun _ _ distinct => { distinct with }

/-- In every reachable world, records have distinct keys. -/
theorem Regime.Reaches.hasDistinctKeys {regime : Regime} {world : World} {config : Configuration}
    (starts : regime.Starts world) (reaches : regime.Reaches world config) :
    config.world.tables.HasDistinctKeys := by
  induction reaches with
  | refl => exact starts.noRecords.hasDistinctKeys
  | tail _ step ih => exact step.hasDistinctKeys ih

end Tenancy
