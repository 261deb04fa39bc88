import Tenancy.Proofs.KeyedRecords

/-!
# Tenancy - Names within their scopes

Display names differ among the organizations of a tenant, and role names among the
roles of a scope; no tenant and no organization are scopes like any other.  The
store checks this at every write, so it needs no help from the operations.

Main definitions:

- `Organization.title`, `Role.title`: a name with its scope.
- `Tables.HasDistinctTitles`: no two organizations and no two roles have one title.

Main results:

- Theorem `Tables.HasDistinctTitles.perform`: the store keeps titles distinct,
  whatever it is asked.
- Theorem `Regime.Step.hasDistinctTitles`: so does every step of a run.
- Theorem `Regime.Reaches.hasDistinctTitles`: in every reachable world, titles are
  distinct.
-/

namespace Tenancy

/-- The display name with the tenant in which it is taken. -/
def Organization.title (org : Organization) : Option String × String :=
  (org.tenantId, org.displayName)

/-- The name with the scope at which it is taken. -/
def Role.title (role : Role) : Option String × Option String × String :=
  (role.tenantId, role.organizationId, role.name)

namespace Tables

/-- No two organizations have the same title, and no two roles. -/
structure HasDistinctTitles (tables : Tables) : Prop where
  organizations : (tables.organizations.map Organization.title).Nodup
  roles : (tables.roles.map Role.title).Nodup

/-- Roles bear the same name at the same scope exactly if their titles are the same. -/
theorem sameRoleName_iff {a b : Role} : sameRoleName a b = true ↔ a.title = b.title := by
  simp [sameRoleName, Role.title, and_assoc]

namespace HasDistinctTitles

variable {tables : Tables}

/-- Calls about organizations keep titles distinct. -/
theorem performOrganization (titles : tables.HasDistinctTitles) (distinct : tables.HasDistinctKeys)
    (call : OrganizationCall) : (tables.performOrganization call).2.HasDistinctTitles := by
  cases call with
  | findById | findBySlug | findByDisplayName | list => exact titles
  | create org =>
      simp only [Tables.performOrganization]
      split
      · exact titles
      · split
        · exact titles
        · rename_i hfree
          refine { titles with organizations := nodup_map_append titles.organizations ?_ }
          intro hmem
          obtain ⟨other, hother, htitle⟩ := List.mem_map.1 hmem
          obtain ⟨htenant, hname⟩ := Prod.mk.inj htitle
          exact hfree (List.any_eq_true.2 ⟨other, hother, by simp [htenant, hname]⟩)
  | update org =>
      simp only [Tables.performOrganization]
      split
      · exact titles
      · rename_i hfree
        split
        · refine { titles with
            organizations := nodup_map_put distinct.organizations titles.organizations ?_ }
          intro other hother hid htitle
          obtain ⟨htenant, hname⟩ := Prod.mk.inj htitle
          exact hfree (List.any_eq_true.2 ⟨other, hother, by simp [hid, htenant, hname]⟩)
        · exact titles

/-- Calls about roles keep titles distinct. -/
theorem performRole (titles : tables.HasDistinctTitles) (distinct : tables.HasDistinctKeys)
    (call : RoleCall) : (tables.performRole call).2.HasDistinctTitles := by
  cases call with
  | find | findMany | findByName | list | listAssignable | grantsOf => exact titles
  | create role =>
      simp only [Tables.performRole]
      split
      · exact titles
      · split
        · exact titles
        · rename_i hfree
          refine { titles with roles := nodup_map_append titles.roles ?_ }
          intro hmem
          obtain ⟨other, hother, htitle⟩ := List.mem_map.1 hmem
          exact hfree (List.any_eq_true.2 ⟨other, hother, sameRoleName_iff.2 htitle⟩)
  | update role =>
      simp only [Tables.performRole]
      split
      · exact titles
      · rename_i hfree
        split
        · refine { titles with roles := nodup_map_put distinct.roles titles.roles ?_ }
          intro other hother hid htitle
          refine hfree (List.any_eq_true.2 ⟨other, hother, ?_⟩)
          rw [Bool.and_eq_true, bne_iff_ne]
          exact ⟨hid, sameRoleName_iff.2 htitle⟩
        · exact titles
  | delete roleId => exact { titles with roles := nodup_map_filter titles.roles _ }
  | changeGrants added removedIds =>
      simp only [Tables.performRole]
      split
      · exact titles
      · exact { titles with }

/-- The store keeps titles distinct, whatever it is asked. -/
theorem perform (titles : tables.HasDistinctTitles) (distinct : tables.HasDistinctKeys)
    (call : Call) : (tables.perform call).2.HasDistinctTitles := by
  cases call with
  | organizations call => exact titles.performOrganization distinct call
  | roles call => exact titles.performRole distinct call
  | memberships call =>
      obtain ⟨_, _, hframe⟩ := tables.performMembership_frame call
      rw [hframe]
      exact { titles with }
  | invitations call =>
      obtain ⟨_, hframe⟩ := tables.performInvitation_frame call
      rw [hframe]
      exact { titles with }
  | directory call | catalog call =>
      rw [tables.perform_of_not_write rfl]
      exact titles

end HasDistinctTitles
end Tables

/-- Without records, titles are distinct. -/
theorem Tables.HasNoRecords.hasDistinctTitles {tables : Tables} (hnone : tables.HasNoRecords) :
    tables.HasDistinctTitles := by
  constructor <;> simp [hnone.organizations, hnone.roles]

/-- One step of a run keeps titles distinct where keys are. -/
theorem Regime.Step.hasDistinctTitles {regime : Regime} {before after : Configuration}
    (step : regime.Step before after) (distinct : before.world.tables.HasDistinctKeys)
    (titles : before.world.tables.HasDistinctTitles) : after.world.tables.HasDistinctTitles := by
  have hboth : after.world.tables.HasDistinctKeys ∧ after.world.tables.HasDistinctTitles := by
    refine @Regime.Step.invariant regime
      (fun tables => tables.HasDistinctKeys ∧ tables.HasDistinctTitles) before after step
      ⟨distinct, titles⟩ ?_ ?_
    · rintro tables call ⟨distinct, titles⟩
      exact ⟨distinct.perform call, titles.perform distinct call⟩
    · rintro outside world ⟨distinct, titles⟩
      exact ⟨{ distinct with }, { titles with }⟩
  exact hboth.2

/-- In every reachable world, no two organizations and no two roles have the same title. -/
theorem Regime.Reaches.hasDistinctTitles {regime : Regime} {world : World} {config : Configuration}
    (starts : regime.Starts world) (reaches : regime.Reaches world config) :
    config.world.tables.HasDistinctTitles := by
  induction reaches with
  | refl => exact starts.noRecords.hasDistinctTitles
  | tail reached step ih => exact step.hasDistinctTitles (Reaches.hasDistinctKeys starts reached) ih

end Tenancy
