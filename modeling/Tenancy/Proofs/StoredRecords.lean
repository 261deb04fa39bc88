import Tenancy.Proofs.KeyedRecords
import Tenancy.Proofs.Upholding

/-!
# Tenancy - Sound records

Organizations, roles and invitations are stored by few calls, each of which stores
one whole record.  So a property of single records holds of all stored ones as soon
as every operation writes only records that have it.

Main definitions:

- `Shelf`: where the records of a kind are stored, and which calls store one.
- `Organization.shelf`, `Role.shelf`, `Invitation.shelf`: the three kinds.
- `Shelf.pact`: the pact that every stored record is sound.

Main results:

- Theorem `Tables.mem_memberships_perform`: where a stored membership comes from.
- Theorem `Shelf.keeps_call`: a call keeps the pact if what it stores is sound.
- Theorem `Action.loadOrganization_reads`, `Roles.load_reads`: what is known of stored
  records is known of those that were loaded.
-/

namespace Tenancy

/-! ## What calls store -/

namespace Tables

variable {tables : Tables} {call : Call}

/-- A call stores no organizations but those it creates or updates. -/
theorem mem_organizations_perform {org : Organization}
    (horg : org ∈ (tables.perform call).2.organizations) :
    org ∈ tables.organizations ∨ call = .organizations (.create org) ∨
      call = .organizations (.update org) := by
  cases call with
  | organizations call =>
      cases call with
      | create added =>
          simp only [perform, performOrganization] at horg
          split at horg
          · exact .inl horg
          · split at horg
            · exact .inl horg
            · rcases List.mem_append.1 horg with hold | hnew
              · exact .inl hold
              · rw [List.mem_singleton.1 hnew]
                exact .inr (.inl rfl)
      | update changed =>
          simp only [perform, performOrganization] at horg
          split at horg
          · exact .inl horg
          · split at horg
            · rcases mem_put horg with rfl | hold
              · exact .inr (.inr rfl)
              · exact .inl hold
            · exact .inl horg
      | findById | findBySlug | findByDisplayName | list => exact .inl horg
  | memberships | roles | invitations | directory | catalog =>
      rw [perform_organizations (by rintro _ ⟨⟩)] at horg
      exact .inl horg

/-- A call stores no roles but those it creates or updates. -/
theorem mem_roles_perform {role : Role}
    (hrole : role ∈ (tables.perform call).2.roles) :
    role ∈ tables.roles ∨ call = .roles (.create role) ∨ call = .roles (.update role) := by
  cases call with
  | roles call =>
      cases call with
      | create added =>
          simp only [perform, performRole] at hrole
          split at hrole
          · exact .inl hrole
          · split at hrole
            · exact .inl hrole
            · rcases List.mem_append.1 hrole with hold | hnew
              · exact .inl hold
              · rw [List.mem_singleton.1 hnew]
                exact .inr (.inl rfl)
      | update changed =>
          simp only [perform, performRole] at hrole
          split at hrole
          · exact .inl hrole
          · split at hrole
            · rcases mem_put hrole with rfl | hold
              · exact .inr (.inr rfl)
              · exact .inl hold
            · exact .inl hrole
      | delete => exact .inl (List.mem_of_mem_filter hrole)
      | changeGrants =>
          simp only [perform, performRole] at hrole
          split at hrole <;> exact .inl hrole
      | find | findMany | findByName | list | listAssignable | grantsOf => exact .inl hrole
  | organizations | memberships | invitations | directory | catalog =>
      rw [perform_roles (by rintro _ ⟨⟩)] at hrole
      exact .inl hrole

/-- A call stores no invitations but the one it creates. -/
theorem mem_invitations_perform {invitation : Invitation}
    (hinvitation : invitation ∈ (tables.perform call).2.invitations) :
    invitation ∈ tables.invitations ∨ call = .invitations (.create invitation) := by
  cases call with
  | invitations call =>
      cases call with
      | create added =>
          simp only [perform, performInvitation] at hinvitation
          split at hinvitation
          · exact .inl hinvitation
          · rcases List.mem_append.1 hinvitation with hold | hnew
            · exact .inl hold
            · rw [List.mem_singleton.1 hnew]
              exact .inr rfl
      | delete | deleteExpired => exact .inl (List.mem_of_mem_filter hinvitation)
      | findByCode | findForEmail | listForOrganization => exact .inl hinvitation
  | organizations | memberships | roles | directory | catalog =>
      rw [perform_invitations (by rintro _ ⟨⟩)] at hinvitation
      exact .inl hinvitation

/-- After a call, a membership has the key and the roles of one that was stored before, or it was
inserted, or it is one that was stored before after a change. -/
theorem mem_memberships_perform {member : Membership}
    (hmember : member ∈ (tables.perform call).2.memberships) :
    (∃ before ∈ tables.memberships, before.key = member.key ∧ before.roles = member.roles) ∨
      (∃ clears, call = .memberships (.insert member clears)) ∨
      ∃ before ∈ tables.memberships, ∃ change,
        call = .memberships (.applyChange change) ∧ member = before.applyChange change := by
  have hkept : ∀ others, member ∈ others → (others = tables.memberships ∨
      ∃ organizationId userId tenantId now,
        others = clearOthers tables.memberships organizationId userId tenantId now) →
      ∃ before ∈ tables.memberships, before.key = member.key ∧ before.roles = member.roles := by
    rintro _ hmem (rfl | ⟨_, _, _, _, rfl⟩)
    · exact ⟨member, hmem, rfl, rfl⟩
    · obtain ⟨before, hbefore, rfl⟩ := List.mem_map.1 hmem
      exact ⟨before, hbefore, by simp, by simp⟩
  cases call with
  | organizations | roles | invitations | directory | catalog =>
      rw [perform_memberships (by rintro _ ⟨⟩)] at hmember
      exact .inl (hkept _ hmember (.inl rfl))
  | memberships call =>
      cases call with
      | find | listForUser | query => exact .inl (hkept _ hmember (.inl rfl))
      | insert added clears =>
          simp only [perform, performMembership] at hmember
          split at hmember
          · exact .inl (hkept _ hmember (.inl rfl))
          · rcases List.mem_append.1 hmember with hold | hnew
            · split at hold
              · exact .inl (hkept _ hold (.inr ⟨_, _, _, _, rfl⟩))
              · exact .inl (hkept _ hold (.inl rfl))
            · rw [List.mem_singleton.1 hnew]
              exact .inr (.inl ⟨clears, rfl⟩)
      | applyChange change =>
          simp only [perform, performMembership] at hmember
          split at hmember
          · exact .inl (hkept _ hmember (.inl rfl))
          · rename_i stored hfind
            rcases mem_put hmember with rfl | hold
            · exact .inr (.inr ⟨stored, List.mem_of_find?_eq_some hfind, change, rfl, rfl⟩)
            · split at hold
              · exact .inl (hkept _ hold (.inr ⟨_, _, _, _, rfl⟩))
              · exact .inl (hkept _ hold (.inl rfl))
      | delete organizationId userId =>
          simp only [perform, performMembership] at hmember
          split at hmember
          · exact .inl (hkept _ (List.mem_of_mem_filter hmember) (.inl rfl))
          · exact .inl (hkept _ hmember (.inl rfl))

end Tables

/-! ## Shelves -/

/-- Where the records of a kind are stored, and which calls store which records. -/
structure Shelf (ρ : Type) where
  records : Tables → List ρ
  Stores : Call → ρ → Prop
  mem_perform : ∀ {tables : Tables} {call : Call} {record : ρ},
    record ∈ records (tables.perform call).2 → record ∈ records tables ∨ Stores call record
  shift : ∀ (world : World) (outside : Outside),
    records (world.withOutside outside).tables = records world.tables
  noRecords : ∀ {tables : Tables}, tables.HasNoRecords → records tables = []

/-- The stored organizations. -/
def Organization.shelf : Shelf Organization where
  records := Tables.organizations
  Stores call org := call = .organizations (.create org) ∨ call = .organizations (.update org)
  mem_perform := Tables.mem_organizations_perform
  shift _ _ := rfl
  noRecords hnone := hnone.organizations

/-- The stored roles. -/
def Role.shelf : Shelf Role where
  records := Tables.roles
  Stores call role := call = .roles (.create role) ∨ call = .roles (.update role)
  mem_perform := Tables.mem_roles_perform
  shift _ _ := rfl
  noRecords hnone := hnone.roles

/-- The stored invitations. -/
def Invitation.shelf : Shelf Invitation where
  records := Tables.invitations
  Stores call invitation := call = .invitations (.create invitation)
  mem_perform := Tables.mem_invitations_perform
  shift _ _ := rfl
  noRecords hnone := hnone.invitations

namespace Shelf

variable {ρ κ : Type} {shelf : Shelf ρ} {admits : World → Prop} {sound : κ → ρ → Prop}

/-- The pact that every record on a shelf is sound, by what is known. -/
def pact (shelf : Shelf ρ) (admits : World → Prop) (sound : κ → ρ → Prop) : Pact κ where
  admits := admits
  holds known world := ∀ record ∈ shelf.records world.tables, sound known record
  quiet {_ _ world} hread hsound := by
    rw [world.perform_tables_of_not_write hread]
    exact hsound
  shift {_ world outside} hsound := by
    rw [shelf.shift]
    exact hsound

/-- Without records, all of them are sound. -/
theorem begins {known : κ} {world : World} (hnone : world.tables.HasNoRecords) :
    (shelf.pact admits sound).holds known world := by
  intro record hrecord
  rw [shelf.noRecords hnone] at hrecord
  cases hrecord

/-- A call keeps the pact of a shelf if what it stores there is sound. -/
theorem keeps_call {call : Call}
    (hstored : ∀ known record, shelf.Stores call record → sound known record) :
    (shelf.pact admits sound).Keeps (.store call) := by
  intro known world hsound record hrecord
  rcases shelf.mem_perform hrecord with hold | hnew
  · exact hsound record hold
  · exact hstored known record hnew

/-- Where nothing is stored on a shelf, the pact of the shelf is kept beside any other, if soundness
lasts. -/
theorem keepsBeside [Preorder κ] {first : Pact κ} {effect : Effect}
    (hlasts : ∀ {known grown record}, known ≤ grown → sound known record → sound grown record)
    (hnone : ∀ call, effect = .store call → ∀ record, ¬shelf.Stores call record) :
    first.KeepsBeside (shelf.pact admits sound) effect := by
  intro known grown world hle _ hsound record hrecord
  cases effect with
  | store call =>
      rcases shelf.mem_perform hrecord with hold | hnew
      · exact hlasts hle (hsound record hold)
      · exact absurd hnew (hnone call rfl record)
  | clock | freshId | randomBytes | note => exact hlasts hle (hsound record hrecord)

end Shelf

/-! ## Loading -/

section Loading

variable {κ : Type} [Preorder κ] {pact : Pact κ} {known : κ}

/-- What is known of every stored organization is known of one that was found. -/
theorem Organizations.findById_reads (fact : κ → Organization → Prop)
    (hfact : ∀ known world, pact.holds known world →
      ∀ org ∈ world.tables.organizations, fact known org)
    (hlasts : ∀ {known grown org}, known ≤ grown → fact known org → fact grown org)
    (id : String) :
    (Action.ask (.organizations (.findById id))).Upholds pact
      (fun later (found : Option Organization) => ∀ org, found = some org →
        org.id = id ∧ fact later org) known := by
  refine @Action.Upholds.read _ _ pact known (.organizations (.findById id)) _ rfl
    fun later world _ holds _ found hfound last hlast org horg => ?_
  have hfind : world.tables.organizations.find? (·.id == id) = some org := by
    rw [← horg]
    exact Except.ok.inj hfound
  have hmem := List.mem_of_find?_eq_some hfind
  exact ⟨Tables.key_of_find hfind, hlasts hlast (hfact later world holds org hmem)⟩

/-- What is known of every stored organization is known of one that was loaded. -/
theorem Action.loadOrganization_reads (fact : κ → Organization → Prop)
    (hfact : ∀ known world, pact.holds known world →
      ∀ org ∈ world.tables.organizations, fact known org)
    (hlasts : ∀ {known grown org}, known ≤ grown → fact known org → fact grown org)
    (id : String) :
    (Action.loadOrganization id).Upholds pact (fun later org => org.id = id ∧ fact later org)
      known := by
  refine .bind (Organizations.findById_reads fact hfact hlasts id) fun later _ found hfound => ?_
  cases found with
  | none => exact .throw _
  | some org =>
      obtain ⟨hid, hknown⟩ := hfound org rfl
      exact .pure fun last hlast => ⟨hid, hlasts hlast hknown⟩

/-- What is known of every stored role is known of one that was loaded. -/
theorem Roles.load_reads (fact : κ → Role → Prop)
    (hfact : ∀ known world, pact.holds known world → ∀ role ∈ world.tables.roles, fact known role)
    (hlasts : ∀ {known grown role}, known ≤ grown → fact known role → fact grown role)
    (roleId : String) :
    (Roles.load roleId).Upholds pact (fun later role => role.id = roleId ∧ fact later role)
      known := by
  have hread : (Action.ask (.roles (.find roleId))).Upholds pact
      (fun later (found : Option Role) => ∀ role, found = some role →
        role.id = roleId ∧ fact later role) known := by
    refine @Action.Upholds.read _ _ pact known (.roles (.find roleId)) _ rfl
      fun later world _ holds _ found hfound last hlast role hrole => ?_
    have hfind : world.tables.roles.find? (·.id == roleId) = some role := by
      rw [← hrole]
      exact Except.ok.inj hfound
    have hmem := List.mem_of_find?_eq_some hfind
    exact ⟨Tables.key_of_find hfind, hlasts hlast (hfact later world holds role hmem)⟩
  refine .bind hread fun later _ found hfound => ?_
  cases found with
  | none => exact .throw _
  | some role =>
      obtain ⟨hid, hknown⟩ := hfound role rfl
      exact .pure fun last hlast => ⟨hid, hlasts hlast hknown⟩

end Loading
end Tenancy
