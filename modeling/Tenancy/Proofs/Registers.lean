import Tenancy.Proofs.OrganizationEdits

/-!
# Tenancy - The register of organizations

An organization is never deleted, and whatever is written in its place has the
tenant, the slug and the creation time that the organization was created with.  A
register remembers these for every organization there has been.  No two entries
have the slug of one tenant: the store refuses a new organization whose slug is
taken, and an update does not look at slugs but cannot change them either.

Main definitions:

- `Register`: what has been entered under ids for good.
- `Organization.Identity`: what an organization keeps for good.
- `Organization.Registers`: a register of all stored organizations.
- `Organization.registerPact`: the pact that says so.

Main results:

- Theorem `Organization.Registers.perform_create`: a new organization is entered.
- Theorem `Operation.action_registers`: every operation upholds the pact.
- Theorem `Regime.Continues.registers`: the register of a run only grows.
- Theorem `Regime.Continues.registered`: organizations that were stored once are in it.
-/

namespace Tenancy

/-! ## Registers -/

/-- What has been entered under ids for good. -/
structure Register (ι : Type) where
  entryOf : String → Option ι

namespace Register

variable {ι : Type} {register grown : Register ι} {id : String} {entry : ι}

/-- The register without entries. -/
def empty : Register ι where
  entryOf _ := none

/-- A register is below another that has all its entries. -/
instance : Preorder (Register ι) where
  le a b := ∀ id entry, a.entryOf id = some entry → b.entryOf id = some entry
  le_refl _ _ _ h := h
  le_trans _ _ _ hab hbc id entry h := hbc id entry (hab id entry h)

/-- A larger register has every entry. -/
theorem entryOf_of_le (hle : register ≤ grown) (hentry : register.entryOf id = some entry) :
    grown.entryOf id = some entry :=
  hle id entry hentry

/-- The register with one more entry. -/
def enter (register : Register ι) (id : String) (entry : ι) : Register ι where
  entryOf other := if other = id then some entry else register.entryOf other

@[simp]
theorem entryOf_enter_self : (register.enter id entry).entryOf id = some entry :=
  if_pos rfl

@[simp]
theorem entryOf_enter_of_ne {other : String} (hne : other ≠ id) :
    (register.enter id entry).entryOf other = register.entryOf other :=
  if_neg hne

/-- A new entry leaves the others as they are. -/
theorem le_enter (hnew : register.entryOf id = none) : register ≤ register.enter id entry := by
  intro other old hold
  have hne : other ≠ id := by
    rintro rfl
    rw [hnew] at hold
    cases hold
  rw [entryOf_enter_of_ne hne]
  exact hold

end Register

/-! ## The register of organizations -/

namespace Organization

/-- What an organization keeps for good, besides its id. -/
structure Identity where
  tenantId : Option String
  slug : String
  createdAt : Nat
deriving DecidableEq

/-- What the organization keeps for good. -/
def identity (org : Organization) : Identity where
  tenantId := org.tenantId
  slug := org.slug
  createdAt := org.createdAt

/-- An edit keeps the id. -/
@[simp]
theorem edited_id (org : Organization) (patch : Patch) (now : Nat) :
    (org.edited patch now).id = org.id :=
  rfl

/-- An edit keeps the identity. -/
@[simp]
theorem edited_identity (org : Organization) (patch : Patch) (now : Nat) :
    (org.edited patch now).identity = org.identity :=
  rfl

/-- A register has the identity of every stored organization and nothing else, and no two entries
have the slug of one tenant. -/
structure Registers (register : Register Identity) (tables : Tables) : Prop where
  recorded : ∀ org ∈ tables.organizations, register.entryOf org.id = some org.identity
  stored : ∀ id identity, register.entryOf id = some identity →
    ∃ org ∈ tables.organizations, org.id = id
  apart : ∀ a b first second, register.entryOf a = some first → register.entryOf b = some second →
    first.tenantId = second.tenantId → first.slug = second.slug → a = b

namespace Registers

variable {register : Register Identity} {tables : Tables} {org : Organization}

/-- The empty register is that of a store without records. -/
theorem empty (hnone : tables.HasNoRecords) : Registers .empty tables where
  recorded := by simp [hnone.organizations]
  stored := by simp [Register.empty]
  apart := by simp [Register.empty]

/-- The store keeps the register when organizations stay the same. -/
theorem of_organizations_eq {after : Tables} (registers : Registers register tables)
    (hsame : after.organizations = tables.organizations) : Registers register after where
  recorded := hsame ▸ registers.recorded
  stored := hsame ▸ registers.stored
  apart := registers.apart

/-- An entry is the identity of a stored organization. -/
theorem exists_stored (registers : Registers register tables) {id : String} {identity : Identity}
    (hentry : register.entryOf id = some identity) :
    ∃ org ∈ tables.organizations, org.id = id ∧ org.identity = identity := by
  obtain ⟨org, horg, hid⟩ := registers.stored id identity hentry
  have hrecorded := registers.recorded org horg
  rw [hid, hentry] at hrecorded
  exact ⟨org, horg, hid, (Option.some.inj hrecorded).symm⟩

/-- An organization that is stored under a new id and a free slug is entered. -/
theorem enter (registers : Registers register tables)
    (hfresh : register.entryOf org.id = none)
    (hfree : ∀ id identity, register.entryOf id = some identity →
      identity.tenantId = org.tenantId → identity.slug ≠ org.slug) :
    Registers (register.enter org.id org.identity)
      { tables with organizations := tables.organizations ++ [org] } where
  recorded other hother := by
    rcases List.mem_append.1 hother with hold | hadded
    · exact Register.entryOf_of_le (Register.le_enter hfresh) (registers.recorded other hold)
    · rw [List.mem_singleton.1 hadded, Register.entryOf_enter_self]
  stored id identity hentry := by
    by_cases hid : id = org.id
    · exact ⟨org, by simp, hid.symm⟩
    · rw [Register.entryOf_enter_of_ne hid] at hentry
      obtain ⟨other, hother, hsame⟩ := registers.stored id identity hentry
      exact ⟨other, List.mem_append_left _ hother, hsame⟩
  apart a b first second hfirst hsecond htenant hslug := by
    by_cases ha : a = org.id <;> by_cases hb : b = org.id
    · exact ha.trans hb.symm
    · rw [ha, Register.entryOf_enter_self] at hfirst
      rw [Register.entryOf_enter_of_ne hb] at hsecond
      obtain rfl := Option.some.inj hfirst
      exact absurd hslug.symm (hfree b second hsecond htenant.symm)
    · rw [hb, Register.entryOf_enter_self] at hsecond
      rw [Register.entryOf_enter_of_ne ha] at hfirst
      obtain rfl := Option.some.inj hsecond
      exact absurd hslug (hfree a first hfirst htenant)
    · rw [Register.entryOf_enter_of_ne ha] at hfirst
      rw [Register.entryOf_enter_of_ne hb] at hsecond
      exact registers.apart a b first second hfirst hsecond htenant hslug

/-- A new organization is entered. -/
theorem perform_create (registers : Registers register tables) (org : Organization) :
    ∃ grown, register ≤ grown ∧
      Registers grown (tables.perform (.organizations (.create org))).2 := by
  simp only [Tables.perform, Tables.performOrganization]
  split
  · exact ⟨register, le_rfl, registers⟩
  · rename_i hnew
    split
    · exact ⟨register, le_rfl, registers⟩
    · rename_i htaken
      have hfresh : register.entryOf org.id = none := by
        cases hentry : register.entryOf org.id with
        | none => rfl
        | some identity =>
            obtain ⟨other, hother, hid⟩ := registers.stored _ _ hentry
            exact absurd (List.any_eq_true.2 ⟨other, hother, by simp [hid]⟩) hnew
      -- An entry with the slug of the new organization would be that of a stored one.
      have hfree : ∀ id identity, register.entryOf id = some identity →
          identity.tenantId = org.tenantId → identity.slug ≠ org.slug := by
        intro id identity hentry htenant hslug
        obtain ⟨other, hother, -, rfl⟩ := registers.exists_stored hentry
        exact htaken (List.any_eq_true.2 ⟨other, hother, by
          rw [show other.tenantId = org.tenantId from htenant,
            show other.slug = org.slug from hslug]
          simp⟩)
      exact ⟨_, Register.le_enter hfresh, registers.enter hfresh hfree⟩

/-- An organization may be written in place of one with its identity. -/
theorem perform_update (registers : Registers register tables)
    (hentry : register.entryOf org.id = some org.identity) :
    Registers register (tables.perform (.organizations (.update org))).2 := by
  simp only [Tables.perform, Tables.performOrganization]
  split
  · exact registers
  · split
    · rename_i hstored
      have hid : org.id ∈ tables.organizations.map (·.id) := by simpa using hstored
      refine ⟨?_, ?_, registers.apart⟩
      · intro other hother
        rcases Tables.mem_put hother with rfl | hold
        · exact hentry
        · exact registers.recorded other hold
      · intro id identity hknown
        obtain ⟨other, hother, rfl⟩ := registers.stored id identity hknown
        have hkeys : (Tables.put (·.id) org tables.organizations).map (·.id) =
            tables.organizations.map (·.id) := Tables.map_key_put hid
        have hmem : other.id ∈ (Tables.put (·.id) org tables.organizations).map (·.id) := by
          rw [hkeys]
          exact List.mem_map_of_mem hother
        simpa using hmem
    · exact registers

/-- Organizations with distinct ids have distinct slugs within each tenant. -/
theorem nodup_slugs (registers : Registers register tables) (distinct : tables.HasDistinctKeys) :
    (tables.organizations.map fun org => (org.tenantId, org.slug)).Nodup := by
  refine List.Nodup.map_on ?_ distinct.organizations.of_map
  intro a ha b hb hsame
  obtain ⟨htenant, hslug⟩ := Prod.mk.inj hsame
  have hid : a.id = b.id := registers.apart _ _ _ _ (registers.recorded a ha)
    (registers.recorded b hb) htenant hslug
  exact Tables.eq_of_key_eq distinct.organizations ha hb hid

end Registers

/-! ## The pact of the register -/

/-- The pact of the register of organizations. -/
def registerPact : Pact (Register Identity) where
  admits _ := True
  holds register world := Registers register world.tables
  quiet {_ _ world} hread registers := by
    rw [world.perform_tables_of_not_write hread]
    exact registers
  shift registers := registers.of_organizations_eq rfl

/-- Calls that are not about organizations keep the pact. -/
theorem registerPact_keeps_call {call : Call}
    (hother : ∀ organizationCall, call ≠ .organizations organizationCall) :
    registerPact.Keeps (.store call) :=
  fun _ _ registers => Registers.of_organizations_eq registers (Tables.perform_organizations hother)

end Organization

/-! ## All operations -/

open Organization

variable {known : Register Organization.Identity}

/-- An organization that was loaded has its identity for good. -/
theorem Action.loadOrganization_registers (id : String) :
    (Action.loadOrganization id).Upholds registerPact
      (fun later org => later.entryOf org.id = some org.identity) known := by
  refine .mono (Action.loadOrganization_reads
    (fun later org => later.entryOf org.id = some org.identity) ?_ ?_ id) ?_
  · exact fun _ _ registers => Registers.recorded registers
  · exact fun hle hentry => Register.entryOf_of_le hle hentry
  · exact fun _ _ hread => hread.2

/-- Storing a new organization upholds the pact: it is entered. -/
theorem Action.createOrganization_registers (org : Organization) :
    (Action.ask (.organizations (.create org))).Upholds registerPact (fun _ _ => True) known := by
  refine @Action.Upholds.ask _ _ registerPact known (.organizations (.create org)) _
    fun later world _ registers _ => ?_
  obtain ⟨grown, hle, hgrown⟩ := Registers.perform_create registers org
  exact ⟨grown, hle, hgrown, fun _ _ _ _ => trivial⟩

/-- A new organization is entered. -/
theorem Organizations.create_registers (limits : Limits) (draft : Organization.Draft) :
    (Organizations.create limits draft).Upholds registerPact (fun _ _ => True) known := by
  have quiet := registerPact.keeps_quiet
  refine .check fun slug _ => .check fun displayName _ => .check fun _ _ => ?_
  refine .afterUses (.ask (quiet _ rfl)) fun _ _ sameSlug _ => .require fun _ => ?_
  refine .afterUses (.ask (quiet _ rfl)) fun _ _ sameName _ => .require fun _ => ?_
  refine .afterUses (.now (quiet _ rfl)) fun _ _ now _ =>
    .afterUses (.freshId (quiet _ rfl)) fun drawn _ id _ => ?_
  exact .bind (Action.createOrganization_registers _) fun _ _ _ _ =>
    .afterUses (.note (quiet _ rfl)) fun _ _ _ _ => .pure fun _ _ => trivial

/-- An updated organization keeps its identity. -/
theorem Organizations.update_registers (limits : Limits) (id : String)
    (patch : Organization.Patch) :
    (Organizations.update limits id patch).Upholds registerPact (fun _ _ => True) known := by
  refine Organizations.update_upholds_of (Action.loadOrganization_registers id)
    (fun hle hentry => Register.entryOf_of_le hle hentry) ?_
  intro later org now hentry _ grown world hle registers
  have hkept : grown.entryOf (org.edited patch now).id = some (org.edited patch now).identity := by
    rw [edited_id, edited_identity]
    exact Register.entryOf_of_le hle hentry
  exact Registers.perform_update registers hkept

/-- Every operation upholds the pact of the register. -/
theorem Operation.action_registers (deployment : Deployment) (operation : Operation) :
    (operation.action deployment).Upholds registerPact (fun _ _ => True) known := by
  cases operation with
  | createOrganization draft => exact Organizations.create_registers _ draft
  | updateOrganization id patch => exact Organizations.update_registers _ id patch
  | archiveOrganization id => exact Organizations.update_registers _ id .archive
  | _ =>
      refine Operation.upholds_of_writes _ _ fun call hmay => ?_
      cases hmay <;> exact registerPact_keeps_call (by rintro _ ⟨⟩)

/-- In every reachable world there is a register of the organizations. -/
theorem Regime.Reaches.registers {regime : Regime} {world : World} {config : Configuration}
    (starts : regime.Starts world) (reaches : regime.Reaches world config) :
    ∃ register, registerPact.IsKept register config :=
  reaches.upholds (fun _ _ => trivial) (Registers.empty starts.noRecords)
    fun deployment operation _ _ => operation.action_registers deployment

/-- However a run goes on, its register only grows. -/
theorem Regime.Continues.registers {regime : Regime} {before after : Configuration}
    (continues : regime.Continues before after) (kept : registerPact.IsKept known before) :
    ∃ grown, known ≤ grown ∧ registerPact.IsKept grown after :=
  continues.keeps (fun _ _ => trivial)
    (fun deployment operation _ _ => operation.action_registers deployment) kept

/-- An organization that was stored at some point of a run is in the register from then on. -/
theorem Regime.Continues.registered {regime : Regime} {world : World}
    {before after : Configuration} {org : Organization} (starts : regime.Starts world)
    (reaches : regime.Reaches world before) (continues : regime.Continues before after)
    (hmem : org ∈ before.world.tables.organizations) :
    ∃ register, Registers register after.world.tables ∧
      register.entryOf org.id = some org.identity := by
  obtain ⟨known, hbefore⟩ := reaches.registers starts
  obtain ⟨grown, hle, hafter⟩ := continues.registers hbefore
  exact ⟨grown, hafter.holds, Register.entryOf_of_le hle (hbefore.holds.recorded org hmem)⟩

end Tenancy
