import Tenancy.Proofs.NormalForms
import Tenancy.Proofs.OrderlyRuns
import Tenancy.Proofs.Registers
import Tenancy.Proofs.Transcripts

/-!
# Tenancy - Finding organizations by the spellings of a slug

A text spells a slug when it equals the slug after trimming and lowercasing.  An
organization that was created with one spelling is found with all of them, in its
tenant and in no other, however the run goes on: the register of organizations
keeps its slug and its tenant, and no other organization of the tenant has the slug.

Main definitions:

- `Exchange.founded?`: the organization that an exchange has created.
- `Organization.IsFoundBySpellings`: an organization is found with every spelling of
  its slug in its tenant, and never in another one.

Main results:

- Theorem `Regime.Continues.founded`: an organization that was created is in the register.
- Theorem `createdOrganization_isFoundBySpellings`: whoever created an organization with a
  slug finds it with all spellings from then on; which texts spell slugs.
-/

namespace Tenancy

/-! ## Spellings -/

namespace Text.Slug

/-- A slug spells itself. -/
theorem normalize_of_normalize {limit : Nat} {text slug : String}
    (hnormal : normalize limit text = .ok slug) : normalize limit slug = .ok slug := by
  obtain ⟨rfl, htoken, hlength⟩ := normalize_eq_ok_iff.1 hnormal
  refine normalize_eq_ok_iff.2 ⟨?_, htoken, hlength⟩
  rw [trim_lowercase_trim, lowercase_lowercase]

/-- Whether a text spells a slug depends on its trimmed lowercase. -/
theorem normalize_congr {limit : Nat} {text spelling : String}
    (hspelling : lowercase (trim spelling) = lowercase (trim text)) :
    normalize limit spelling = normalize limit text := by
  rw [normalize, normalize, hspelling]

end Text.Slug

/-- The check of a slug succeeds with what its text spells. -/
theorem Limits.checkSlug_congr {limits : Limits} {text spelling : String}
    (hspelling : Text.lowercase (Text.trim spelling) = Text.lowercase (Text.trim text)) :
    limits.checkSlug spelling = limits.checkSlug text := by
  rw [checkSlug, checkSlug, Text.Slug.normalize_congr hspelling]

/-! ## Lookups -/

namespace Organizations

variable {limits : Limits} {world : World} {tenantId : Option String} {text slug : String}

/-- Looking up a text that spells a slug answers with the first organization of the tenant that has
the slug. -/
theorem runIn_getBySlug (hslug : limits.checkSlug text = .ok slug) :
    (getBySlug limits tenantId text).runIn world =
      (.ok (world.tables.organizations.find? fun org =>
        org.tenantId == tenantId && org.slug == slug), world) := by
  unfold getBySlug
  rw [hslug]
  rfl

/-- An organization that is found by a slug belongs to the tenant. -/
theorem tenantId_of_getBySlug {org : Organization} {after : World}
    (hfound : (getBySlug limits tenantId text).runIn world = (.ok (some org), after)) :
    org ∈ world.tables.organizations ∧ org.tenantId = tenantId := by
  cases hslug : limits.checkSlug text with
  | error error =>
      unfold getBySlug at hfound
      rw [hslug] at hfound
      cases hfound
  | ok slug =>
      rw [runIn_getBySlug hslug] at hfound
      have hfind := Except.ok.inj (Prod.mk.inj hfound).1
      have htenant := List.find?_some hfind
      simp only [Bool.and_eq_true, beq_iff_eq] at htenant
      exact ⟨List.mem_of_find?_eq_some hfind, htenant.1⟩

end Organizations

/-- In a world, an organization is found with every spelling of its slug in its tenant, and never in
another one. -/
structure Organization.IsFoundBySpellings (limits : Limits) (tenantId : Option String)
    (text id : String) (world : World) : Prop where
  found : ∀ spelling, Text.lowercase (Text.trim spelling) = Text.lowercase (Text.trim text) →
    ∃ org, org.id = id ∧
      (Organizations.getBySlug limits tenantId spelling).runIn world = (.ok (some org), world)
  hidden : ∀ other, other ≠ tenantId → ∀ spelling org after,
    (Organizations.getBySlug limits other spelling).runIn world = (.ok (some org), after) →
      org.id ≠ id

/-- An organization in the register is found with every spelling of its slug in its tenant, and
never in another one. -/
theorem Organization.Registers.isFoundBySpellings {register : Register Organization.Identity}
    {world : World} (registers : Organization.Registers register world.tables)
    {org : Organization} (hentry : register.entryOf org.id = some org.identity) {limits : Limits}
    {text : String} (hslug : limits.checkSlug text = .ok org.slug) :
    Organization.IsFoundBySpellings limits org.tenantId text org.id world where
  found spelling hspelling := by
    rw [Organizations.runIn_getBySlug ((Limits.checkSlug_congr hspelling).trans hslug)]
    obtain ⟨stored, hstored, -, hidentity⟩ := registers.exists_stored hentry
    have htenant : stored.tenantId = org.tenantId := congrArg Identity.tenantId hidentity
    have hsame : stored.slug = org.slug := congrArg Identity.slug hidentity
    cases hfind : world.tables.organizations.find? fun other =>
        other.tenantId == org.tenantId && other.slug == org.slug with
    | none =>
        have hmissed := List.find?_eq_none.1 hfind stored hstored
        simp [htenant, hsame] at hmissed
    | some holder =>
        -- Whoever has the slug in the tenant is the organization itself.
        have hholder := List.find?_some hfind
        simp only [Bool.and_eq_true, beq_iff_eq] at hholder
        have hrecorded := registers.recorded holder (List.mem_of_find?_eq_some hfind)
        exact ⟨holder, registers.apart _ _ _ _ hrecorded hentry hholder.1 hholder.2, rfl⟩
  hidden other hother spelling found after hfound := by
    rintro hid
    obtain ⟨hstored, htenant⟩ := Organizations.tenantId_of_getBySlug hfound
    have hrecorded := registers.recorded found hstored
    rw [hid, hentry] at hrecorded
    have hidentity := Option.some.inj hrecorded
    exact hother (htenant.symm.trans (congrArg Identity.tenantId hidentity).symm)

/-! ## Creation -/

/-- The organization that was created. -/
def Exchange.founded? : Exchange → Option Organization
  | ⟨.store (.organizations (.create org)), .ok ()⟩ => some org
  | _ => none

/-- An organization that was created is stored. -/
theorem World.mem_of_founded {effect : Effect} {world : World} {org : Organization}
    (hfounded : Exchange.founded? ⟨effect, (World.perform effect world).1⟩ = some org) :
    org ∈ (World.perform effect world).2.tables.organizations := by
  match effect with
  | .store (.organizations (.create created)) =>
    simp only [World.perform, World.callStore, Tables.perform, Tables.performOrganization]
      at hfounded ⊢
    split at hfounded
    · cases hfounded
    · split at hfounded
      · cases hfounded
      · rename_i hnew hfree
        obtain rfl : created = org := Option.some.inj hfounded
        simp [hnew, hfree]
  | .store (.organizations (.findById _)) | .store (.organizations (.findBySlug _ _))
  | .store (.organizations (.findByDisplayName _ _)) | .store (.organizations (.list _))
  | .store (.organizations (.update _)) | .store (.memberships _) | .store (.roles _)
  | .store (.invitations _) | .store (.directory _) | .store (.catalog _)
  | .clock | .freshId | .randomBytes | .note _ => cases hfounded

/-- Whoever is told that an organization was created has created it, in the tenant that was asked
for and with the slug that was spelled. -/
theorem Organizations.create_founds (limits : Limits) (draft : Organization.Draft) :
    (Organizations.create limits draft).Leaves Exchange.founded? fun founded org =>
      founded = [org] ∧ org.tenantId = draft.tenantId ∧
        limits.checkSlug draft.slug = .ok org.slug := by
  refine .afterUses (.checked _) fun slug hslug => .afterUses (.check _) fun displayName _ =>
    .afterUses (.check _) fun _ _ => ?_
  refine .afterUses (.ask fun _ => rfl) fun sameSlug _ => .afterUses (.require _ _) fun _ _ => ?_
  refine .afterUses (.ask fun _ => rfl) fun sameName _ => .afterUses (.require _ _) fun _ _ => ?_
  refine .afterUses (.now fun _ => rfl) fun now _ => .afterUses (.freshId fun _ => rfl)
    fun id _ => ?_
  have hfounds : ∀ org, (Action.ask (.organizations (.create org))).Leaves Exchange.founded?
      fun founded _ => founded = [org] := fun org => .ask fun _ _ _ => rfl
  refine .bind (hfounds _) ?_
  rintro _ _ rfl
  exact .afterUses (.note fun _ => rfl) fun _ _ => .pure ⟨rfl, rfl, hslug⟩

/-- An organization that was created in a run is in the register from then on. -/
theorem Regime.Continues.founded {regime : Regime} {world : World} {before after : Configuration}
    {org : Organization} (starts : regime.Starts world) (reaches : regime.Reaches world before)
    (continues : regime.Continues before after)
    (hfounded : org ∈ before.readings Exchange.founded?) :
    ∃ register, Organization.Registers register after.world.tables ∧
      register.entryOf org.id = some org.identity := by
  obtain ⟨event, hevent, hread⟩ := List.mem_filterMap.1 hfounded
  obtain ⟨middle, exchanges⟩ := reaches.exists_exchanges hevent
  have hstored : org ∈ (middle.advance event.task).world.tables.organizations := by
    rw [exchanges.performed]
    refine World.mem_of_founded ?_
    rw [exchanges.reply]
    exact hread
  exact Regime.Continues.registered starts (exchanges.reaches.step exchanges.step)
    (exchanges.continues.trans continues) hstored

/-- An organization that was created with a slug is in the readings of the run, in the tenant that
was asked for and with the slug that was spelled. -/
theorem Regime.Reaches.created {regime : Regime} {world : World} {config : Configuration}
    {limits : Limits} {draft : Organization.Draft} {org : Organization} {index : Nat}
    (deployed : ∀ deployment, regime.deploys deployment → deployment.limits = limits)
    (reaches : regime.Reaches world config)
    (htask : config.tasks[index]? = some ⟨.createOrganization draft, .done (.ok org)⟩) :
    org ∈ config.readings Exchange.founded? ∧ org.tenantId = draft.tenantId ∧
      limits.checkSlug draft.slug = .ok org.slug := by
  have leaves : ∀ deployment, regime.deploys deployment →
      ((Operation.createOrganization draft).action deployment).Leaves Exchange.founded?
        fun founded org => founded = [org] ∧ org.tenantId = draft.tenantId ∧
          limits.checkSlug draft.slug = .ok org.slug := by
    intro deployment hdeploys
    rw [← deployed deployment hdeploys]
    exact Organizations.create_founds deployment.limits draft
  obtain ⟨hfounded, hfacts⟩ := reaches.recorded.leavesUnder reaches.followsUnder leaves htask
  refine ⟨?_, hfacts⟩
  have hread : org ∈ (transcriptOf config.history index).filterMap Exchange.founded? := by
    rw [hfounded]
    exact List.mem_singleton_self org
  obtain ⟨exchange, hexchange, hcreated⟩ := List.mem_filterMap.1 hread
  exact List.mem_filterMap.2 ⟨_, mem_history_of_mem_transcriptOf hexchange, hcreated⟩

/-- In a run under one configuration of limits, an organization that was created with a slug is
found with every spelling of it in its tenant, and never in another one, from then on.  A text
spells a slug exactly if its trimmed lowercase is a token that is not too long; that is the slug,
and it spells itself. -/
theorem createdOrganization_isFoundBySpellings :
    (∀ {regime : Regime} {world : World} {before after : Configuration} {limits : Limits}
      (draft : Organization.Draft) (org : Organization) (index : Nat),
      regime.Starts world → (∀ deployment, regime.deploys deployment → deployment.limits = limits) →
      regime.Reaches world before →
      before.tasks[index]? = some ⟨.createOrganization draft, .done (.ok org)⟩ →
      regime.Continues before after →
      Organization.IsFoundBySpellings limits draft.tenantId draft.slug org.id after.world) ∧
    ∀ limit text slug,
      (Text.Slug.normalize limit text = .ok slug ↔
        slug = Text.lowercase (Text.trim text) ∧ Text.Slug.IsToken slug.toList ∧
          Text.length slug ≤ limit) ∧
      (Text.Slug.normalize limit text = .ok slug → Text.Slug.normalize limit slug = .ok slug) := by
  refine ⟨?_, fun limit text slug =>
    ⟨Text.Slug.normalize_eq_ok_iff, Text.Slug.normalize_of_normalize⟩⟩
  intro regime world before after limits draft org index starts deployed reaches htask continues
  obtain ⟨hmem, htenant, hslug⟩ := reaches.created deployed htask
  obtain ⟨register, registers, hentry⟩ := Regime.Continues.founded starts reaches continues hmem
  rw [← htenant]
  exact registers.isFoundBySpellings hentry hslug

/-- An organization is created with a slug that begins with a Kelvin sign, then renamed and
archived.  It is found with a capital K in that place, and never in the global scope. -/
theorem createdOrganization_isFoundBySpellings_kelvin :
    ∃ before after draft org, draft.slug = " \u212Aiel.1" ∧
      (Regime.uniform default).Reaches (World.blank []) before ∧
      before.tasks[0]? = some ⟨.createOrganization draft, .done (.ok org)⟩ ∧
      (Regime.uniform default).Continues before after ∧
      (after.world.tables.organizations.map fun org => (org.displayName, org.status)) =
        [("South", .archived)] ∧
      (∃ found, found.id = org.id ∧
        (Organizations.getBySlug (default : Deployment).limits (some "t") "KIEL.1 ").runIn
          after.world = (.ok (some found), after.world)) ∧
      ∀ spelling found last,
        (Organizations.getBySlug (default : Deployment).limits none spelling).runIn after.world =
          (.ok (some found), last) → found.id ≠ org.id := by
  have starts : (Regime.uniform default).Starts (World.blank []) :=
    Regime.uniform_starts_blank default (by simp)
  have reaches := Regime.uniform_scheduled starts
    [.createOrganization
      { slug := " \u212Aiel.1", displayName := "North", tenantId := some "t", metadata := .empty }]
    (List.replicate 9 0)
  have continues := Regime.uniform_continues starts reaches
    [.updateOrganization "a"
      { displayName := some "South", metadata := none, status := some .archived }]
    (List.replicate 9 1)
  have isFound := createdOrganization_isFoundBySpellings.1
    { slug := " \u212Aiel.1", displayName := "North", tenantId := some "t", metadata := .empty }
    { id := "a", tenantId := some "t", slug := "kiel.1", displayName := "North"
      metadata := .empty, status := .active, createdAt := 0, updatedAt := 0, archivedAt := none }
    0 starts (by rintro _ rfl; exact rfl) reaches (by rfl) continues
  refine ⟨_, _, _, _, rfl, reaches, by rfl, continues, by decide +kernel, ?_⟩
  exact ⟨isFound.found _ (by decide +kernel), isFound.hidden none nofun⟩

end Tenancy
