import Tenancy.Proofs.FailClosedResolution
import Tenancy.Proofs.OrderlyRuns
import Tenancy.Proofs.OrganizationEdits

/-!
# Tenancy - The two hooks of a token

A token names the ambient organization and carries permissions, and another hook tells
what the ambient organization adds to the permissions that a user holds everywhere.  The
second hook takes the organization as it is named.  The claims trim the name first, so
they carry the permissions of the organization whose id is the trimmed name, under a
claim that names it untrimmed.  Ids of organizations are trimmed if fresh ids are, so
under a name with blanks around it the second hook adds nothing.

Main definitions:

- `Organization.tidyPact`: fresh ids and ids of organizations are tidy.
- `Context.resolvedId`: the organization whose permissions the claims carry.
- `World.HooksCompare`: what the two hooks return, and how they compare.

Main results:

- Theorem `Regime.Reaches.tidyOrganizations`: in every reachable world, organizations have
  tidy ids if fresh ids are tidy.
- Theorem `hooks_agree_iff`: when the two hooks agree.
- Theorem `not_hooks_agree_padded`: under a padded id they need not.
-/

namespace Tenancy

/-! ## Organizations have tidy ids -/

namespace Organization

/-- The pact that all fresh ids are tidy, and so are the ids of stored organizations. -/
def tidyPact : Pact Unit where
  admits _ := True
  holds _ world :=
    (∀ n, Text.IsTidy (world.supply.ids n)) ∧
      ∀ org ∈ world.tables.organizations, Text.IsTidy org.id
  quiet {_ effect world} hread htidy := by
    rw [World.perform_ids, world.perform_tables_of_not_write hread]
    exact htidy
  shift htidy := htidy

/-- A call keeps the pact if the organization that it stores has a tidy id. -/
theorem tidyPact_keeps_call {call : Call}
    (hstored : ∀ org, shelf.Stores call org → Text.IsTidy org.id) :
    tidyPact.Keeps (.store call) := by
  intro _ world htidy
  refine ⟨htidy.1, fun org horg => ?_⟩
  rcases shelf.mem_perform horg with hold | hnew
  · exact htidy.2 org hold
  · exact hstored org hnew

/-- An organization with a tidy id may be stored as a new one. -/
theorem tidyPact_keeps_create {org : Organization} (htidy : Text.IsTidy org.id) :
    tidyPact.Keeps (.store (.organizations (.create org))) := by
  refine tidyPact_keeps_call ?_
  rintro _ (⟨⟨⟩⟩ | ⟨⟨⟩⟩)
  exact htidy

/-- An organization with a tidy id may be written in place of another. -/
theorem tidyPact_keeps_update {org : Organization} (htidy : Text.IsTidy org.id) :
    tidyPact.Keeps (.store (.organizations (.update org))) := by
  refine tidyPact_keeps_call ?_
  rintro _ (⟨⟨⟩⟩ | ⟨⟨⟩⟩)
  exact htidy

end Organization

open Organization

/-- A new organization has a tidy id. -/
theorem Organizations.create_tidy (limits : Limits) (draft : Organization.Draft) {known : Unit} :
    (Organizations.create limits draft).Upholds tidyPact (fun _ _ => True) known := by
  have quiet := tidyPact.keeps_quiet
  refine .check fun slug _ => .check fun displayName _ => .check fun _ _ => ?_
  refine .afterUses (.ask (quiet _ rfl)) fun _ _ sameSlug _ => .require fun _ => ?_
  refine .afterUses (.ask (quiet _ rfl)) fun _ _ sameName _ => .require fun _ => ?_
  refine .afterUses (.now (quiet _ rfl)) fun _ _ now _ => ?_
  have hdraws : Action.freshId.Upholds tidyPact (fun _ id => Text.IsTidy id) known :=
    .freshId fun later world _ htidy _ => ⟨later, le_rfl, htidy, fun _ _ => htidy.1 _⟩
  refine .bind hdraws fun _ _ id hid => .ofUses ?_
  exact .andThen (.ask (tidyPact_keeps_create hid)) fun _ =>
    .andThen (.note (quiet _ rfl)) fun _ => .pure trivial

/-- An updated organization keeps its tidy id. -/
theorem Organizations.update_tidy (limits : Limits) (id : String) (patch : Organization.Patch)
    {known : Unit} :
    (Organizations.update limits id patch).Upholds tidyPact (fun _ _ => True) known := by
  have hstored : ∀ later world, tidyPact.holds later world →
      ∀ org ∈ world.tables.organizations, Text.IsTidy org.id := fun _ _ holds => holds.2
  have hload : (Action.loadOrganization id).Upholds tidyPact (fun _ org => Text.IsTidy org.id)
      known :=
    .mono (Action.loadOrganization_reads (fun _ org => Text.IsTidy org.id) hstored
      (fun _ htidy => htidy) id) fun _ _ hread => hread.2
  refine Organizations.update_upholds_of hload (fun _ htidy => htidy) ?_
  intro _ org now htidy _ later world _ holds
  have hedited : Text.IsTidy (org.edited patch now).id := htidy
  exact tidyPact_keeps_update hedited later world holds

/-- Every operation upholds the pact of tidy ids. -/
theorem Operation.action_tidyOrganizations (deployment : Deployment) (operation : Operation)
    (known : Unit) : (operation.action deployment).Upholds tidyPact (fun _ _ => True) known := by
  cases operation with
  | createOrganization draft => exact Organizations.create_tidy _ draft
  | updateOrganization id patch => exact Organizations.update_tidy _ id patch
  | archiveOrganization id => exact Organizations.update_tidy _ id .archive
  | _ =>
      refine Operation.upholds_of_writes _ _ fun call hmay =>
        tidyPact_keeps_call fun org hstored => ?_
      rcases hstored with rfl | rfl <;> cases hmay

section Runs

variable {regime : Regime} {world : World} {config : Configuration}

/-- If fresh ids are tidy, organizations have tidy ids in every reachable world. -/
theorem Regime.Reaches.tidyOrganizations (starts : regime.Starts world)
    (reaches : regime.Reaches world config) (tidy : ∀ n, Text.IsTidy (world.supply.ids n)) :
    ∀ org ∈ config.world.tables.organizations, Text.IsTidy org.id := by
  have begins : tidyPact.holds () world := by
    refine ⟨tidy, ?_⟩
    simp [starts.noRecords.organizations]
  obtain ⟨_, holds, -⟩ := reaches.upholds (fun _ _ => trivial) begins
    fun deployment operation known _ => operation.action_tidyOrganizations deployment known
  exact holds.2

/-- So no one is a member under an id that is not tidy, if ids never repeat. -/
theorem Regime.Reaches.resolved_of_not_tidy (starts : regime.Starts world)
    (reaches : regime.Reaches world config)
    (distinct : ∀ world, regime.admits world → world.supply.DistinctIds)
    (tidy : ∀ n, Text.IsTidy (world.supply.ids n)) {organizationId : String}
    (huntidy : ¬Text.IsTidy organizationId) (userId : String) :
    config.world.tables.resolved organizationId userId = [] := by
  obtain ⟨ledger, describes⟩ := reaches.described starts distinct
  unfold Tables.resolved
  split
  · rfl
  · rename_i member hfind
    obtain ⟨hmember, hkey⟩ := Tables.find_isMemberOf hfind
    obtain ⟨org, horg⟩ := describes.find_organization hmember
    have hid : org.id = organizationId :=
      (Tables.key_of_find horg).trans (Prod.ext_iff.1 hkey).1
    have htidy := reaches.tidyOrganizations starts tidy org (List.mem_of_find?_eq_some horg)
    exact absurd (hid ▸ htidy) huntidy

end Runs

/-! ## Names up to case -/

namespace Permission

/-- What names come to when they are trimmed and compared up to case. -/
def keys (names : List String) : List String :=
  (normalize names).map Text.lowercase

variable {names others : List String}

/-- Keys are the same if they have the same elements. -/
theorem keys_eq_iff : keys names = keys others ↔ ∀ key, key ∈ keys names ↔ key ∈ keys others := by
  constructor
  · intro hsame key
    rw [hsame]
  · intro hsame
    apply lowercase_normalize_ext
    simpa only [keys, mem_lowercase_normalize] using hsame

/-- Names together have the keys of each. -/
theorem mem_keys_append {key : String} :
    key ∈ keys (names ++ others) ↔ key ∈ keys names ∨ key ∈ keys others := by
  simp only [keys, mem_lowercase_normalize, Text.trimmedTexts, List.map_append,
    List.filter_append, List.mem_append]

@[simp]
theorem keys_nil : keys [] = [] := by
  simp [keys, normalize, Text.trimmedTexts, Text.keepFirst]

/-- Normalizing keeps the keys. -/
theorem keys_normalize (names : List String) : keys (normalize names) = keys names := by
  rw [keys, keys, normalize_normalize]

end Permission

/-! ## What the hooks return -/

/-- The organization whose permissions the claims carry: the one that is named, trimmed. -/
def Context.resolvedId (context : Context) : Option String :=
  (context.organizationId.map Text.trim).filter (· != "")

/-- A name that is not trimmed names another organization, or none. -/
theorem Context.resolvedId_eq_iff {context : Context} {organizationId : String}
    (hnamed : context.organizationId = some organizationId) :
    context.resolvedId = context.organizationId ↔ Text.IsTidy organizationId := by
  rw [resolvedId, hnamed, Option.map_some, Option.filter_eq_some_iff, Option.some.injEq]
  constructor
  · rintro ⟨htrim, hne⟩
    exact ⟨htrim, by simpa using hne⟩
  · intro htidy
    exact ⟨htidy.trim, by simpa using htidy.ne⟩

namespace Tables

/-- What the ambient organization adds to the permissions of a user. -/
def added (tables : Tables) (userId : String) (context : Context) : List String :=
  match context.organizationId with
  | none => []
  | some organizationId => tables.resolved organizationId userId

/-- The names that the claims are made of. -/
def rendered (tables : Tables) (userId : String) (context : Context) : List String :=
  Permission.normalize
    (tables.heldEverywhere userId ++ tables.resolvedNamed userId context.organizationId)

/-- The claims carry what is held everywhere and in the organization that is named, trimmed. -/
theorem mem_keys_rendered {tables : Tables} {userId key : String} {context : Context} :
    key ∈ Permission.keys (tables.rendered userId context) ↔
      key ∈ Permission.keys (tables.heldEverywhere userId) ∨
        ∃ organizationId, context.resolvedId = some organizationId ∧
          key ∈ Permission.keys (tables.resolved organizationId userId) := by
  rw [rendered, Permission.keys_normalize, Permission.mem_keys_append]
  refine or_congr Iff.rfl ?_
  unfold resolvedNamed
  change key ∈ Permission.keys (match context.resolvedId with
    | none => []
    | some organizationId => tables.resolved organizationId userId) ↔ _
  cases context.resolvedId with
  | none => simp
  | some organizationId => simp

/-- Under a name that is trimmed, the ambient organization adds what the claims carry of it. -/
theorem mem_keys_added {tables : Tables} {userId key : String} {context : Context}
    (htrimmed : context.resolvedId = context.organizationId) :
    key ∈ Permission.keys (tables.added userId context) ↔
      ∃ organizationId, context.resolvedId = some organizationId ∧
        key ∈ Permission.keys (tables.resolved organizationId userId) := by
  rw [htrimmed]
  unfold added
  cases context.organizationId with
  | none => simp
  | some organizationId => simp

/-- Under another name it adds nothing, if nothing is held under names that are not tidy. -/
theorem added_of_not_trimmed {tables : Tables} {userId : String} {context : Context}
    (huntidy : ∀ organizationId, ¬Text.IsTidy organizationId →
      tables.resolved organizationId userId = [])
    (htrimmed : context.resolvedId ≠ context.organizationId) :
    tables.added userId context = [] := by
  unfold added
  split
  · rfl
  · rename_i organizationId hnamed
    exact huntidy organizationId fun htidy =>
      htrimmed ((Context.resolvedId_eq_iff hnamed).2 htidy)

end Tables

/-- The hook for additional permissions returns what the ambient organization adds. -/
theorem Resolution.runIn_additional (world : World) (userId : String) (context : Context) :
    (Resolution.additional userId context).runIn world =
      (.ok (world.tables.added userId context), world) := by
  unfold Resolution.additional Tables.added
  cases context.organizationId with
  | none => exact Action.runIn_pure _ _
  | some organizationId => exact Resolution.runIn_inOrganization world organizationId userId

/-- The hook for claims returns the claims of the rendered names. -/
theorem Resolution.runIn_claims (world : World) (userId : String) (tenantId : Option String)
    (context : Context) :
    (Resolution.claims userId tenantId context).runIn world =
      (.ok (TokenClaims.ofPermissions (world.tables.rendered userId context) context).toList,
        world) :=
  Action.runIn_bind_ok (runIn_permissions world userId tenantId context.organizationId) _

/-! ## When the hooks agree -/

/-- What the two hooks return for a user, and how it compares. -/
structure World.HooksCompare (world : World) (userId : String) (tenantId : Option String)
    (context : Context) (rendered added : List String) : Prop where
  claims : (Resolution.claims userId tenantId context).runIn world =
    (.ok (TokenClaims.ofPermissions rendered context).toList, world)
  additional : (Resolution.additional userId context).runIn world = (.ok added, world)
  /-- The permissions claim is these names joined. -/
  normalized : Permission.normalize rendered = rendered
  /-- They are held everywhere, or in the organization whose id is the trimmed name. -/
  contents : ∀ key, key ∈ Permission.keys rendered ↔
    key ∈ Permission.keys (world.tables.heldEverywhere userId) ∨
      ∃ organizationId, context.resolvedId = some organizationId ∧
        key ∈ Permission.keys (world.tables.resolved organizationId userId)
  /-- They include what is held everywhere and what the other hook adds. -/
  covers : Permission.keys (world.tables.heldEverywhere userId ++ added) ⊆
    Permission.keys rendered
  /-- They are no more than that exactly if the name is trimmed or that organization gives nothing
  that is not held everywhere. -/
  agree : Permission.keys rendered =
      Permission.keys (world.tables.heldEverywhere userId ++ added) ↔
    context.resolvedId = context.organizationId ∨
      ∀ organizationId, context.resolvedId = some organizationId →
        Permission.keys (world.tables.resolved organizationId userId) ⊆
          Permission.keys (world.tables.heldEverywhere userId)

/-- How the hooks compare where nothing is held under names that are not tidy. -/
theorem World.hooksCompare {world : World} {userId : String}
    (huntidy : ∀ organizationId, ¬Text.IsTidy organizationId →
      world.tables.resolved organizationId userId = []) (tenantId : Option String)
    (context : Context) :
    world.HooksCompare userId tenantId context (world.tables.rendered userId context)
      (world.tables.added userId context) where
  claims := Resolution.runIn_claims world userId tenantId context
  additional := Resolution.runIn_additional world userId context
  normalized := Permission.normalize_normalize _
  contents _ := Tables.mem_keys_rendered
  covers := by
    intro key hkey
    rw [Permission.mem_keys_append] at hkey
    rw [Tables.mem_keys_rendered]
    refine hkey.imp_right fun hadded => ?_
    by_cases htrimmed : context.resolvedId = context.organizationId
    · exact (Tables.mem_keys_added htrimmed).1 hadded
    · rw [Tables.added_of_not_trimmed huntidy htrimmed] at hadded
      simp at hadded
  agree := by
    by_cases htrimmed : context.resolvedId = context.organizationId
    · refine iff_of_true (Permission.keys_eq_iff.2 fun key => ?_) (.inl htrimmed)
      rw [Tables.mem_keys_rendered, Permission.mem_keys_append, Tables.mem_keys_added htrimmed]
    · rw [Tables.added_of_not_trimmed huntidy htrimmed, List.append_nil, or_iff_right htrimmed]
      constructor
      · intro hsame organizationId hnamed key hheld
        rw [← hsame, Tables.mem_keys_rendered]
        exact .inr ⟨organizationId, hnamed, hheld⟩
      · intro hheld
        refine Permission.keys_eq_iff.2 fun key => ?_
        rw [Tables.mem_keys_rendered, or_iff_left_of_imp]
        rintro ⟨organizationId, hnamed, hkey⟩
        exact hheld organizationId hnamed hkey

/-- In every reachable world where fresh ids are tidy and never repeat, the claims carry what a user
holds everywhere and in the organization whose id is the trimmed name, and the two hooks agree
exactly if the name is trimmed or that organization gives nothing that is not held everywhere. -/
theorem hooks_agree_iff {regime : Regime} {world : World} {config : Configuration}
    (starts : regime.Starts world) (reaches : regime.Reaches world config)
    (distinct : ∀ world, regime.admits world → world.supply.DistinctIds)
    (tidy : ∀ n, Text.IsTidy (world.supply.ids n)) (userId : String) (tenantId : Option String)
    (context : Context) :
    ∃ rendered added, config.world.HooksCompare userId tenantId context rendered added :=
  ⟨_, _, World.hooksCompare
    (fun _ huntidy => reaches.resolved_of_not_tidy starts distinct tidy huntidy userId) tenantId
    context⟩

/-- A text with some characters and no blanks is tidy. -/
theorem Text.isTidy_of_no_blanks {s : List Char} (hne : s ≠ [])
    (hblanks : ∀ c ∈ s, isBlank c = false) : IsTidy (String.ofList s) where
  trim := by
    have hends : s.head?.map isBlank ≠ some true ∧ s.getLast?.map isBlank ≠ some true := by
      simp [List.head?_eq_some_head hne, List.getLast?_eq_some_getLast hne, hblanks]
    rw [Text.trim, String.toList_ofList, (trimList_eq_self_iff s).2 hends]
  ne hempty := hne (String.ofList_injective (hempty.trans String.ofList_nil.symm))

/-- The ids of a blank world are tidy. -/
theorem World.blank_tidy (catalog : List (String × String)) (n : Nat) :
    Text.IsTidy ((World.blank catalog).supply.ids n) := by
  refine Text.isTidy_of_no_blanks (by simp) fun c hc => ?_
  rw [List.eq_of_mem_replicate hc]
  decide

/-- An organization with a member whose role grants a permission. -/
def Operation.grantingOrganization : List Operation :=
  [.createOrganization
      { slug := "north", displayName := "North", tenantId := none, metadata := .empty },
    .createRole
      { name := "reader", organizationId := some "a", tenantId := none, description := none
        isSystem := false },
    .setRolePermissions "aa" (some "a") ["docs:read"],
    .addMember { organizationId := "a", userId := "u", tenantId := none, isPrimary := false
                 roleIds := ["aa"] }]

/-- The hooks compared for such a member, under the id of the organization with a blank after it. -/
theorem hooks_agree_iff_padded :
    ∃ config rendered added, Regime.orderly.Reaches (World.blank [("p", "docs:read")]) config ∧
      config.world.tables.resolved "a" "u" = ["docs:read"] ∧
      config.world.HooksCompare "u" none ⟨some "a ", some "north", some "North"⟩ rendered
        added := by
  have starts : Regime.orderly.Starts (World.blank [("p", "docs:read")]) :=
    Regime.orderly_starts_blank (by decide)
  obtain ⟨config, reaches, hworld⟩ := Regime.orderly_operations starts default
    Operation.grantingOrganization
  obtain ⟨rendered, added, compare⟩ := hooks_agree_iff starts reaches
    (fun _ orderly => orderly.distinctIds) (World.blank_tidy _) "u" none
    ⟨some "a ", some "north", some "North"⟩
  refine ⟨config, rendered, added, reaches, ?_, compare⟩
  rw [hworld]
  decide +kernel

/-- Under a padded id, the claims carry the permissions of an organization that they do not name,
and the other hook adds nothing. -/
theorem not_hooks_agree_padded :
    ∃ config, Regime.orderly.Reaches (World.blank [("p", "docs:read")]) config ∧
      config.world.tables.catalogAvailable = true ∧
      config.world.tables.heldEverywhere "u" = [] ∧
      ((Resolution.claims "u" none ⟨some " a", none, none⟩).runIn config.world).1 =
        .ok [⟨"permissions", "docs:read"⟩, ⟨"org_id", " a"⟩] ∧
      ((Resolution.additional "u" ⟨some " a", none, none⟩).runIn config.world).1 = .ok [] := by
  have starts : Regime.orderly.Starts (World.blank [("p", "docs:read")]) :=
    Regime.orderly_starts_blank (by decide)
  obtain ⟨config, reaches, hworld⟩ := Regime.orderly_operations starts default
    Operation.grantingOrganization
  refine ⟨config, reaches, ?_, ?_, ?_, ?_⟩
  all_goals
    rw [hworld]
    decide +kernel

end Tenancy
