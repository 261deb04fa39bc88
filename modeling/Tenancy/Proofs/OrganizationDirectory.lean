import Tenancy.Proofs.DistinctTitles
import Tenancy.Proofs.OrderlyRuns
import Tenancy.Proofs.Registers

/-!
# Tenancy - The directory of organizations

What the checks on requests demand of an organization is true of every stored one,
although an update writes back a whole record that it may have read long ago: an
edit of a sound organization is sound.  Together with the register and the store's
own checks this says what the directory of organizations is like at any time, and
how it relates to what it was like before.

Main definitions:

- `Organization.IsSound`: what the checks demand, and when an archiving time is set.
- `Tables.HasSoundDirectory`: every organization is sound, and slugs and display
  names differ within each tenant.
- `Tables.RetainsOrganizations`: organizations stay, with what they keep for good.

Main results:

- Theorem `Organization.IsSound.edited`: an edit of a sound organization is sound.
- Theorem `Operation.action_sound_organizations`: every operation upholds the pact of
  sound organizations.
- Theorem `soundDirectory_of_continues`: the directory is sound in every reachable
  world, and organizations stay however the run goes on.
-/

namespace Tenancy

/-! ## Sound organizations -/

namespace Organization

/-- What is true of every stored organization under the limits: its slug is a token, its display
name is trimmed and not empty, both and the metadata are within their limits, and it has an
archiving time exactly if it is archived. -/
structure IsSound (limits : Limits) (org : Organization) : Prop where
  slug : Text.Slug.IsToken org.slug.toList
  slugLength : Text.length org.slug ≤ limits.slugLength
  displayName : Text.IsTidyWithin limits.displayNameLength org.displayName
  metadata : limits.AllowsMetadata org.metadata
  archivedAt : org.archivedAt.isSome = true ↔ org.status = .archived

/-- After a change of status an archiving time is set exactly if the new status is archived, if it
was so before. -/
theorem isSome_archivedAtAfter_iff {org : Organization}
    (hbefore : org.archivedAt.isSome = true ↔ org.status = .archived) (status : Status)
    (now : Nat) : (org.archivedAtAfter status now).isSome = true ↔ status = .archived := by
  unfold archivedAtAfter
  split
  · rename_i hsame
    rw [hbefore, hsame]
  · cases status with
    | active => simp
    | archived => simp

/-- An edit of a sound organization with an admitted patch is sound. -/
theorem IsSound.edited {limits : Limits} {org : Organization} {patch : Patch}
    (sound : org.IsSound limits) (admitted : patch.IsAdmitted limits) (now : Nat) :
    (org.edited patch now).IsSound limits where
  slug := sound.slug
  slugLength := sound.slugLength
  displayName := by
    rw [edited_displayName, patchedName]
    cases hname : patch.displayName with
    | none => exact sound.displayName
    | some text => exact admitted.displayName text hname
  metadata := by
    rw [edited_metadata]
    cases hmetadata : patch.metadata with
    | none => exact sound.metadata
    | some metadata => exact admitted.metadata metadata hmetadata
  archivedAt := isSome_archivedAtAfter_iff sound.archivedAt _ now

/-- The pact of sound organizations. -/
def soundPact (limits : Limits) : Pact Unit :=
  Organization.shelf.pact (fun _ => True) fun _ org => org.IsSound limits

variable {limits : Limits}

/-- A sound organization may be stored as a new one. -/
theorem soundPact_keeps_create {org : Organization} (sound : org.IsSound limits) :
    (soundPact limits).Keeps (.store (.organizations (.create org))) := by
  refine Shelf.keeps_call ?_
  rintro _ _ (⟨⟨⟩⟩ | ⟨⟨⟩⟩)
  exact sound

/-- A sound organization may be written in place of another. -/
theorem soundPact_keeps_update {org : Organization} (sound : org.IsSound limits) :
    (soundPact limits).Keeps (.store (.organizations (.update org))) := by
  refine Shelf.keeps_call ?_
  rintro _ _ (⟨⟨⟩⟩ | ⟨⟨⟩⟩)
  exact sound

end Organization

open Organization

variable {limits : Limits}

/-- A new organization is sound. -/
theorem Organizations.create_sound (draft : Organization.Draft) :
    (Organizations.create limits draft).Uses (soundPact limits).Keeps fun _ => True := by
  have quiet := (soundPact limits).keeps_quiet
  refine .bind (.checked _) fun slug hslug => .bind (.checked _) fun displayName hname =>
    .bind (.checked _) fun _ hmetadata => ?_
  refine .andThen (.ask (quiet _ rfl)) fun sameSlug => .andThen (.require _ _) fun _ => ?_
  refine .andThen (.ask (quiet _ rfl)) fun sameName => .andThen (.require _ _) fun _ => ?_
  refine .andThen (.now (quiet _ rfl)) fun now => .andThen (.freshId (quiet _ rfl)) fun id => ?_
  obtain ⟨-, htoken, hlength⟩ := Limits.checkSlug_eq_ok_iff.1 hslug
  refine .andThen (.ask (soundPact_keeps_create ?_)) fun _ => .andThen (.note (quiet _ rfl))
    fun _ => .pure trivial
  exact
    { slug := htoken
      slugLength := hlength
      displayName := (checkName_eq_ok_iff.1 hname).2
      metadata := Limits.checkMetadata_eq_ok_iff.1 hmetadata
      archivedAt := by simp }

/-- An updated organization is sound. -/
theorem Organizations.update_sound (id : String) (patch : Organization.Patch) {known : Unit} :
    (Organizations.update limits id patch).Upholds (soundPact limits) (fun _ _ => True) known := by
  have hload : (Action.loadOrganization id).Upholds (soundPact limits)
      (fun _ org => org.IsSound limits) known :=
    .mono (Action.loadOrganization_reads (fun _ org => org.IsSound limits)
      (fun _ _ holds => holds) (fun _ sound => sound) id) fun _ _ hread => hread.2
  refine Organizations.update_upholds_of hload (fun _ sound => sound) ?_
  intro _ org now sound admitted later world _ holds
  exact soundPact_keeps_update (sound.edited admitted now) later world holds

/-- Every operation under the limits upholds the pact of sound organizations. -/
theorem Operation.action_sound_organizations {deployment : Deployment}
    (deployed : deployment.limits = limits) (operation : Operation) (known : Unit) :
    (operation.action deployment).Upholds (soundPact limits) (fun _ _ => True) known := by
  subst deployed
  cases operation with
  | createOrganization draft => exact .ofUses (Organizations.create_sound draft)
  | updateOrganization id patch => exact Organizations.update_sound id patch
  | archiveOrganization id => exact Organizations.update_sound id .archive
  | _ =>
      refine Operation.upholds_of_writes _ _ fun call hmay => Shelf.keeps_call fun _ org hstored => ?_
      rcases hstored with rfl | rfl <;> cases hmay

/-! ## The directory -/

/-- Every organization is sound, and within one tenant no two have the same slug or the same display
name. -/
structure Tables.HasSoundDirectory (limits : Limits) (tables : Tables) : Prop where
  sound : ∀ org ∈ tables.organizations, org.IsSound limits
  slugs : (tables.organizations.map fun org => (org.tenantId, org.slug)).Nodup
  displayNames : (tables.organizations.map Organization.title).Nodup

/-- Every organization of a store is in a later one, and there it has the tenant, the slug and the
creation time that it had. -/
structure Tables.RetainsOrganizations (before after : Tables) : Prop where
  stays : ∀ org ∈ before.organizations, org.id ∈ after.organizations.map (·.id)
  keeps : ∀ org ∈ before.organizations, ∀ later ∈ after.organizations, later.id = org.id →
    later.tenantId = org.tenantId ∧ later.slug = org.slug ∧ later.createdAt = org.createdAt

variable {regime : Regime} {world : World}

/-- In every reachable world, organizations are sound. -/
theorem Regime.Reaches.soundOrganizations {config : Configuration} (starts : regime.Starts world)
    (deployed : ∀ deployment, regime.deploys deployment → deployment.limits = limits)
    (reaches : regime.Reaches world config) :
    ∀ org ∈ config.world.tables.organizations, org.IsSound limits := by
  have begins : (soundPact limits).holds () world := Shelf.begins starts.noRecords
  obtain ⟨_, holds, -⟩ := reaches.upholds (fun _ _ => trivial) begins
    fun deployment operation known hdeploys =>
      Operation.action_sound_organizations (deployed deployment hdeploys) operation known
  exact holds

/-- Organizations that are registered stay registered, so they stay as they are in what they keep
for good. -/
theorem Organization.Registers.retains {before after : Tables}
    {known grown : Register Organization.Identity} (hbefore : Registers known before)
    (hafter : Registers grown after) (hle : known ≤ grown) : before.RetainsOrganizations after where
  stays org horg := by
    have hentry := Register.entryOf_of_le hle (hbefore.recorded org horg)
    obtain ⟨later, hlater, hid⟩ := hafter.stored _ _ hentry
    exact List.mem_map.2 ⟨later, hlater, hid⟩
  keeps org horg later hlater hid := by
    have hentry := Register.entryOf_of_le hle (hbefore.recorded org horg)
    have hrecorded := hafter.recorded later hlater
    rw [hid, hentry] at hrecorded
    have hidentity : later.identity = org.identity := (Option.some.inj hrecorded).symm
    exact ⟨congrArg Identity.tenantId hidentity, congrArg Identity.slug hidentity,
      congrArg Identity.createdAt hidentity⟩

/-- Under one set of limits, the directory is sound however a run goes on, and it retains all
organizations. -/
theorem soundDirectory_of_continues {before after : Configuration} (starts : regime.Starts world)
    (deployed : ∀ deployment, regime.deploys deployment → deployment.limits = limits)
    (reaches : regime.Reaches world before) (continues : regime.Continues before after) :
    after.world.tables.HasSoundDirectory limits ∧
      before.world.tables.RetainsOrganizations after.world.tables := by
  have onward : regime.Reaches world after := reaches.onward continues
  obtain ⟨known, hbefore⟩ := reaches.registers starts
  obtain ⟨grown, hle, hafter⟩ := continues.registers hbefore
  have registers : Registers grown after.world.tables := hafter.holds
  refine ⟨?_, Registers.retains hbefore.holds registers hle⟩
  exact
    { sound := onward.soundOrganizations starts deployed
      slugs := registers.nodup_slugs (onward.hasDistinctKeys starts)
      displayNames := (onward.hasDistinctTitles starts).organizations }

/-- An organization is renamed by an update that had read it before another update archived it: it
keeps its slug, and the archiving time is gone with the status. -/
theorem soundDirectory_of_continues_stale_rename :
    ∃ before after, (Regime.uniform default).Continues before after ∧
      before.world.tables.organizations.map (fun org => (org.displayName, org.status)) =
        [("North", .archived)] ∧
      after.world.tables.organizations.map (fun org => (org.displayName, org.status)) =
        [("South", .active)] ∧
      after.world.tables.HasSoundDirectory .standard ∧
      before.world.tables.RetainsOrganizations after.world.tables := by
  have starts : (Regime.uniform default).Starts (World.blank []) :=
    Regime.uniform_starts_blank default (by simp)
  obtain ⟨before, reaches, schedule, hbefore, hafter⟩ : ∃ before,
      (Regime.uniform default).Reaches (World.blank []) before ∧ ∃ schedule,
      before.world.tables.organizations.map (fun org => (org.displayName, org.status)) =
        [("North", .archived)] ∧
      (schedule.foldl Configuration.advance before).world.tables.organizations.map
        (fun org => (org.displayName, org.status)) = [("South", .active)] :=
    ⟨_, Regime.uniform_scheduled starts
      [.createOrganization
        { slug := " North ", displayName := "North", tenantId := none, metadata := .empty },
       .updateOrganization "a" { displayName := some "South", metadata := none, status := none },
       .archiveOrganization "a"]
      (List.replicate 7 0 ++ [1] ++ List.replicate 4 2), List.replicate 4 1,
      by decide +kernel, by decide +kernel⟩
  have continues := Regime.uniform_continues starts reaches [] schedule
  obtain ⟨hsound, hretains⟩ := soundDirectory_of_continues starts
    (fun _ hdeploys => congrArg Deployment.limits hdeploys) reaches continues
  exact ⟨before, _, continues, hbefore, hafter, hsound, hretains⟩

end Tenancy
