import Tenancy.Proofs.CheckedValues
import Tenancy.Proofs.StoredRecords

/-!
# Tenancy - What an update makes of an organization

An update loads an organization, checks what the patch mentions, and writes the
whole record back with the patch applied.  The record that it writes is determined
by the one that it loaded, the patch and the time, whatever else happened since.

Main definitions:

- `Organization.edited`: the record that an update writes.
- `Organization.Shows`: an organization has what a patch asks for.
- `Organization.Patch.IsAdmitted`: patches that pass the checks.
- `Organization.Patch.Disjoint`: patches that mention no field both.

Main results:

- Theorem `Organization.edited_shows`, `Organization.shows_edited_iff`: an edit shows
  its patch, and leaves alone what a disjoint patch asks for.
- Theorem `Organization.changedFields_eq_nil_iff`: an update has nothing to write
  exactly if the organization shows the patch.
- Theorem `Organizations.update_upholds_of`: a pact that is kept by writing edits of
  what was loaded is upheld by updates.
-/

namespace Tenancy

/-! ## Edits -/

namespace Organization

/-- The display name after a patch. -/
def patchedName (org : Organization) (patch : Patch) : String :=
  (patch.displayName.map Text.trim).getD org.displayName

/-- The record that an update at a time writes in place of an organization. -/
def edited (org : Organization) (patch : Patch) (now : Nat) : Organization :=
  { org.amend (org.patchedName patch) (patch.metadata.getD org.metadata)
      (patch.status.getD org.status) now with updatedAt := now }

/-- Patches whose new name and metadata pass the checks. -/
structure Patch.IsAdmitted (limits : Limits) (patch : Patch) : Prop where
  displayName : ∀ text, patch.displayName = some text →
    Text.IsTidyWithin limits.displayNameLength (Text.trim text)
  metadata : ∀ metadata, patch.metadata = some metadata → limits.AllowsMetadata metadata

/-- An organization has what a patch asks for. -/
structure Shows (org : Organization) (patch : Patch) : Prop where
  displayName : ∀ text, patch.displayName = some text → org.displayName = Text.trim text
  metadata : ∀ metadata, patch.metadata = some metadata → org.metadata = metadata
  status : ∀ status, patch.status = some status → org.status = status

/-- Patches that mention no field both. -/
structure Patch.Disjoint (first second : Patch) : Prop where
  displayName : first.displayName = none ∨ second.displayName = none
  metadata : first.metadata = none ∨ second.metadata = none
  status : first.status = none ∨ second.status = none

theorem Patch.Disjoint.symm {first second : Patch} (hdisjoint : first.Disjoint second) :
    second.Disjoint first where
  displayName := hdisjoint.displayName.symm
  metadata := hdisjoint.metadata.symm
  status := hdisjoint.status.symm

variable {org : Organization} {patch : Patch}

@[simp]
theorem edited_displayName (now : Nat) :
    (org.edited patch now).displayName = org.patchedName patch :=
  rfl

@[simp]
theorem edited_metadata (now : Nat) :
    (org.edited patch now).metadata = patch.metadata.getD org.metadata :=
  rfl

@[simp]
theorem edited_status (now : Nat) :
    (org.edited patch now).status = patch.status.getD org.status :=
  rfl

/-- An organization shows a patch exactly if the patch changes none of its contents. -/
theorem shows_iff :
    org.Shows patch ↔ org.patchedName patch = org.displayName ∧
      patch.metadata.getD org.metadata = org.metadata ∧
        patch.status.getD org.status = org.status := by
  obtain ⟨name, metadata, status⟩ := patch
  constructor
  · rintro ⟨hname, hmetadata, hstatus⟩
    refine ⟨?_, ?_, ?_⟩
    · cases name with
      | none => rfl
      | some text => exact (hname text rfl).symm
    · cases metadata with
      | none => rfl
      | some wanted => exact (hmetadata wanted rfl).symm
    · cases status with
      | none => rfl
      | some wanted => exact (hstatus wanted rfl).symm
  · rintro ⟨hname, hmetadata, hstatus⟩
    refine ⟨?_, ?_, ?_⟩
    · rintro text ⟨⟩
      exact hname.symm
    · rintro wanted ⟨⟩
      exact hmetadata.symm
    · rintro wanted ⟨⟩
      exact hstatus.symm

/-- An update changes nothing exactly if the organization shows the patch already. -/
theorem changedFields_eq_nil_iff (now : Nat) :
    org.changedFields (org.edited patch now) = [] ↔ org.Shows patch := by
  have hlisted : ∀ (same : Prop) [Decidable same] (field : String),
      (if same then [] else [field]) = [] ↔ same := by
    intro same _ field
    by_cases hsame : same <;> simp [hsame]
  rw [changedFields, List.append_eq_nil_iff, List.append_eq_nil_iff, hlisted, hlisted, hlisted,
    and_assoc, shows_iff]
  rfl

/-- An edit shows its patch. -/
theorem edited_shows (org : Organization) (patch : Patch) (now : Nat) :
    (org.edited patch now).Shows patch where
  displayName text htext := by simp [patchedName, htext]
  metadata metadata hmetadata := by simp [hmetadata]
  status status hstatus := by simp [hstatus]

/-- Whether an organization shows a patch depends on the fields that the patch mentions. -/
theorem Shows.congr {other : Organization} (hshows : org.Shows patch)
    (hname : patch.displayName ≠ none → other.displayName = org.displayName)
    (hmetadata : patch.metadata ≠ none → other.metadata = org.metadata)
    (hstatus : patch.status ≠ none → other.status = org.status) : other.Shows patch where
  displayName text htext := (hname (by simp [htext])).trans (hshows.displayName text htext)
  metadata metadata hasked := (hmetadata (by simp [hasked])).trans (hshows.metadata metadata hasked)
  status status hasked := (hstatus (by simp [hasked])).trans (hshows.status status hasked)

/-- An edit leaves alone what a disjoint patch asks for. -/
theorem shows_edited_iff {other : Patch} (hdisjoint : other.Disjoint patch) (now : Nat) :
    (org.edited patch now).Shows other ↔ org.Shows other := by
  have hname : other.displayName ≠ none →
      (org.edited patch now).displayName = org.displayName := by
    intro hasked
    have hnone := hdisjoint.displayName.resolve_left hasked
    simp [patchedName, hnone]
  have hmetadata : other.metadata ≠ none → (org.edited patch now).metadata = org.metadata := by
    intro hasked
    have hnone := hdisjoint.metadata.resolve_left hasked
    simp [hnone]
  have hstatus : other.status ≠ none → (org.edited patch now).status = org.status := by
    intro hasked
    have hnone := hdisjoint.status.resolve_left hasked
    simp [hnone]
  constructor
  · intro hshows
    exact hshows.congr (fun hasked => (hname hasked).symm) (fun hasked => (hmetadata hasked).symm)
      fun hasked => (hstatus hasked).symm
  · intro hshows
    exact hshows.congr hname hmetadata hstatus

end Organization

/-! ## Updates -/

section Updates

variable {allowed : Effect → Prop}

/-- The display name after a patch is the one asked for, if it passes the check. -/
theorem Organizations.patchedName_yields (limits : Limits) (org : Organization)
    (asked : Option String)
    (look : ∀ name, allowed (.store (.organizations (.findByDisplayName org.tenantId name)))) :
    (Organizations.patchedName limits org asked).Uses allowed
      (Text.IsPatched limits.displayNameLength asked org.displayName) := by
  unfold Organizations.patchedName
  cases asked with
  | none => exact .pure .none
  | some text =>
      refine .bind (.checked _) fun name hname => ?_
      have hpatched : Text.IsPatched limits.displayNameLength (some text) org.displayName name :=
        .of_checkName hname
      split
      · exact .pure hpatched
      · exact .andThen (.ask (look name)) fun _ => .andThen (.require _ _) fun _ =>
          .pure hpatched

/-- The metadata after a patch is the one asked for, if it passes the check. -/
theorem Organizations.patchedMetadata_yields (limits : Limits) (org : Organization)
    (asked : Option Metadata) :
    (Organizations.patchedMetadata limits org asked).Uses allowed fun metadata =>
      metadata = asked.getD org.metadata ∧
        ∀ wanted, asked = some wanted → limits.AllowsMetadata wanted := by
  unfold Organizations.patchedMetadata
  cases asked with
  | none => exact .pure ⟨rfl, nofun⟩
  | some wanted =>
      refine .bind (.checked _) fun _ hchecked => .pure ⟨rfl, ?_⟩
      rintro _ ⟨⟩
      exact Limits.checkMetadata_eq_ok_iff.1 hchecked

end Updates

/-- An update upholds a pact if writing edits of what was loaded keeps it. -/
theorem Organizations.update_upholds_of {κ : Type} [Preorder κ] {pact : Pact κ} {known : κ}
    {fact : κ → Organization → Prop} {limits : Limits} {id : String} {patch : Organization.Patch}
    (hload : (Action.loadOrganization id).Upholds pact fact known)
    (hlasts : ∀ {known grown org}, known ≤ grown → fact known org → fact grown org)
    (hwrite : ∀ later org now, fact later org → patch.IsAdmitted limits →
      pact.KeepsFrom later (.store (.organizations (.update (org.edited patch now))))) :
    (Organizations.update limits id patch).Upholds pact (fun _ _ => True) known := by
  have quiet := pact.keeps_quiet
  refine .bind hload fun loaded _ org horg => ?_
  refine .afterUses (Organizations.patchedName_yields limits org _ fun _ => quiet _ rfl)
    fun named hnamed name hname => .afterUses (Organizations.patchedMetadata_yields limits org _)
    fun described hdescribed metadata hmetadata => ?_
  refine .afterUses (.now (quiet _ rfl)) fun timed htimed now _ => ?_
  dsimp only
  split
  · exact .pure fun _ _ => trivial
  · have hadmitted : patch.IsAdmitted limits := ⟨hname.within, hmetadata.2⟩
    have hfact : fact timed org := hlasts (hnamed.trans (hdescribed.trans htimed)) horg
    have hkeeps := hwrite timed org now hfact hadmitted
    rw [hname.name_eq, hmetadata.1]
    exact .ofUsesFrom (.andThen (.ask hkeeps) fun _ =>
      .andThen (.note fun later world _ => quiet _ rfl later world) fun _ => .pure trivial)

end Tenancy
