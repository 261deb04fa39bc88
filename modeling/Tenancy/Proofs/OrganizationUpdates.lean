import Tenancy.Proofs.AuditedMemberships
import Tenancy.Proofs.DistinctTitles
import Tenancy.Proofs.FaultyRuns
import Tenancy.Proofs.Registers
import Tenancy.Proofs.RunWrites

/-!
# Tenancy - What updating an organization comes to

A patch names a display name, metadata, a status, or several of them, each of which may
be what the organization has already.  An update compares the record before and after
the patch: if something differs, it writes the record once, stamped with the time, and
leaves one note; otherwise it does nothing at all.  A new display name must be free, but
it may be borne by the organization itself.

Main definitions:

- `Organization.Patched`: an organization before and after an update.
- `Tables.HasRoomFor`: no other organization bears the title of this one.
- `World.EditedBy`: worlds before and after an update, with its writes.

Main results:

- Theorem `Organizations.update_ends_editedBy`: an update whose patch is admitted.
- Theorem `World.EditedBy.again`: the same update again does nothing.
- Theorem `organizationUpdate_of_endures`: what updating comes to in every reachable world.
-/

namespace Tenancy

/-! ## Patched organizations -/

namespace Organization

variable {org updated : Organization} {patch : Patch}

/-- An organization after a patch at `now`: name, metadata and status are the requested ones, or
else as they were; the archiving time follows the status; the rest is as it was. -/
structure Patched (org updated : Organization) (patch : Patch) (now : Nat) : Prop where
  displayName : updated.displayName = (patch.displayName.map Text.trim).getD org.displayName
  metadata : updated.metadata = patch.metadata.getD org.metadata
  status : updated.status = patch.status.getD org.status
  archived : org.status = .active → updated.status = .archived → updated.archivedAt = some now
  activated : org.status = .archived → updated.status = .active → updated.archivedAt = none
  settled : updated.status = org.status → updated.archivedAt = org.archivedAt
  rest : updated =
    { org with
      displayName := updated.displayName, metadata := updated.metadata, status := updated.status
      archivedAt := updated.archivedAt, updatedAt := updated.updatedAt }

/-- A field other than the time of the last update is not the same. -/
def Differs (before after : Organization) : Prop :=
  { after with updatedAt := before.updatedAt } ≠ before

/-- An organization does not differ from itself. -/
theorem not_differs_self (org : Organization) : ¬org.Differs org :=
  fun hdiffers => hdiffers rfl

@[simp]
theorem edited_archivedAt (org : Organization) (patch : Patch) (now : Nat) :
    (org.edited patch now).archivedAt =
      org.archivedAtAfter (patch.status.getD org.status) now :=
  rfl

/-- An edit makes an organization a patched one. -/
theorem edited_patched (org : Organization) (patch : Patch) (now : Nat) :
    org.Patched (org.edited patch now) patch now where
  displayName := rfl
  metadata := rfl
  status := rfl
  archived hbefore hafter := by
    rw [edited_status] at hafter
    rw [edited_archivedAt, hafter]
    simp [archivedAtAfter, hbefore]
  activated hbefore hafter := by
    rw [edited_status] at hafter
    rw [edited_archivedAt, hafter]
    simp [archivedAtAfter, hbefore]
  settled hsame := by
    rw [edited_status] at hsame
    rw [edited_archivedAt, hsame]
    simp [archivedAtAfter]
  rest := rfl

/-- An organization that shows a patch is a patched one as it is. -/
theorem Shows.patched (hshows : org.Shows patch) (now : Nat) : org.Patched org patch now := by
  obtain ⟨hname, hmetadata, hstatus⟩ := shows_iff.1 hshows
  exact
    { displayName := hname.symm
      metadata := hmetadata.symm
      status := hstatus.symm
      archived := fun hbefore hafter => by rw [hbefore] at hafter; cases hafter
      activated := fun hbefore hafter => by rw [hbefore] at hafter; cases hafter
      settled := fun _ => rfl
      rest := rfl }

/-- An edit differs from an organization that does not show the patch. -/
theorem differs_edited (hshows : ¬org.Shows patch) (now : Nat) :
    org.Differs (org.edited patch now) := by
  intro hsame
  refine hshows (shows_iff.2 ⟨?_, ?_, ?_⟩)
  · exact congrArg Organization.displayName hsame
  · exact congrArg Organization.metadata hsame
  · exact congrArg Organization.status hsame

/-- A patched organization shows the patch. -/
theorem Patched.shows {now : Nat} (patched : org.Patched updated patch now) :
    updated.Shows patch where
  displayName text hasked := by rw [patched.displayName, hasked]; rfl
  metadata metadata hasked := by rw [patched.metadata, hasked]; rfl
  status status hasked := by rw [patched.status, hasked]; rfl

/-- An edit keeps the tenant, so its title is that of the patched name. -/
@[simp]
theorem edited_title (org : Organization) (patch : Patch) (now : Nat) :
    (org.edited patch now).title = (org.tenantId, org.patchedName patch) :=
  rfl

end Organization

/-! ## Titles that are free -/

namespace Tables

variable {tables : Tables} {org : Organization}

/-- No other organization bears the title of this one. -/
def HasRoomFor (tables : Tables) (org : Organization) : Prop :=
  ∀ other ∈ tables.organizations, other.id ≠ org.id → other.title ≠ org.title

/-- There is room for a stored organization. -/
theorem HasDistinctTitles.hasRoomFor (titles : tables.HasDistinctTitles)
    (hmem : org ∈ tables.organizations) : tables.HasRoomFor org := by
  intro other hother hid htitle
  exact hid (congrArg Organization.id (eq_of_key_eq titles.organizations hother hmem htitle))

/-- An organization is written in place of the stored one if there is room for it. -/
theorem perform_updateOrganization (hroom : tables.HasRoomFor org)
    (hstored : org.id ∈ tables.organizations.map (·.id)) :
    tables.perform (.organizations (.update org)) =
      (.ok (), { tables with organizations := put (·.id) org tables.organizations }) := by
  have hfree : (tables.organizations.any fun other => other.id != org.id &&
      other.tenantId == org.tenantId && other.displayName == org.displayName) = false := by
    rw [List.any_eq_false]
    intro other hother htaken
    simp only [Bool.and_eq_true, bne_iff_ne, beq_iff_eq] at htaken
    obtain ⟨⟨hid, htenant⟩, hname⟩ := htaken
    exact hroom other hother hid (Prod.ext htenant hname)
  have hany : tables.organizations.any (·.id == org.id) = true := by simpa using hstored
  simp [perform, performOrganization, hfree, hany]

end Tables

/-- Where store calls may go wrong, titles stay distinct. -/
theorem Regime.Endures.hasDistinctTitles {regime : Regime} {world : World}
    {config : Configuration} (starts : regime.Starts world)
    (endures : regime.Endures world config) : config.world.tables.HasDistinctTitles := by
  have hboth : config.world.tables.HasDistinctKeys ∧ config.world.tables.HasDistinctTitles := by
    refine @Regime.Endures.invariant regime world config
      (fun world => world.tables.HasDistinctKeys ∧ world.tables.HasDistinctTitles) endures
      ⟨starts.noRecords.hasDistinctKeys, starts.noRecords.hasDistinctTitles⟩ ?_
    rintro before after step ⟨distinct, titles⟩
    exact ⟨step.hasDistinctKeys distinct, step.hasDistinctTitles distinct titles⟩
  exact hboth.2

/-! ## Runs of updates -/

namespace Organizations

variable {limits : Limits} {world : World} {id : String} {org : Organization}
  {patch : Organization.Patch} {now : Nat}

/-- A patched name that is admitted and free is let through. -/
theorem patchedName_ends (admitted : patch.IsAdmitted limits)
    (hroom : world.tables.HasRoomFor (org.edited patch now)) :
    (patchedName limits org patch.displayName).Ends world (.ok (org.patchedName patch)) world
      [] := by
  refine .ofUses (patchedName_yields limits org _ fun _ => rfl) ?_
  unfold Organization.patchedName patchedName
  cases hasked : patch.displayName with
  | none => rfl
  | some text =>
      have hcheck : limits.checkDisplayName text = .ok (Text.trim text) :=
        checkName_eq_ok_iff.2 ⟨rfl, admitted.displayName text hasked⟩
      refine (Action.runIn_bind_ok (Action.runIn_check hcheck) _).trans ?_
      split
      · rfl
      · -- Whoever bears the name in the tenant is the organization itself.
        have hholder : (world.tables.organizations.find? fun other =>
            other.tenantId == org.tenantId && other.displayName == Text.trim text).all
              (·.id == org.id) = true := by
          rw [Option.all_eq_true]
          intro other hfind
          have hsame := List.find?_some hfind
          simp only [Bool.and_eq_true, beq_iff_eq] at hsame ⊢
          by_contra hid
          refine hroom other (List.mem_of_find?_eq_some hfind) hid (Prod.ext hsame.1 ?_)
          simp [hsame.2, Organization.title, Organization.patchedName, hasked]
        refine (Action.runIn_bind_ok (Action.runIn_read rfl rfl) _).trans ?_
        exact Action.runIn_bind_ok (Action.runIn_require hholder _) _

/-- Patched metadata that is admitted is let through. -/
theorem patchedMetadata_ends (admitted : patch.IsAdmitted limits) :
    (patchedMetadata limits org patch.metadata).Ends world
      (.ok (patch.metadata.getD org.metadata)) world [] := by
  refine .ofUses (patchedMetadata_yields limits org _) ?_
  unfold patchedMetadata
  cases hasked : patch.metadata with
  | none => rfl
  | some metadata =>
      have hcheck := Limits.checkMetadata_eq_ok_iff.2 (admitted.metadata metadata hasked)
      exact Action.runIn_bind_ok (Action.runIn_check hcheck) _

/-- The note that an update leaves. -/
def updateNote (before after : Organization) : AuditNote :=
  (AuditNote.within (updateEvent before after) before.id).saying
    (",".intercalate (before.changedFields after))

/-- An update is noted as archiving exactly if it archives an organization that was active. -/
theorem updateNote_event (before after : Organization) :
    (updateNote before after).event =
      if before.status = .active ∧ after.status = .archived then .orgArchived else .orgUpdated := by
  change updateEvent before after = _
  rw [updateEvent, Organization.isArchived]
  cases before.status <;> cases after.status <;> simp

section Admitted

variable (hfind : world.tables.organizations.find? (·.id == org.id) = some org)
  (admitted : patch.IsAdmitted limits)
  (hroom : world.tables.HasRoomFor (org.edited patch world.clock))

include hfind admitted hroom

/-- Once its patch is let through, an update goes on to compare the records. -/
theorem update_ends {result : Except Error Organization} {after : World} {writes : List Effect}
    (hrest : (if (org.changedFields (org.edited patch world.clock)).isEmpty then pure org
      else do
        Action.ask (.organizations (.update (org.edited patch world.clock)))
        Action.note (updateNote org (org.edited patch world.clock))
        pure (org.edited patch world.clock) : Action Organization).Ends world result after
          writes) :
    (update limits org.id patch).Ends world result after writes := by
  have hload : (Action.loadOrganization org.id).Ends world (.ok org) world [] :=
    .ofUses (Action.loadOrganization_uses Effect.plain_reads org.id)
      (Action.runIn_loadOrganization hfind)
  have hclock : Action.now.Ends world (.ok world.clock) world [] := .ofUses (.now rfl) rfl
  exact hload.bind ((patchedName_ends admitted hroom).bind
    ((patchedMetadata_ends admitted).bind (hclock.bind hrest)))

/-- If the organization shows the patch already, an update does nothing. -/
theorem update_ends_unchanged (hshows : org.Shows patch) :
    (update limits org.id patch).Ends world (.ok org) world [] := by
  refine update_ends hfind admitted hroom ?_
  rw [(Organization.changedFields_eq_nil_iff world.clock).2 hshows]
  exact .pure org world

/-- If the organization does not show the patch, the edited record is written once and noted. -/
theorem update_ends_changed (hshows : ¬org.Shows patch) :
    (update limits org.id patch).Ends world (.ok (org.edited patch world.clock))
      { world with
        tables := { world.tables with
          organizations :=
            Tables.put (·.id) (org.edited patch world.clock) world.tables.organizations }
        trail := world.trail.offer (updateNote org (org.edited patch world.clock)) world.clock }
      [.store (.organizations (.update (org.edited patch world.clock)))] := by
  have hstored : org.id ∈ world.tables.organizations.map (·.id) :=
    List.mem_map_of_mem (List.mem_of_find?_eq_some hfind)
  have hwritten := @Action.Ends.write
    (.organizations (.update (org.edited patch world.clock))) rfl world
  rw [Tables.perform_updateOrganization hroom hstored] at hwritten
  have hchanged : org.changedFields (org.edited patch world.clock) ≠ [] :=
    fun hnone => hshows ((Organization.changedFields_eq_nil_iff world.clock).1 hnone)
  refine update_ends hfind admitted hroom ?_
  rw [if_neg (by simpa using hchanged)]
  exact hwritten.bind (.bind (.ofUses (.note rfl) rfl) (.pure _ _))

end Admitted

/-- A new name has room if nobody but the organization itself is found to bear it. -/
theorem hasRoomFor_of_holder (distinct : world.tables.HasDistinctKeys)
    (hmem : org ∈ world.tables.organizations) (hnew : org.patchedName patch ≠ org.displayName)
    (hholder : (world.tables.organizations.find? fun other =>
      other.tenantId == org.tenantId && other.displayName == org.patchedName patch).all
        (·.id == org.id) = true) :
    world.tables.HasRoomFor (org.edited patch now) := by
  intro other hother _ htitle
  rw [Organization.edited_title] at htitle
  obtain ⟨htenant, hname⟩ := Prod.mk.inj htitle
  cases hfind : world.tables.organizations.find? fun other =>
      other.tenantId == org.tenantId && other.displayName == org.patchedName patch with
  | none =>
      have hmissed := List.find?_eq_none.1 hfind other hother
      simp [htenant, hname] at hmissed
  | some found =>
      rw [hfind] at hholder
      have hself : found = org := Tables.eq_of_key_eq distinct.organizations
        (List.mem_of_find?_eq_some hfind) hmem (by simpa using hholder)
      have hsame := List.find?_some hfind
      rw [hself] at hsame
      simp only [Bool.and_eq_true, beq_iff_eq] at hsame
      exact hnew hsame.2.symm

/-- If a patched name is let through, there is room for it. -/
theorem hasRoomFor_of_patchedName (distinct : world.tables.HasDistinctKeys)
    (titles : world.tables.HasDistinctTitles) (hmem : org ∈ world.tables.organizations)
    (succeeds : (patchedName limits org patch.displayName).Succeeds world) :
    world.tables.HasRoomFor (org.edited patch now) := by
  by_cases hsame : org.patchedName patch = org.displayName
  · intro other hother hid
    rw [Organization.edited_title, hsame]
    exact titles.hasRoomFor hmem other hother hid
  · refine hasRoomFor_of_holder distinct hmem hsame ?_
    unfold Organization.patchedName at hsame ⊢
    unfold patchedName at succeeds
    cases hasked : patch.displayName with
    | none =>
        rw [hasked] at hsame
        exact absurd rfl hsame
    | some text =>
        rw [hasked] at succeeds hsame
        obtain ⟨name, middle, hrun, hrest⟩ := succeeds.of_bind
        have hcheck : limits.checkDisplayName text = .ok name := (Action.of_runIn_check hrun).1
        obtain ⟨rfl, -⟩ := checkName_eq_ok_iff.1 hcheck
        obtain rfl := (Action.of_runIn_check hrun).2
        have hnew : Text.trim text ≠ org.displayName := hsame
        rw [if_neg hnew] at hrest
        obtain ⟨_, _, hrequired, -⟩ :=
          ((Action.succeeds_bind (Action.runIn_read rfl rfl) _).1 hrest).of_bind
        exact (Action.succeeds_of_runIn hrequired).of_require

/-- An update that succeeds has found the organization, its patch passes the checks, and there is
room for the edited record. -/
theorem of_succeeds_update (distinct : world.tables.HasDistinctKeys)
    (titles : world.tables.HasDistinctTitles) (succeeds : (update limits id patch).Succeeds world) :
    ∃ org ∈ world.tables.organizations, org.id = id ∧ patch.IsAdmitted limits ∧
      world.tables.HasRoomFor (org.edited patch world.clock) := by
  cases hfind : world.tables.organizations.find? (·.id == id) with
  | none =>
      have hmissing := Action.runIn_loadOrganization_none hfind
      exact absurd succeeds (Action.not_succeeds_bind hmissing _)
  | some org =>
      have hmem := List.mem_of_find?_eq_some hfind
      obtain ⟨name, middle, hname, hrest⟩ :=
        ((Action.succeeds_bind (Action.runIn_loadOrganization hfind) _).1 succeeds).of_bind
      obtain ⟨metadata, _, hmetadata, -⟩ := hrest.of_bind
      have hpatched := ((patchedName_yields limits org _ fun _ => rfl).run.run world).2 name
        (congrArg Prod.fst hname)
      have hallowed := ((patchedMetadata_yields limits org _).run.run middle).2 metadata
        (congrArg Prod.fst hmetadata)
      exact ⟨org, hmem, Tables.key_of_find hfind, ⟨hpatched.within, hallowed.2⟩,
        hasRoomFor_of_patchedName distinct titles hmem ⟨name, congrArg Prod.fst hname⟩⟩

end Organizations

/-! ## Worlds before and after -/

/-- An update by a patch turned a world into another with some writes, and returned what an
organization became: that is stored, and nothing else has changed but the audit trail. -/
structure World.EditedBy (before after : World) (writes : List Effect)
    (org updated : Organization) (patch : Organization.Patch) : Prop where
  patched : org.Patched updated patch before.clock
  stored : after.tables.organizations.find? (·.id == org.id) = some updated
  others : after.tables.organizations.filter (·.id != org.id) =
    before.tables.organizations.filter (·.id != org.id)
  frame : after =
    { before with
      tables := { before.tables with organizations := after.tables.organizations }
      trail := after.trail }
  /-- A difference is written once and stamped. -/
  changed : org.Differs updated →
    updated.updatedAt = before.clock ∧ writes = [.store (.organizations (.update updated))]
  /-- A working trail takes in one entry for a difference. -/
  noted : org.Differs updated → before.trail.IsWorking → ∃ entry,
    after.trail.entries = before.trail.entries ++ [entry] ∧ entry.timestamp = before.clock ∧
      entry.note.organizationId = some org.id ∧
      entry.note.event =
        if org.status = .active ∧ updated.status = .archived then .orgArchived else .orgUpdated
  /-- Without a difference, nothing is written or noted. -/
  unchanged : ¬org.Differs updated → updated = org ∧ after = before ∧ writes = []

/-- A working trail takes in what it is offered. -/
theorem Trail.IsWorking.entries_offer {trail : Trail} (working : trail.IsWorking)
    (note : AuditNote) (now : Nat) : (trail.offer note now).entries =
      trail.entries ++ [{ id := toString trail.offered, note := note, timestamp := now }] := by
  simp [Trail.entries_offer, working.attached, working.accepts]

section Updates

variable {limits : Limits} {world : World} {org : Organization} {patch : Organization.Patch}

/-- An update of an organization whose patch is admitted and has room ends as it should. -/
theorem Organizations.update_ends_editedBy (distinct : world.tables.HasDistinctKeys)
    (hmem : org ∈ world.tables.organizations) (admitted : patch.IsAdmitted limits)
    (hroom : world.tables.HasRoomFor (org.edited patch world.clock)) :
    ∃ updated after writes,
      (update limits org.id patch).Ends world (.ok updated) after writes ∧
      world.EditedBy after writes org updated patch := by
  have hfind : world.tables.organizations.find? (·.id == org.id) = some org :=
    Tables.find_eq_some_of_mem distinct.organizations hmem
  by_cases hshows : org.Shows patch
  · refine ⟨org, world, [], update_ends_unchanged hfind admitted hroom hshows, ?_⟩
    exact
      { patched := hshows.patched world.clock
        stored := hfind
        others := rfl
        frame := rfl
        changed := fun hdiffers => absurd hdiffers org.not_differs_self
        noted := fun hdiffers => absurd hdiffers org.not_differs_self
        unchanged := fun _ => ⟨rfl, rfl, rfl⟩ }
  · refine ⟨_, _, _, update_ends_changed hfind admitted hroom hshows, ?_⟩
    have hself : ((org.edited patch world.clock).id != org.id) = false :=
      bne_self_eq_false org.id
    have hothers : ∀ old ∈ world.tables.organizations,
        old.id = (org.edited patch world.clock).id → (old.id != org.id) = false := by
      intro old _ hid
      simpa using hid
    exact
      { patched := org.edited_patched patch world.clock
        stored := Tables.find_put (·.id) (org.edited patch world.clock) world.tables.organizations
        others := Tables.filter_put (fun other : Organization => other.id != org.id) hself _ hothers
        frame := rfl
        changed := fun _ => ⟨rfl, rfl⟩
        noted := fun _ working =>
          ⟨_, working.entries_offer _ _, rfl, rfl, updateNote_event org _⟩
        unchanged := fun hsame => absurd (Organization.differs_edited hshows world.clock) hsame }

/-- The same update again does nothing, whatever time it is. -/
theorem World.EditedBy.again {before after : World} {writes : List Effect}
    {updated : Organization} (editedBy : before.EditedBy after writes org updated patch)
    (admitted : patch.IsAdmitted limits)
    (hroom : before.tables.HasRoomFor (org.edited patch before.clock)) (later : Nat) :
    (Organizations.update limits org.id patch).Ends { after with clock := later } (.ok updated)
      { after with clock := later } [] := by
  have hid : updated.id = org.id := by rw [editedBy.patched.rest]
  have htenant : updated.tenantId = org.tenantId := by rw [editedBy.patched.rest]
  have hname : updated.patchedName patch = org.patchedName patch :=
    (Organization.shows_iff.1 editedBy.patched.shows).1.trans editedBy.patched.displayName
  have hfind := editedBy.stored
  rw [← hid] at hfind ⊢
  refine Organizations.update_ends_unchanged hfind admitted ?_ editedBy.patched.shows
  intro other hother hne
  rw [Organization.edited_id, hid] at hne
  rw [Organization.edited_title, htenant, hname]
  -- The other organizations are as they were.
  have hothers : other ∈ before.tables.organizations.filter (·.id != org.id) := by
    rw [← editedBy.others]
    exact List.mem_filter.2 ⟨hother, by simpa using hne⟩
  exact hroom other (List.mem_of_mem_filter hothers) hne

end Updates

/-! ## Updates in reachable worlds -/

/-- In every reachable world, whatever time the clock shows and whatever calls have gone wrong
before: updating an organization succeeds exactly if it is there, the patch passes the checks and no
other organization of the tenant bears the name; then name, metadata and status are as requested,
the archiving time follows the status, a difference is stamped, written and noted once and otherwise
nothing is, and updating again by the same patch does nothing.  So archiving an organization that
is archived does nothing either. -/
theorem organizationUpdate_of_endures {regime : Regime} {start : World} {config : Configuration}
    (starts : regime.Starts start) (endures : regime.Endures start config) (now : Nat)
    (limits : Limits) (id : String) (patch : Organization.Patch) :
    let world := { config.world with clock := now }
    let update := Organizations.update limits id patch
    let after := (update.runIn world).2
    (update.Succeeds world ↔
      ∃ org ∈ world.tables.organizations, org.id = id ∧ patch.IsAdmitted limits ∧
        world.tables.HasRoomFor (org.edited patch now)) ∧
    (∀ updated, (update.runIn world).1 = .ok updated →
      ∃ org ∈ world.tables.organizations, org.id = id ∧
        world.EditedBy after (update.writesIn world) org updated patch ∧
        ∀ later, update.Ends { after with clock := later } (.ok updated)
          { after with clock := later } []) ∧
    ∀ org ∈ world.tables.organizations, org.id = id → org.status = .archived →
      (Organizations.archive limits id).Ends world (.ok org) world [] := by
  intro world update after
  have distinct : world.tables.HasDistinctKeys := endures.hasDistinctKeys starts
  have titles : world.tables.HasDistinctTitles := endures.hasDistinctTitles starts
  have hneeds := @Organizations.of_succeeds_update limits world id patch distinct titles
  refine ⟨⟨hneeds, ?_⟩, ?_, ?_⟩
  · rintro ⟨org, hmem, rfl, admitted, hroom⟩
    obtain ⟨updated, _, _, hends, -⟩ :=
      Organizations.update_ends_editedBy distinct hmem admitted hroom
    exact Action.succeeds_of_runIn hends.run
  · intro updated hok
    obtain ⟨org, hmem, rfl, admitted, hroom⟩ := hneeds ⟨updated, hok⟩
    obtain ⟨returned, final, writes, hends, editedBy⟩ :=
      Organizations.update_ends_editedBy distinct hmem admitted hroom
    have hrun : update.runIn world = (.ok returned, final) := hends.run
    have hwrites : update.writesIn world = writes := hends.writes
    have hfinal : after = final := congrArg Prod.snd hrun
    rw [hrun] at hok
    rw [hfinal, hwrites, ← Except.ok.inj hok]
    exact ⟨org, hmem, rfl, editedBy, editedBy.again admitted hroom⟩
  · rintro org hmem rfl harchived
    have hshows : org.Shows .archive := ⟨nofun, nofun, by rintro _ ⟨⟩; exact harchived⟩
    have hroom : world.tables.HasRoomFor org := titles.hasRoomFor hmem
    exact Organizations.update_ends_unchanged
      (Tables.find_eq_some_of_mem distinct.organizations hmem) ⟨nofun, nofun⟩ hroom hshows

/-- Under a working trail, an organization is archived and keeps its name, which was asked for with
blanks around it. -/
theorem organizationUpdate_of_endures_archive :
    ∃ (config : Configuration) (patch : Organization.Patch) (updated : Organization),
      Regime.orderly.Reaches World.audited config ∧ config.world.trail.IsWorking ∧
      ((Organizations.update .standard "a" patch).runIn { config.world with clock := 5 }).1 =
        .ok updated ∧
      (updated.displayName, updated.status, updated.archivedAt) = ("North", .archived, some 5) ∧
      ∃ org ∈ config.world.tables.organizations, org.id = "a" ∧ org.Differs updated ∧
        World.EditedBy { config.world with clock := 5 }
          ((Organizations.update .standard "a" patch).runIn { config.world with clock := 5 }).2
          ((Organizations.update .standard "a" patch).writesIn { config.world with clock := 5 })
          org updated patch := by
  obtain ⟨config, reaches, hworld⟩ :=
    Regime.orderly_operations Regime.orderly_starts_audited default
      [.createOrganization
        { slug := "north", displayName := "North", tenantId := none, metadata := .empty }]
  have working : config.world.trail.IsWorking := by
    rw [hworld]
    exact ⟨by decide +kernel, fun _ => rfl⟩
  have hactive : ∀ org ∈ config.world.tables.organizations, org.status = .active := by
    rw [hworld]
    decide +kernel
  let patch : Organization.Patch :=
    { displayName := some " North ", metadata := none, status := some .archived }
  obtain ⟨updated, hrun, hshown⟩ := @Action.exists_of_map_ok _ _
    { config.world with clock := 5 } (Organizations.update .standard "a" patch)
    (fun updated => (updated.displayName, updated.status, updated.archivedAt))
    ("North", .archived, some 5) (by rw [hworld]; decide +kernel)
  obtain ⟨-, houtcome, -⟩ := organizationUpdate_of_endures Regime.orderly_starts_audited
    reaches.endures 5 .standard "a" patch
  obtain ⟨org, hmem, hid, editedBy, -⟩ := houtcome updated hrun
  refine ⟨config, patch, updated, reaches, working, hrun, hshown, org, hmem, hid, ?_, editedBy⟩
  intro hsame
  have hstatus := congrArg Organization.status hsame
  have harchived : updated.status = .archived := congrArg (·.2.1) hshown
  dsimp only at hstatus
  rw [hactive org hmem, harchived] at hstatus
  cases hstatus

end Tenancy
