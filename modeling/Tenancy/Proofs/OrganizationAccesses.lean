import Tenancy.Proofs.OrganizationEdits
import Tenancy.Proofs.Transcripts

/-!
# Tenancy - Reading and writing an organization

The history of a run tells who has read the record of an organization and who has
written it.  The store keeps the record that was written last, and gives it to who
reads.  An update reads the record once; then it either finds that there is nothing to
change, or writes the edit of what it has read.

Main definitions:

- `Access`, `Exchange.access?`: reading or writing the record of an organization.
- `accesses`, `accessesOf`: the accesses in a history, and those of one operation.
- `Replays`: accesses that read what was written last.
- `Configuration.accessesSince`: the accesses since an earlier configuration.
- `Organization.IsUpdate`: the accesses of an update that succeeds.

Main results:

- Theorem `Regime.Continues.replays`: in every run, accesses read what was written
  last, and that is what is stored in the end.
- Theorem `Organizations.update_leaves`: what an update that succeeds leaves in its
  transcript.
-/

namespace Tenancy

/-! ## Accesses -/

/-- An access to the record of an organization. -/
inductive Access
  | read (org : Organization)
  | write (org : Organization)
deriving DecidableEq

/-- The access to the record of an organization that an exchange makes, if it succeeds. -/
def Exchange.access? (id : String) : Exchange → Option Access
  | ⟨.store (.organizations (.findById wanted)), .ok (some org)⟩ =>
    if wanted = id then some (.read org) else none
  | ⟨.store (.organizations (.update org)), .ok ()⟩ =>
    if org.id = id then some (.write org) else none
  | _ => none

/-- The accesses to the record of an organization in a history, with the operations that make
them. -/
def accesses (id : String) (history : List Event) : List (Nat × Access) :=
  history.filterMap fun event => (event.exchange.access? id).map fun access => (event.task, access)

/-- The accesses that one operation makes. -/
def accessesOf (index : Nat) (made : List (Nat × Access)) : List Access :=
  (made.filter (·.1 == index)).map (·.2)

theorem accesses_singleton (id : String) (event : Event) :
    accesses id [event] =
      ((event.exchange.access? id).map fun access => (event.task, access)).toList := by
  cases haccess : event.exchange.access? id <;> simp [accesses, haccess]

theorem accesses_append (id : String) (first second : List Event) :
    accesses id (first ++ second) = accesses id first ++ accesses id second :=
  List.filterMap_append

theorem accessesOf_append (index : Nat) (first second : List (Nat × Access)) :
    accessesOf index (first ++ second) = accessesOf index first ++ accessesOf index second := by
  simp [accessesOf]

/-- An access goes to the end of those of the operation that makes it. -/
theorem accessesOf_concat_self (index : Nat) (made : List (Nat × Access)) (access : Access) :
    accessesOf index (made ++ [(index, access)]) = accessesOf index made ++ [access] := by
  simp [accessesOf]

/-- An access is not one of another operation. -/
theorem accessesOf_concat_of_ne {index other : Nat} (hne : other ≠ index)
    (made : List (Nat × Access)) (access : Access) :
    accessesOf index (made ++ [(other, access)]) = accessesOf index made := by
  simp [accessesOf, hne]

/-- An operation makes exactly the accesses that are listed under it. -/
theorem mem_accessesOf {index : Nat} {access : Access} {made : List (Nat × Access)} :
    access ∈ accessesOf index made ↔ (index, access) ∈ made := by
  simp only [accessesOf, List.mem_map, List.mem_filter, beq_iff_eq, Prod.exists]
  constructor
  · rintro ⟨_, _, ⟨hmem, rfl⟩, rfl⟩
    exact hmem
  · intro hmem
    exact ⟨index, access, ⟨hmem, rfl⟩, rfl⟩

/-- The accesses of an operation are read off its transcript. -/
theorem accessesOf_accesses (id : String) (index : Nat) (history : List Event) :
    accessesOf index (accesses id history) =
      (transcriptOf history index).filterMap (Exchange.access? id) := by
  induction history with
  | nil => rfl
  | cons event rest ih =>
      obtain ⟨task, exchange⟩ := event
      have hsplit : accesses id (⟨task, exchange⟩ :: rest) =
          accesses id [⟨task, exchange⟩] ++ accesses id rest := accesses_append id [_] rest
      have htranscript : transcriptOf (⟨task, exchange⟩ :: rest) index =
          transcriptOf [⟨task, exchange⟩] index ++ transcriptOf rest index :=
        transcriptOf_append [_] rest index
      rw [hsplit, accessesOf_append, htranscript, List.filterMap_append, ih]
      congr 1
      by_cases htask : task = index
      · cases haccess : exchange.access? id <;>
          simp [accesses, accessesOf, transcriptOf, htask, haccess]
      · cases haccess : exchange.access? id <;>
          simp [accesses, accessesOf, transcriptOf, htask, haccess]

/-! ## Replaying accesses -/

/-- With a record being stored, a request makes an access or none, and then the last record is
stored. -/
inductive Access.Leads (stored : Organization) : Option Access → Organization → Prop
  | none : Leads stored none stored
  | read : Leads stored (some (.read stored)) stored
  | write (org : Organization) : Leads stored (some (.write org)) org

/-- Starting with a stored record, accesses read what was written last; that is the record in the
end. -/
inductive Replays (stored : Organization) : List (Nat × Access) → Organization → Prop
  | nil : Replays stored [] stored
  | read {made : List (Nat × Access)} {last : Organization} (index : Nat)
      (replays : Replays stored made last) :
      Replays stored (made ++ [(index, .read last)]) last
  | write {made : List (Nat × Access)} {last : Organization} (index : Nat) (org : Organization)
      (replays : Replays stored made last) :
      Replays stored (made ++ [(index, .write org)]) org

/-- The next request goes to the end. -/
theorem Replays.lead {stored middle last : Organization} {made : List (Nat × Access)}
    {access : Option Access} (replays : Replays stored made middle)
    (leads : Access.Leads middle access last) (index : Nat) :
    Replays stored (made ++ (access.map fun access => (index, access)).toList) last := by
  cases leads with
  | none => simpa using replays
  | read => exact replays.read index
  | write => exact replays.write index last

namespace Tables

/-- A store call reads the stored record of an organization, or writes it, or leaves it as it
is. -/
theorem leads_perform {tables : Tables} {id : String} {stored : Organization}
    (hstored : tables.organizations.find? (·.id == id) = some stored) (call : Call) :
    ∃ last, (tables.perform call).2.organizations.find? (·.id == id) = some last ∧
      Access.Leads stored
        (Exchange.access? id ⟨.store call, (tables.perform call).1⟩) last := by
  cases call with
  | organizations call =>
      cases call with
      | create org =>
          refine ⟨stored, ?_, .none⟩
          simp only [perform, performOrganization]
          split
          · exact hstored
          · split
            · exact hstored
            · simp [List.find?_append, hstored]
      | findById wanted =>
          refine ⟨stored, hstored, ?_⟩
          simp only [perform, performOrganization]
          by_cases hid : wanted = id
          · subst hid
            rw [hstored]
            simpa [Exchange.access?] using Access.Leads.read
          · cases hfound : tables.organizations.find? (·.id == wanted) with
            | none => exact .none
            | some org => simpa [Exchange.access?, hid] using Access.Leads.none
      | update org =>
          simp only [perform, performOrganization]
          split
          · exact ⟨stored, hstored, .none⟩
          · split
            · by_cases hid : org.id = id
              · subst hid
                refine ⟨org, find_put (·.id) org tables.organizations, ?_⟩
                simpa [Exchange.access?] using Access.Leads.write org
              · refine ⟨stored, (find_put_of_ne hid _).trans hstored, ?_⟩
                simpa [Exchange.access?, hid] using Access.Leads.none
            · exact ⟨stored, hstored, .none⟩
      | findBySlug | findByDisplayName | list => exact ⟨stored, hstored, .none⟩
  | memberships call | roles call | invitations call | directory call | catalog call =>
      refine ⟨stored, ?_, .none⟩
      rw [perform_organizations (by rintro _ ⟨⟩)]
      exact hstored

end Tables

/-- A request reads the stored record of an organization, or writes it, or leaves it as it is. -/
theorem World.leads_perform {world : World} {id : String} {stored : Organization}
    (hstored : world.tables.organizations.find? (·.id == id) = some stored) (effect : Effect) :
    ∃ last, (World.perform effect world).2.tables.organizations.find? (·.id == id) = some last ∧
      Access.Leads stored
        (Exchange.access? id ⟨effect, (World.perform effect world).1⟩) last := by
  cases effect with
  | store call => exact Tables.leads_perform hstored call
  | clock | freshId | randomBytes | note => exact ⟨stored, hstored, .none⟩

/-! ## Accesses in runs -/

/-- The accesses to the record of an organization since an earlier configuration. -/
def Configuration.accessesSince (id : String) (before after : Configuration) :
    List (Nat × Access) :=
  accesses id (after.history.drop before.history.length)

/-- One more step replays the accesses that it makes. -/
theorem Regime.Step.replays {regime : Regime} {middle after : Configuration} {id : String}
    {stored current : Organization} {earlier : List Event} (step : regime.Step middle after)
    (hcurrent : middle.world.tables.organizations.find? (·.id == id) = some current)
    (replays : Replays stored (accesses id earlier) current) :
    ∃ later last, after.history = middle.history ++ later ∧
      after.world.tables.organizations.find? (·.id == id) = some last ∧
      Replays stored (accesses id (earlier ++ later)) last := by
  have hidle : Replays stored (accesses id (earlier ++ [])) current := by
    rw [List.append_nil]
    exact replays
  cases step with
  | start deployment operation _ =>
      exact ⟨[], current, (List.append_nil _).symm, hcurrent, hidle⟩
  | advance index _ =>
      rcases middle.advance_cases index with hsame | ⟨operation, effect, next, htask⟩
      · rw [hsame]
        exact ⟨[], current, (List.append_nil _).symm, hcurrent, hidle⟩
      · rw [Configuration.advance_ask htask]
        obtain ⟨last, hlast, leads⟩ := World.leads_perform hcurrent effect
        refine ⟨_, last, rfl, hlast, ?_⟩
        rw [accesses_append, accesses_singleton]
        exact replays.lead leads index
  | shift outside _ => exact ⟨[], current, (List.append_nil _).symm, hcurrent, hidle⟩

/-- However a run goes on, the accesses to a stored organization read what was written last, and
that is stored in the end. -/
theorem Regime.Continues.replays {regime : Regime} {before after : Configuration} {id : String}
    {stored : Organization} (continues : regime.Continues before after)
    (hstored : before.world.tables.organizations.find? (·.id == id) = some stored) :
    ∃ later last, after.history = before.history ++ later ∧
      after.world.tables.organizations.find? (·.id == id) = some last ∧
      Replays stored (accesses id later) last := by
  induction continues with
  | refl => exact ⟨[], stored, (List.append_nil _).symm, hstored, .nil⟩
  | tail _ step ih =>
      obtain ⟨earlier, current, hearlier, hcurrent, replays⟩ := ih
      obtain ⟨later, last, hlater, hlast, hreplays⟩ := step.replays hcurrent replays
      refine ⟨earlier ++ later, last, ?_, hlast, hreplays⟩
      rw [hlater, hearlier, List.append_assoc]

/-! ## Accesses of an update -/

/-- The accesses of an update that succeeds: it reads the record, and if that does not show the
patch, it writes the edit. -/
inductive Organization.IsUpdate (patch : Patch) : List Access → Prop
  | unchanged {org : Organization} (hshows : org.Shows patch) : IsUpdate patch [.read org]
  | changed {org : Organization} (now : Nat) (hshows : ¬org.Shows patch) :
      IsUpdate patch [.read org, .write (org.edited patch now)]

/-- Loading an organization that exists reads its record. -/
theorem Action.loadOrganization_leaves (id : String) :
    (Action.loadOrganization id).Leaves (Exchange.access? id)
      fun left org => org.id = id ∧ left = [.read org] := by
  have hfind : (Action.ask (.organizations (.findById id))).Leaves (Exchange.access? id)
      fun left found => ∀ org, found = some org → org.id = id ∧ left = [.read org] := by
    refine @Action.Leaves.ask _ _ (.organizations (.findById id)) _ fun tables found hfound => ?_
    rintro org rfl
    exact ⟨Tables.key_of_find (Except.ok.inj hfound), by simp [Exchange.access?]⟩
  refine .bind hfind fun left found hread => ?_
  cases found with
  | none => exact .throw _
  | some org =>
      obtain ⟨hid, hleft⟩ := hread org rfl
      exact .pure ⟨hid, by rw [hleft, List.append_nil]⟩

/-- Writing the record of an organization that is stored writes it. -/
theorem Action.updateOrganization_leaves (org : Organization) :
    (Action.ask (.organizations (.update org))).Leaves (Exchange.access? org.id)
      fun left _ => left = [.write org] :=
  @Action.Leaves.ask _ _ (.organizations (.update org)) _ fun _ _ _ => by simp [Exchange.access?]

/-- An update that succeeds makes the accesses of an update. -/
theorem Organizations.update_leaves (limits : Limits) (id : String)
    (patch : Organization.Patch) :
    (Organizations.update limits id patch).Leaves (Exchange.access? id)
      fun left _ => Organization.IsUpdate patch left := by
  refine .bind (Action.loadOrganization_leaves id) fun left org hloaded => ?_
  obtain ⟨rfl, rfl⟩ := hloaded
  refine .afterUses (Organizations.patchedName_yields limits org _ fun _ _ => rfl)
    fun name hname => .afterUses (Organizations.patchedMetadata_yields limits org _)
    fun metadata hmetadata => .afterUses (.now fun _ => rfl) fun now _ => ?_
  dsimp only
  rw [hname.name_eq, hmetadata.1]
  have hchanged : org.changedFields (org.edited patch now) = [] ↔ org.Shows patch :=
    Organization.changedFields_eq_nil_iff now
  split
  · rename_i hsame
    exact .pure (.unchanged (hchanged.1 (List.isEmpty_iff.1 hsame)))
  · rename_i hdiffers
    have hshows : ¬org.Shows patch :=
      fun hshows => hdiffers (List.isEmpty_iff.2 (hchanged.2 hshows))
    refine .bind (Action.updateOrganization_leaves (org.edited patch now)) fun written _ hwritten =>
      .afterUses (.note fun _ => rfl) fun _ _ => .pure ?_
    rw [hwritten]
    exact .changed now hshows

end Tenancy
