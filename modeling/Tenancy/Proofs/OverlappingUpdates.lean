import Tenancy.Proofs.OrderlyRuns
import Tenancy.Proofs.OrganizationAccesses

/-!
# Tenancy - Updates that overlap

An update writes back the whole record that it has read, with its patch applied.  When
another update has written in between, what that one has changed is undone, even if
the two patches have no field in common.  Nothing else undoes a change: if no update
is overtaken in this way, every patch shows in the end.

Main definitions:

- `WrittenSince`, `Overtaken`: another operation has written since an operation read,
  and before that operation wrote.
- `Course`: what operations that each update the record do to it.
- `Configuration.patched?`: the patch of an update that has succeeded.
- `Configuration.OnlyPatched`: nothing but updates has changed an organization.

Main results:

- Theorem `Course.shows_of_none_overtaken`: what was written shows, if no update was
  overtaken.
- Theorem `Course.lost_of_overtaken`: what some update has written does not show, if an
  update was overtaken.
- Theorem `Regime.Continues.shows_all_iff`: any number of updates with disjoint patches
  all show exactly if none was overtaken.
- Theorem `each_shows_iff_other_not_overtaken`: of two updates with disjoint patches,
  either one shows exactly if the other one was not overtaken.
-/

namespace Tenancy

open Organization

/-! ## Overtaken updates -/

/-- Another operation has written the record since an operation read it. -/
def WrittenSince (index : Nat) (made : List (Nat × Access)) : Prop :=
  ∃ org other written, other ≠ index ∧
    List.Sublist [(index, .read org), (other, .write written)] made

/-- Between an operation's reading the record and writing it another operation has written it. -/
def Overtaken (index : Nat) (made : List (Nat × Access)) : Prop :=
  ∃ org other written own, other ≠ index ∧
    List.Sublist [(index, .read org), (other, .write written), (index, .write own)] made

/-- The last element of a sublist comes at the end of the list or before. -/
theorem sublist_concat_iff {α : Type} (shorter : List α) {longer : List α} {a b : α} :
    List.Sublist (shorter ++ [a]) (longer ++ [b]) ↔
      List.Sublist (shorter ++ [a]) longer ∨ a = b ∧ List.Sublist shorter longer := by
  rw [← List.reverse_sublist, List.reverse_append, List.reverse_append]
  simp only [List.reverse_singleton, List.singleton_append, List.cons_sublist_cons']
  rw [← List.reverse_concat, List.reverse_sublist, List.reverse_sublist]

variable {index : Nat} {made : List (Nat × Access)}

theorem WrittenSince.concat (hsince : WrittenSince index made) (later : Nat × Access) :
    WrittenSince index (made ++ [later]) := by
  obtain ⟨org, other, written, hne, hsub⟩ := hsince
  exact ⟨org, other, written, hne, hsub.trans (List.sublist_append_left _ _)⟩

/-- An operation is overtaken when it writes after another one has written since it read. -/
theorem overtaken_concat_iff {later : Nat × Access} :
    Overtaken index (made ++ [later]) ↔
      Overtaken index made ∨ (∃ own, later = (index, .write own)) ∧ WrittenSince index made := by
  constructor
  · rintro ⟨org, other, written, own, hne, hsub⟩
    rcases (sublist_concat_iff [_, _]).1 hsub with hold | ⟨rfl, hsince⟩
    · exact .inl ⟨org, other, written, own, hne, hold⟩
    · exact .inr ⟨⟨own, rfl⟩, org, other, written, hne, hsince⟩
  · rintro (⟨org, other, written, own, hne, hsub⟩ | ⟨⟨own, rfl⟩, org, other, written, hne, hsub⟩)
    · exact ⟨org, other, written, own, hne, hsub.trans (List.sublist_append_left _ _)⟩
    · exact ⟨org, other, written, own, hne, hsub.append_right [(index, .write own)]⟩

theorem Overtaken.concat (hovertaken : Overtaken index made) (later : Nat × Access) :
    Overtaken index (made ++ [later]) :=
  overtaken_concat_iff.2 (.inl hovertaken)

/-- An operation that was overtaken has written. -/
theorem Overtaken.exists_write (hovertaken : Overtaken index made) :
    ∃ own, (index, Access.write own) ∈ made := by
  obtain ⟨org, other, written, own, -, hsub⟩ := hovertaken
  exact ⟨own, hsub.subset (by simp)⟩

/-! ## Courses of updates -/

/-- The patches of different operations mention no field both. -/
def AllDisjoint (patchOf : Nat → Option Patch) : Prop :=
  ∀ i j first second, i ≠ j → patchOf i = some first → patchOf j = some second →
    first.Disjoint second

/-- Starting with a stored record, accesses read what was written last, and operations write only
to update: the edit of what they have read, if that did not show their patch. -/
inductive Course (patchOf : Nat → Option Patch) (stored : Organization) :
    List (Nat × Access) → Organization → Prop
  | nil : Course patchOf stored [] stored
  | read {made : List (Nat × Access)} {last : Organization} (index : Nat)
      (course : Course patchOf stored made last) :
      Course patchOf stored (made ++ [(index, .read last)]) last
  | write {made : List (Nat × Access)} {last org : Organization} {index : Nat} {patch : Patch}
      (now : Nat) (course : Course patchOf stored made last) (hpatch : patchOf index = some patch)
      (hread : accessesOf index made = [.read org]) (hshows : ¬org.Shows patch) :
      Course patchOf stored (made ++ [(index, .write (org.edited patch now))])
        (org.edited patch now)

/-- What an update has done when it writes. -/
theorem Organization.IsUpdate.of_write {patch : Patch} {before after : List Access}
    {written : Organization} (update : IsUpdate patch (before ++ .write written :: after)) :
    ∃ org now, before = [.read org] ∧ ¬org.Shows patch ∧ written = org.edited patch now := by
  generalize hmade : before ++ .write written :: after = accesses at update
  cases update with
  | unchanged hshows =>
      rcases List.append_eq_singleton_iff.1 hmade with ⟨-, hwrite⟩ | ⟨-, hwrite⟩
      · cases hwrite
      · cases hwrite
  | @changed org now hshows =>
      rcases before with _ | ⟨head, rest⟩
      · cases hmade
      · obtain ⟨rfl, hrest⟩ := List.cons.inj hmade
        rcases rest with _ | ⟨second, rest⟩
        · obtain ⟨hwrite, -⟩ := List.cons.inj hrest
          exact ⟨org, now, rfl, hshows, Access.write.inj hwrite⟩
        · obtain ⟨-, hnone⟩ := List.cons.inj hrest
          simp at hnone

variable {patchOf : Nat → Option Patch} {stored last : Organization}

/-- Operations that each make the accesses of an update, if they write, take such a course. -/
theorem Replays.course {later : List (Nat × Access)} (replays : Replays stored made last)
    (hupdates : ∀ i written, (i, Access.write written) ∈ made ++ later →
      ∃ patch, patchOf i = some patch ∧ IsUpdate patch (accessesOf i (made ++ later))) :
    Course patchOf stored made last := by
  induction replays generalizing later with
  | nil => exact .nil
  | read index replays ih =>
      rw [List.append_assoc] at hupdates
      exact .read index (ih hupdates)
  | write index org replays ih =>
      obtain ⟨patch, hpatch, hupdate⟩ := hupdates index org (by simp)
      rw [accessesOf_append, accessesOf_concat_self, List.append_assoc] at hupdate
      obtain ⟨read, now, hread, hshows, rfl⟩ := hupdate.of_write
      rw [List.append_assoc] at hupdates
      exact .write now (ih hupdates) hpatch hread hshows

namespace Course

/-- An operation that has only read the record, and since then nobody else has written it, knows
the record. -/
theorem eq_last (course : Course patchOf stored made last) {org : Organization}
    (hread : accessesOf index made = [.read org]) (hsince : ¬WrittenSince index made) :
    org = last := by
  induction course generalizing org with
  | nil => cases hread
  | @read made last other course ih =>
      by_cases hother : other = index
      · subst hother
        rw [accessesOf_concat_self] at hread
        obtain ⟨-, rfl⟩ : accessesOf other made = [] ∧ last = org := by
          simpa [List.append_eq_singleton_iff] using hread
        rfl
      · rw [accessesOf_concat_of_ne hother] at hread
        exact ih hread fun hearlier => hsince (hearlier.concat _)
  | @write made last own other patch now course _ _ _ ih =>
      by_cases hother : other = index
      · subst hother
        rw [accessesOf_concat_self] at hread
        simp [List.append_eq_singleton_iff] at hread
      · rw [accessesOf_concat_of_ne hother] at hread
        have hmem : (index, Access.read org) ∈ made := mem_accessesOf.1 (by simp [hread])
        exact absurd ⟨org, other, _, hother,
          (List.singleton_sublist.2 hmem).append_right [(other, .write _)]⟩ hsince

/-- An operation that has only read the record has not written it. -/
theorem unwritten_of_read {org written : Organization}
    (hread : accessesOf index made = [.read org]) : (index, Access.write written) ∉ made := by
  rw [← mem_accessesOf, hread]
  simp

variable {patch : Patch}

/-- As long as an operation has not written, the record and all that was read of it show its patch
exactly if the record did in the beginning. -/
theorem shows_iff_of_unwritten (course : Course patchOf stored made last)
    (hdisjoint : AllDisjoint patchOf) (hpatch : patchOf index = some patch)
    (hunwritten : ∀ written, (index, Access.write written) ∉ made) :
    (last.Shows patch ↔ stored.Shows patch) ∧
      ∀ other org, (other, Access.read org) ∈ made → (org.Shows patch ↔ stored.Shows patch) := by
  induction course with
  | nil => exact ⟨Iff.rfl, by simp⟩
  | @read made last reader course ih =>
      obtain ⟨hlast, hreads⟩ := ih fun written hmem => hunwritten written (by simp [hmem])
      refine ⟨hlast, fun other org hmem => ?_⟩
      rcases List.mem_append.1 hmem with hold | hnew
      · exact hreads other org hold
      · obtain ⟨-, rfl⟩ : other = reader ∧ org = last := by simpa using hnew
        exact hlast
  | @write made last own writer writerPatch now course hwriter hread _ ih =>
      obtain ⟨hlast, hreads⟩ := ih fun written hmem => hunwritten written (by simp [hmem])
      have hne : index ≠ writer := by
        rintro rfl
        exact hunwritten (own.edited writerPatch now) (by simp)
      have hown := hreads writer own (mem_accessesOf.1 (by simp [hread]))
      have hkept : (own.edited writerPatch now).Shows patch ↔ own.Shows patch :=
        shows_edited_iff (hdisjoint _ _ _ _ hne hpatch hwriter) now
      refine ⟨hkept.trans hown, fun other org hmem => hreads other org ?_⟩
      simpa using hmem

/-- What was read before an operation wrote did not show the operation's patch. -/
theorem not_shows_of_sublist (course : Course patchOf stored made last)
    (hdisjoint : AllDisjoint patchOf) {reader : Nat} {org written : Organization}
    (hsub : List.Sublist [(reader, Access.read org), (index, Access.write written)] made) :
    ∃ patch, patchOf index = some patch ∧ ¬org.Shows patch := by
  induction course with
  | nil => cases hsub
  | read other course ih =>
      rcases (sublist_concat_iff [_]).1 hsub with hold | ⟨hnew, -⟩
      · exact ih hold
      · cases hnew
  | @write made last own writer patch now course hwriter hread hshows ih =>
      rcases (sublist_concat_iff [_]).1 hsub with hold | ⟨hnew, hread'⟩
      · exact ih hold
      · obtain ⟨rfl, -⟩ := Prod.mk.inj hnew
        obtain ⟨-, hreads⟩ := course.shows_iff_of_unwritten hdisjoint hwriter
          fun _ => unwritten_of_read hread
        have hown := hreads index own (mem_accessesOf.1 (by simp [hread]))
        have horg := hreads reader org (List.singleton_sublist.1 hread')
        exact ⟨patch, hwriter, fun h => hshows (hown.2 (horg.1 h))⟩

/-- If no operation was overtaken, the record shows the patch of every operation that has
written. -/
theorem shows_of_none_overtaken (course : Course patchOf stored made last)
    (hdisjoint : AllDisjoint patchOf) (hnone : ∀ i, ¬Overtaken i made)
    (hpatch : patchOf index = some patch) {written : Organization}
    (hwritten : (index, Access.write written) ∈ made) : last.Shows patch := by
  induction course generalizing written with
  | nil => cases hwritten
  | @read made last other course ih =>
      have hearlier : (index, Access.write written) ∈ made := by simpa using hwritten
      exact ih (fun i h => hnone i (h.concat _)) hearlier
  | @write made last own writer writerPatch now course hwriter hread _ ih =>
      -- The writer knows the record, so it writes an edit of what was stored.
      have hsince : ¬WrittenSince writer made := fun h =>
        hnone writer (overtaken_concat_iff.2 (.inr ⟨⟨_, rfl⟩, h⟩))
      obtain rfl := course.eq_last hread hsince
      by_cases hsame : index = writer
      · subst hsame
        obtain rfl := Option.some.inj (hwriter.symm.trans hpatch)
        exact edited_shows _ _ now
      · have hearlier : (index, Access.write written) ∈ made := by
          simpa [hsame] using hwritten
        have hlast := ih (fun i h => hnone i (h.concat _)) hearlier
        exact (shows_edited_iff (hdisjoint _ _ _ _ hsame hpatch hwriter) now).2 hlast

/-- If an operation was overtaken, the record does not show the patch of some operation that has
written. -/
theorem lost_of_overtaken (course : Course patchOf stored made last)
    (hdisjoint : AllDisjoint patchOf) {overtaken : Nat} (hovertaken : Overtaken overtaken made) :
    ∃ index patch written, patchOf index = some patch ∧ (index, Access.write written) ∈ made ∧
      ¬last.Shows patch := by
  induction course generalizing overtaken with
  | nil =>
      obtain ⟨_, _, _, _, _, hsub⟩ := hovertaken
      cases hsub
  | read other course ih =>
      rcases overtaken_concat_iff.1 hovertaken with hearlier | ⟨⟨own, hwrite⟩, -⟩
      · obtain ⟨index, patch, written, hpatch, hmem, hlost⟩ := ih hearlier
        exact ⟨index, patch, written, hpatch, by simp [hmem], hlost⟩
      · cases hwrite
  | @write made last own writer writerPatch now course hwriter hread _ ih =>
      by_cases hsince : WrittenSince writer made
      · -- What the other one has written is not in what the writer has read.
        obtain ⟨org, other, written, hne, hsub⟩ := hsince
        obtain ⟨patch, hpatch, hshows⟩ := course.not_shows_of_sublist hdisjoint hsub
        have hmem : (writer, Access.read org) ∈ made := hsub.subset (by simp)
        obtain rfl : org = own := by simpa [← mem_accessesOf, hread] using hmem
        refine ⟨other, patch, written, hpatch, ?_, ?_⟩
        · exact List.mem_append_left _ (hsub.subset (by simp))
        · exact fun h => hshows
            ((shows_edited_iff (hdisjoint _ _ _ _ hne hpatch hwriter) now).1 h)
      · -- The writer knows the record, so what was lost before stays lost.
        obtain rfl := course.eq_last hread hsince
        have hearlier : Overtaken overtaken made := by
          rcases overtaken_concat_iff.1 hovertaken with hearlier | ⟨⟨_, hwrite⟩, hlater⟩
          · exact hearlier
          · obtain ⟨rfl, -⟩ := Prod.mk.inj hwrite
            exact absurd hlater hsince
        obtain ⟨index, patch, written, hpatch, hmem, hlost⟩ := ih hearlier
        have hne : index ≠ writer := by
          rintro rfl
          exact unwritten_of_read hread hmem
        refine ⟨index, patch, written, hpatch, List.mem_append_left _ hmem, fun h => hlost ?_⟩
        exact (shows_edited_iff (hdisjoint _ _ _ _ hne hpatch hwriter) now).1 h

/-- Whoever has written has a patch. -/
theorem patched_of_write (course : Course patchOf stored made last) {written : Organization}
    (hwritten : (index, Access.write written) ∈ made) :
    ∃ patch, patchOf index = some patch := by
  induction course with
  | nil => cases hwritten
  | read other course ih => exact ih (by simpa using hwritten)
  | write now course hpatch _ _ ih =>
      rcases List.mem_append.1 hwritten with hearlier | hnew
      · exact ih hearlier
      · obtain ⟨rfl, -⟩ := Prod.mk.inj (List.mem_singleton.1 hnew)
        exact ⟨_, hpatch⟩

/-- When all updates have ended, the record shows all their patches exactly if none was
overtaken. -/
theorem shows_all_iff (course : Course patchOf stored made last)
    (hdisjoint : AllDisjoint patchOf)
    (hended : ∀ i patch, patchOf i = some patch → IsUpdate patch (accessesOf i made)) :
    (∀ i patch, patchOf i = some patch → last.Shows patch) ↔ ∀ i, ¬Overtaken i made := by
  constructor
  · intro hshows i hovertaken
    obtain ⟨index, patch, _, hpatch, -, hlost⟩ := course.lost_of_overtaken hdisjoint hovertaken
    exact hlost (hshows index patch hpatch)
  · intro hnone i patch hpatch
    have hupdate := hended i patch hpatch
    generalize haccesses : accessesOf i made = accesses at hupdate
    cases hupdate with
    | @unchanged org hshows =>
        obtain ⟨hlast, hreads⟩ := course.shows_iff_of_unwritten hdisjoint hpatch
          fun _ => unwritten_of_read haccesses
        have hread := hreads i org (mem_accessesOf.1 (by simp [haccesses]))
        exact hlast.2 (hread.1 hshows)
    | @changed org now _ =>
        have hwritten : (i, Access.write (org.edited patch now)) ∈ made :=
          mem_accessesOf.1 (by simp [haccesses])
        exact course.shows_of_none_overtaken hdisjoint hnone hpatch hwritten

/-! ## Two updates -/

section Pairs

variable {i j : Nat} {first : Patch}

/-- Among two operations, one that was overtaken has written last, so its patch shows. -/
theorem shows_of_overtaken (course : Course patchOf stored made last)
    (hpair : ∀ k patch, patchOf k = some patch → k = i ∨ k = j)
    (hfirst : patchOf i = some first) (hovertaken : Overtaken i made) : last.Shows first := by
  induction course with
  | nil =>
      obtain ⟨_, _, _, _, _, hsub⟩ := hovertaken
      cases hsub
  | read other course ih =>
      rcases overtaken_concat_iff.1 hovertaken with hearlier | ⟨⟨own, hwrite⟩, -⟩
      · exact ih hearlier
      · cases hwrite
  | @write made last own writer writerPatch now course hwriter hread _ ih =>
      by_cases hsame : writer = i
      · subst hsame
        obtain rfl := Option.some.inj (hwriter.symm.trans hfirst)
        exact edited_shows own _ now
      · -- The other operation has written already, when the first one was overtaken.
        have hearlier : Overtaken i made := by
          rcases overtaken_concat_iff.1 hovertaken with hearlier | ⟨⟨_, hwrite⟩, -⟩
          · exact hearlier
          · exact absurd (Prod.mk.inj hwrite).1 hsame
        obtain ⟨org, other, written, _, hother, hsub⟩ := hearlier
        have hwritten : (other, Access.write written) ∈ made := hsub.subset (by simp)
        obtain ⟨otherPatch, hotherPatch⟩ := course.patched_of_write hwritten
        obtain rfl : other = writer := by
          have h := (hpair other _ hotherPatch).resolve_left hother
          have h' := (hpair writer _ hwriter).resolve_left hsame
          rw [h, h']
        exact absurd hwritten (unwritten_of_read hread)

/-- When two updates have ended, the patch of the first one shows exactly if the second one was not
overtaken. -/
theorem shows_iff_not_overtaken (course : Course patchOf stored made last)
    (hdisjoint : AllDisjoint patchOf)
    (hended : ∀ k patch, patchOf k = some patch → IsUpdate patch (accessesOf k made))
    (hpair : ∀ k patch, patchOf k = some patch → k = i ∨ k = j)
    (hfirst : patchOf i = some first) : last.Shows first ↔ ¬Overtaken j made := by
  constructor
  · intro hshows hovertaken
    obtain ⟨k, patch, _, hpatch, -, hlost⟩ := course.lost_of_overtaken hdisjoint hovertaken
    rcases hpair k patch hpatch with rfl | rfl
    · obtain rfl := Option.some.inj (hfirst.symm.trans hpatch)
      exact hlost hshows
    · have hswapped : ∀ l patch, patchOf l = some patch → l = k ∨ l = i :=
        fun l patch hl => (hpair l patch hl).symm
      exact hlost (course.shows_of_overtaken hswapped hpatch hovertaken)
  · intro hnot
    by_cases hovertaken : Overtaken i made
    · exact course.shows_of_overtaken hpair hfirst hovertaken
    · have hnone : ∀ k, ¬Overtaken k made := by
        intro k h
        obtain ⟨own, hwritten⟩ := h.exists_write
        obtain ⟨patch, hpatch⟩ := course.patched_of_write hwritten
        rcases hpair k patch hpatch with rfl | rfl
        · exact hovertaken h
        · exact hnot h
      exact (course.shows_all_iff hdisjoint hended).2 hnone i first hfirst

end Pairs
end Course

/-! ## Updates in runs -/

/-- The patch with which a call has updated an organization with success. -/
def Task.patched? (id : String) : Task → Option Patch
  | ⟨.updateOrganization updated patch, .done (.ok _)⟩ => if updated = id then some patch else none
  | ⟨.archiveOrganization archived, .done (.ok _)⟩ => if archived = id then some .archive else none
  | _ => none

/-- The patch with which an operation has updated an organization with success. -/
def Configuration.patched? (config : Configuration) (id : String) (index : Nat) : Option Patch :=
  config.tasks[index]?.bind (Task.patched? id)

variable {id : String} {patch : Patch}

/-- What an update that has succeeded leaves in its transcript are the accesses of an update. -/
theorem Configuration.Recorded.isUpdate {config : Configuration} (recorded : config.Recorded)
    (hpatched : config.patched? id index = some patch) :
    IsUpdate patch ((transcriptOf config.history index).filterMap (Exchange.access? id)) := by
  obtain ⟨task, htask, hpatch⟩ := Option.bind_eq_some_iff.1 hpatched
  unfold Task.patched? at hpatch
  split at hpatch
  · obtain ⟨rfl, hsame⟩ := Option.ite_none_right_eq_some.1 hpatch
    obtain rfl := Option.some.inj hsame
    exact recorded.leaves
      (fun deployment => Organizations.update_leaves deployment.limits _ _) htask
  · obtain ⟨rfl, hsame⟩ := Option.ite_none_right_eq_some.1 hpatch
    obtain rfl := Option.some.inj hsame
    exact recorded.leaves
      (fun deployment => Organizations.update_leaves deployment.limits _ _) htask
  · cases hpatch

/-- The accesses of an operation that was started later are all there since then. -/
theorem Configuration.Recorded.accessesOf_later {before : Configuration} (recorded : before.Recorded)
    (hstarted : before.tasks.length ≤ index) (later : List Event) :
    accessesOf index (accesses id later) =
      (transcriptOf (before.history ++ later) index).filterMap (Exchange.access? id) := by
  have hnone : ∀ event ∈ before.history, event.task ≠ index := by
    intro event hevent heq
    have hknown := recorded.known event hevent
    omega
  rw [accessesOf_accesses, transcriptOf_append, transcriptOf_eq_nil hnone, List.nil_append]

/-- Since an earlier configuration only operations with these patches have written the record of an
organization, and they have updated it with success. -/
structure Configuration.OnlyPatched (before after : Configuration) (id : String)
    (patchOf : Nat → Option Patch) : Prop where
  ended : ∀ i patch, patchOf i = some patch →
    before.tasks.length ≤ i ∧ after.patched? id i = some patch
  writes : ∀ i written, (i, Access.write written) ∈ before.accessesSince id after →
    (patchOf i).isSome = true

variable {regime : Regime} {world : World} {before after : Configuration}

/-- Updates that have changed an organization since an earlier configuration, when nothing else has,
take a course from the record stored then to the one stored now. -/
theorem Regime.Continues.course (reaches : regime.Reaches world before)
    (continues : regime.Continues before after)
    (hstored : before.world.tables.organizations.find? (·.id == id) = some stored)
    (patched : before.OnlyPatched after id patchOf) :
    ∃ last, after.world.tables.organizations.find? (·.id == id) = some last ∧
      Course patchOf stored (before.accessesSince id after) last ∧
      ∀ i patch, patchOf i = some patch →
        IsUpdate patch (accessesOf i (before.accessesSince id after)) := by
  obtain ⟨later, last, hlater, hlast, replays⟩ := continues.replays hstored
  have hsince : before.accessesSince id after = accesses id later := by
    rw [Configuration.accessesSince, hlater, List.drop_left]
  have hwrites := patched.writes
  rw [hsince] at hwrites ⊢
  have hupdates : ∀ i patch, patchOf i = some patch →
      IsUpdate patch (accessesOf i (accesses id later)) := by
    intro i patch hpatch
    obtain ⟨hstarted, hpatched⟩ := patched.ended i patch hpatch
    rw [reaches.recorded.accessesOf_later hstarted, ← hlater]
    exact (reaches.onward continues).recorded.isUpdate hpatched
  refine ⟨last, hlast, @Replays.course _ _ _ _ [] replays ?_, hupdates⟩
  intro i written hmem
  rw [List.append_nil] at hmem ⊢
  obtain ⟨patch, hpatch⟩ := Option.isSome_iff_exists.1 (hwrites i written hmem)
  exact ⟨patch, hpatch, hupdates i patch hpatch⟩

/-- Of an organization that updates with disjoint patches have changed since, and nothing else, the
stored record shows all patches exactly if no update was overtaken. -/
theorem Regime.Continues.shows_all_iff (reaches : regime.Reaches world before)
    (continues : regime.Continues before after)
    (hstored : before.world.tables.organizations.find? (·.id == id) = some stored)
    (hdisjoint : AllDisjoint patchOf)
    (patched : before.OnlyPatched after id patchOf) :
    ∃ last, after.world.tables.organizations.find? (·.id == id) = some last ∧
      ((∀ i patch, patchOf i = some patch → last.Shows patch) ↔
        ∀ i, ¬Overtaken i (before.accessesSince id after)) := by
  obtain ⟨last, hlast, course, hupdates⟩ := continues.course reaches hstored patched
  exact ⟨last, hlast, course.shows_all_iff hdisjoint hupdates⟩

/-- The patches of two operations. -/
def patchesOf (i j : Nat) (first second : Patch) (index : Nat) : Option Patch :=
  if index = i then some first else if index = j then some second else none

variable {i j : Nat} {first second : Patch}

theorem patchesOf_eq_some_iff (hne : i ≠ j) :
    patchesOf i j first second index = some patch ↔
      index = i ∧ patch = first ∨ index = j ∧ patch = second := by
  unfold patchesOf
  split
  · rename_i hi
    simp [hi, hne, eq_comm]
  · rename_i hi
    simp [hi, eq_comm]

/-- The patches of two operations are disjoint if the two are. -/
theorem allDisjoint_patchesOf (hne : i ≠ j) (hdisjoint : first.Disjoint second) :
    AllDisjoint (patchesOf i j first second) := by
  intro k l one other hkl hone hother
  rcases (patchesOf_eq_some_iff hne).1 hone with ⟨rfl, rfl⟩ | ⟨rfl, rfl⟩ <;>
    rcases (patchesOf_eq_some_iff hne).1 hother with ⟨rfl, rfl⟩ | ⟨rfl, rfl⟩
  · exact absurd rfl hkl
  · exact hdisjoint
  · exact hdisjoint.symm
  · exact absurd rfl hkl

/-- Two updates of an organization with disjoint patches have succeeded, and nothing else has
changed it since.  Then the patch of either one shows exactly if the other one was not overtaken. -/
theorem each_shows_iff_other_not_overtaken (reaches : regime.Reaches world before)
    (continues : regime.Continues before after)
    (hstored : before.world.tables.organizations.find? (·.id == id) = some stored) (hne : i ≠ j)
    (hi : before.tasks.length ≤ i) (hfirst : after.patched? id i = some first)
    (hj : before.tasks.length ≤ j) (hsecond : after.patched? id j = some second)
    (hdisjoint : first.Disjoint second)
    (halone : ∀ k written, (k, Access.write written) ∈ before.accessesSince id after →
      k = i ∨ k = j) :
    ∃ last, after.world.tables.organizations.find? (·.id == id) = some last ∧
      (last.Shows first ↔ ¬Overtaken j (before.accessesSince id after)) ∧
      (last.Shows second ↔ ¬Overtaken i (before.accessesSince id after)) := by
  have hone : patchesOf i j first second i = some first :=
    (patchesOf_eq_some_iff hne).2 (.inl ⟨rfl, rfl⟩)
  have hother : patchesOf i j first second j = some second :=
    (patchesOf_eq_some_iff hne).2 (.inr ⟨rfl, rfl⟩)
  have hpair : ∀ k patch, patchesOf i j first second k = some patch → k = i ∨ k = j :=
    fun k patch hpatch => ((patchesOf_eq_some_iff hne).1 hpatch).imp And.left And.left
  have patched : before.OnlyPatched after id (patchesOf i j first second) := by
    constructor
    · intro k patch hpatch
      rcases (patchesOf_eq_some_iff hne).1 hpatch with ⟨rfl, rfl⟩ | ⟨rfl, rfl⟩
      · exact ⟨hi, hfirst⟩
      · exact ⟨hj, hsecond⟩
    · intro k written hmem
      rcases halone k written hmem with rfl | rfl
      · exact Option.isSome_of_eq_some hone
      · exact Option.isSome_of_eq_some hother
  obtain ⟨last, hlast, course, hupdates⟩ := continues.course reaches hstored patched
  have hall := allDisjoint_patchesOf hne hdisjoint
  exact ⟨last, hlast, course.shows_iff_not_overtaken hall hupdates hpair hone,
    course.shows_iff_not_overtaken hall hupdates (fun k patch h => (hpair k patch h).symm) hother⟩

/-- An archiving begins after a renaming has written and before it has left its note: neither is
overtaken, and both show. -/
theorem each_shows_iff_other_not_overtaken_late_note :
    ∃ before after, (Regime.uniform default).Continues before after ∧
      after.patched? "a" 1 =
        some { displayName := some "South", metadata := none, status := none } ∧
      after.patched? "a" 2 = some .archive ∧
      ¬Overtaken 1 (before.accessesSince "a" after) ∧
      ¬Overtaken 2 (before.accessesSince "a" after) := by
  have starts : (Regime.uniform default).Starts (World.blank []) :=
    Regime.uniform_starts_blank default (by simp)
  have reaches := Regime.uniform_scheduled starts
    [.createOrganization
      { slug := "north", displayName := "North", tenantId := none, metadata := .empty }]
    (List.replicate 7 0)
  have continues := Regime.uniform_continues starts reaches
    [.updateOrganization "a" { displayName := some "South", metadata := none, status := none },
     .archiveOrganization "a"] [1, 1, 1, 1, 2, 1, 2, 2, 2]
  obtain ⟨before, after, reaches, continues, hstored, hstarted, hfirst, hsecond, halone, hshown⟩ :
      ∃ before after, (Regime.uniform default).Reaches (World.blank []) before ∧
        (Regime.uniform default).Continues before after ∧
        (before.world.tables.organizations.find? (·.id == "a")).isSome = true ∧
        before.tasks.length = 1 ∧
        after.patched? "a" 1 =
          some { displayName := some "South", metadata := none, status := none } ∧
        after.patched? "a" 2 = some .archive ∧
        (∀ access ∈ before.accessesSince "a" after, access.1 = 1 ∨ access.1 = 2) ∧
        (after.world.tables.organizations.find? (·.id == "a")).map
          (fun org => (org.displayName, org.status)) = some ("South", .archived) :=
    ⟨_, _, reaches, continues, by decide +kernel, by decide +kernel, by decide +kernel,
      by decide +kernel, by decide +kernel, by decide +kernel⟩
  obtain ⟨stored, hfound⟩ := Option.isSome_iff_exists.1 hstored
  obtain ⟨last, hlast, hrename, harchive⟩ := each_shows_iff_other_not_overtaken reaches continues
    hfound (by decide : (1 : Nat) ≠ 2) hstarted.le hfirst (by omega) hsecond
    ⟨.inr rfl, .inl rfl, .inl rfl⟩ fun k written hmem => halone _ hmem
  rw [hlast] at hshown
  obtain ⟨hname, hstatus⟩ := Prod.mk.inj (Option.some.inj hshown)
  have hrenamed : last.Shows { displayName := some "South", metadata := none, status := none } :=
    { displayName := by
        rintro _ ⟨⟩
        exact hname
      metadata := nofun
      status := nofun }
  have harchived : last.Shows .archive :=
    { displayName := nofun
      metadata := nofun
      status := by
        rintro _ ⟨⟩
        exact hstatus }
  exact ⟨before, after, continues, hfirst, hsecond, harchive.1 harchived, hrename.1 hrenamed⟩

/-- A renaming has read the record when an update of the metadata writes, and writes after it: the
metadata is what it was before. -/
theorem not_both_show_stale_rename :
    ∃ before after rename describe, (Regime.uniform default).Reaches (World.blank []) before ∧
      (Regime.uniform default).Continues before after ∧ rename.Disjoint describe ∧
      after.patched? "a" 1 = some rename ∧ after.patched? "a" 2 = some describe ∧
      ¬∃ last, after.world.tables.organizations.find? (·.id == "a") = some last ∧
        last.Shows rename ∧ last.Shows describe := by
  have starts : (Regime.uniform default).Starts (World.blank []) :=
    Regime.uniform_starts_blank default (by simp)
  have reaches := Regime.uniform_scheduled starts
    [.createOrganization
      { slug := "north", displayName := "North", tenantId := none, metadata := .empty }]
    (List.replicate 7 0)
  have continues := Regime.uniform_continues starts reaches
    [.updateOrganization "a" { displayName := some "South", metadata := none, status := none },
     .updateOrganization "a"
      { displayName := none, metadata := some (.ofList [("tier", "gold")]), status := none }]
    [1, 2, 2, 2, 2, 1, 1, 1, 1]
  obtain ⟨before, after, reaches, continues, hrename, hdescribe, hlost⟩ :
      ∃ before after, (Regime.uniform default).Reaches (World.blank []) before ∧
        (Regime.uniform default).Continues before after ∧
        after.patched? "a" 1 =
          some { displayName := some "South", metadata := none, status := none } ∧
        after.patched? "a" 2 = some
          { displayName := none, metadata := some (.ofList [("tier", "gold")]), status := none } ∧
        (after.world.tables.organizations.find? (·.id == "a")).map (·.metadata) = some .empty :=
    ⟨_, _, reaches, continues, by decide +kernel, by decide +kernel, by decide +kernel⟩
  refine ⟨before, after, _, _, reaches, continues, ⟨.inr rfl, .inl rfl, .inl rfl⟩, hrename,
    hdescribe, ?_⟩
  rintro ⟨last, hlast, -, hshows⟩
  rw [hlast] at hlost
  have hmetadata := (hshows.metadata _ rfl).symm.trans (Option.some.inj hlost)
  exact absurd hmetadata (by decide)

end Tenancy
