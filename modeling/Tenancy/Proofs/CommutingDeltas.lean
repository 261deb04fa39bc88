import Tenancy.Proofs.MembershipTurns
import Tenancy.Proofs.MembershipWrites

/-!
# Tenancy - Deltas that commute

A delta names roles that go and roles that come, and it may set the primary flag.  Two
deltas to one membership that do not contradict each other can be applied in either
order: both times the membership ends up with the same roles and the same flag, and
the other memberships are the same.  Only the order of the assignments and the times
may tell which delta came first.

Main definitions:

- `Membership.Change.Compatible`: two deltas to one membership do not contradict each
  other.
- `Tables.applyBoth`: a store after one delta and then another.
- `Tables.Combines`: a store shows what either of two deltas does.
- `Membership.Change.Commutes`: the order of two deltas does not matter in any store.
- `Membership.Change.DerivesFrom`: a delta is what to change of a membership.

Main results:

- Theorem `Tables.combines_applyBoth`: compatible deltas are combined.
- Theorem `Membership.Change.Compatible.commutes`: so they commute.
- Theorem `Membership.Change.DerivesFrom.compatible`: deltas that derive from one membership
  are compatible, if only one of them sets the flag.
-/

namespace Tenancy

/-! ## Compatible deltas -/

namespace Membership.Change

/-- The membership that a delta is for. -/
def key (change : Change) : String × String :=
  (change.organizationId, change.userId)

/-- The ids of the roles that a delta adds. -/
def addedRoleIds (change : Change) : List String :=
  change.added.map (·.roleId)

/-- What a delta does to another membership than the one that it is for, which belongs to a
tenant. -/
def onOther (change : Change) (tenantId : Option String) (other : Membership) : Membership :=
  if change.clearsOthers then
    other.withdrawPrimary change.organizationId change.userId tenantId change.updatedAt
  else other

/-- After a delta, the roles are those that were left or added. -/
theorem mem_roleIds_applyChange {change : Change} {member : Membership} {roleId : String} :
    roleId ∈ (member.applyChange change).roleIds ↔
      roleId ∈ member.roleIds ∧ roleId ∉ change.removedRoleIds ∨ roleId ∈ change.addedRoleIds :=
  mem_roleIds_reassign

/-- After one delta and then another, a role that neither one names is assigned exactly if it was
before. -/
theorem kept {first second : Change} (member : Membership) {roleId : String}
    (hfirst : roleId ∉ first.addedRoleIds) (hsecond : roleId ∉ second.addedRoleIds)
    (hgone : roleId ∉ first.removedRoleIds) (hlost : roleId ∉ second.removedRoleIds) :
    roleId ∈ ((member.applyChange first).applyChange second).roleIds ↔
      roleId ∈ member.roleIds := by
  rw [mem_roleIds_applyChange, mem_roleIds_applyChange]
  tauto

/-- Two deltas do not contradict each other: they are for one membership, a role that either one
adds is removed by none, at most one sets the primary flag, and one that clears the flags of others
sets it. -/
structure Compatible (first second : Change) : Prop where
  place : second.key = first.key
  roles : ∀ roleId, roleId ∈ first.addedRoleIds ∨ roleId ∈ second.addedRoleIds →
    roleId ∉ first.removedRoleIds ∧ roleId ∉ second.removedRoleIds
  flag : first.isPrimary = none ∨ second.isPrimary = none
  firstClears : first.clearsOthers = true → first.isPrimary = some true
  secondClears : second.clearsOthers = true → second.isPrimary = some true

namespace Compatible

variable {first second : Change}

/-- Of compatible deltas, either one may be called the first. -/
theorem symm (compatible : first.Compatible second) : second.Compatible first where
  place := compatible.place.symm
  roles roleId hadded := (compatible.roles roleId hadded.symm).symm
  flag := compatible.flag.symm
  firstClears := compatible.secondClears
  secondClears := compatible.firstClears

/-- At most one of compatible deltas clears the flags of others. -/
theorem clears (compatible : first.Compatible second) :
    first.clearsOthers = false ∨ second.clearsOthers = false := by
  have hnone : ∀ change : Change, (change.clearsOthers = true → change.isPrimary = some true) →
      change.isPrimary = none → change.clearsOthers = false := by
    intro change hclears hflag
    rw [← Bool.not_eq_true]
    intro htrue
    rw [hclears htrue] at hflag
    cases hflag
  exact compatible.flag.imp (hnone first compatible.firstClears)
    (hnone second compatible.secondClears)

/-- After one delta and then another that is compatible, the roles that either one adds are
assigned. -/
theorem added (compatible : first.Compatible second) (member : Membership) {roleId : String}
    (hadded : roleId ∈ first.addedRoleIds ∨ roleId ∈ second.addedRoleIds) :
    roleId ∈ ((member.applyChange first).applyChange second).roleIds := by
  have hleft := (compatible.roles roleId hadded).2
  rw [mem_roleIds_applyChange, mem_roleIds_applyChange]
  exact hadded.elim (fun hfirst => .inl ⟨.inr hfirst, hleft⟩) .inr

/-- After one delta and then another that is compatible, the roles that either one removes are not
assigned. -/
theorem removed (compatible : first.Compatible second) (member : Membership) {roleId : String}
    (hremoved : roleId ∈ first.removedRoleIds ∨ roleId ∈ second.removedRoleIds) :
    roleId ∉ ((member.applyChange first).applyChange second).roleIds := by
  have hadded := compatible.roles roleId
  rw [mem_roleIds_applyChange, mem_roleIds_applyChange]
  tauto

/-- What compatible deltas do to another membership does not depend on their order. -/
theorem onOther_comm (compatible : first.Compatible second) (tenantId : Option String)
    (other : Membership) :
    second.onOther tenantId (first.onOther tenantId other) =
      first.onOther tenantId (second.onOther tenantId other) := by
  rcases compatible.clears with hclears | hclears <;> simp [onOther, hclears]

/-- The flag that compatible deltas set does not depend on their order. -/
theorem or_comm (compatible : first.Compatible second) :
    first.isPrimary.or second.isPrimary = second.isPrimary.or first.isPrimary := by
  rcases compatible.flag with hflag | hflag <;> simp [hflag]

/-- After one delta and then another, the flag is the one that either has set. -/
theorem isPrimary_applyChange (compatible : first.Compatible second) (member : Membership) :
    ((member.applyChange first).applyChange second).isPrimary =
      (first.isPrimary.or second.isPrimary).getD member.isPrimary := by
  rcases compatible.flag with hflag | hflag <;> simp [applyChange, hflag]

end Compatible

end Membership.Change

/-! ## Two deltas in a store -/

namespace Tables

/-- A store after a delta and then another, and the membership that results, if there is one to
change. -/
def applyBoth (tables : Tables) (first second : Membership.Change) :
    Except StoreError Membership × Tables :=
  match tables.perform (.memberships (.applyChange first)) with
  | (.ok _, after) => after.perform (.memberships (.applyChange second))
  | (.error error, after) => (.error error, after)

/-- A store shows what either of two deltas does to the membership that they are for, and to the
others. -/
structure Combines (before after : Tables) (first second : Membership.Change)
    (member changed : Membership) : Prop where
  stored : after.memberships.find? (isMemberOf first.organizationId first.userId) = some changed
  added : ∀ roleId, roleId ∈ first.addedRoleIds ∨ roleId ∈ second.addedRoleIds →
    roleId ∈ changed.roleIds
  removed : ∀ roleId, roleId ∈ first.removedRoleIds ∨ roleId ∈ second.removedRoleIds →
    roleId ∉ changed.roleIds
  kept : ∀ roleId, roleId ∉ first.addedRoleIds → roleId ∉ second.addedRoleIds →
    roleId ∉ first.removedRoleIds → roleId ∉ second.removedRoleIds →
    (roleId ∈ changed.roleIds ↔ roleId ∈ member.roleIds)
  isPrimary : changed.isPrimary = (first.isPrimary.or second.isPrimary).getD member.isPrimary
  rest : changed =
    { member with
      isPrimary := changed.isPrimary, roles := changed.roles, updatedAt := changed.updatedAt }
  /-- The others have the roles that they had, and lose the flag if either delta clears it. -/
  others : after.othersThan first.organizationId first.userId =
    (before.othersThan first.organizationId first.userId).map fun other =>
      second.onOther member.tenantId (first.onOther member.tenantId other)

variable {tables after : Tables} {first second : Membership.Change} {member changed : Membership}

namespace Combines

/-- Of compatible deltas that are combined, either one may be called the first. -/
theorem symm (combines : tables.Combines after first second member changed)
    (compatible : first.Compatible second) :
    tables.Combines after second first member changed := by
  obtain ⟨horg, huser⟩ := Prod.mk.inj compatible.place
  exact
    { stored := by
        rw [horg, huser]
        exact combines.stored
      added := fun roleId hadded => combines.added roleId hadded.symm
      removed := fun roleId hremoved => combines.removed roleId hremoved.symm
      kept := fun roleId hsecond hfirst hremoved hgone =>
        combines.kept roleId hfirst hsecond hgone hremoved
      isPrimary := by
        rw [← compatible.or_comm]
        exact combines.isPrimary
      rest := combines.rest
      others := by
        rw [horg, huser, combines.others]
        exact congrArg (List.map · _) (funext (compatible.onOther_comm member.tenantId)) }

/-- Two deltas are combined in every store with the same memberships. -/
theorem of_memberships_eq {same : Tables}
    (combines : tables.Combines after first second member changed)
    (hsame : same.memberships = after.memberships) :
    tables.Combines same first second member changed where
  stored := by
    rw [hsame]
    exact combines.stored
  added := combines.added
  removed := combines.removed
  kept := combines.kept
  isPrimary := combines.isPrimary
  rest := combines.rest
  others := by
    rw [othersThan, hsame]
    exact combines.others

/-- Wherever two deltas are combined, the membership has the same roles. -/
theorem mem_roleIds_iff {other : Tables} {found : Membership}
    (combines : tables.Combines after first second member changed)
    (again : tables.Combines other first second member found) (roleId : String) :
    roleId ∈ changed.roleIds ↔ roleId ∈ found.roleIds := by
  by_cases hadded : roleId ∈ first.addedRoleIds ∨ roleId ∈ second.addedRoleIds
  · exact iff_of_true (combines.added roleId hadded) (again.added roleId hadded)
  by_cases hremoved : roleId ∈ first.removedRoleIds ∨ roleId ∈ second.removedRoleIds
  · exact iff_of_false (combines.removed roleId hremoved) (again.removed roleId hremoved)
  obtain ⟨hfirst, hsecond⟩ := not_or.1 hadded
  obtain ⟨hgone, hlost⟩ := not_or.1 hremoved
  exact (combines.kept roleId hfirst hsecond hgone hlost).trans
    (again.kept roleId hfirst hsecond hgone hlost).symm

end Combines

/-- A delta to a stored membership changes it in its place and does to the others what it does to
others, and beside the memberships only the number of writes changes. -/
theorem applyChange_applies {change : Membership.Change}
    (hfind : tables.memberships.find? (isMemberOf change.organizationId change.userId) =
      some member) :
    ∃ after, tables.perform (.memberships (.applyChange change)) =
        (.ok (member.applyChange change), after) ∧
      after.memberships.find? (isMemberOf change.organizationId change.userId) =
        some (member.applyChange change) ∧
      after.othersThan change.organizationId change.userId =
        (tables.othersThan change.organizationId change.userId).map
          (change.onOther member.tenantId) ∧
      after = { tables with
        memberships := after.memberships, membershipWrites := tables.membershipWrites + 1 } := by
  have written := writes_applyChange hfind
  have hperform := perform_applyChange hfind
  rw [hperform] at written
  refine ⟨_, hperform, written.stored, written.others.trans ?_, rfl⟩
  unfold Membership.Change.onOther
  split
  · rfl
  · exact (List.map_id _).symm

/-- Compatible deltas to a stored membership are combined, and beside the memberships only the
number of writes has changed. -/
theorem combines_applyBoth (compatible : first.Compatible second)
    (hfind : tables.memberships.find? (isMemberOf first.organizationId first.userId) =
      some member) :
    ∃ after, tables.applyBoth first second =
        (.ok ((member.applyChange first).applyChange second), after) ∧
      tables.Combines after first second member ((member.applyChange first).applyChange second) ∧
      after = { tables with
        memberships := after.memberships, membershipWrites := tables.membershipWrites + 2 } := by
  obtain ⟨horg, huser⟩ := Prod.mk.inj compatible.place
  obtain ⟨middle, hfirst, hstored, hothers, hframe⟩ := applyChange_applies hfind
  -- The second delta finds the membership as the first one has left it.
  rw [← horg, ← huser] at hstored
  obtain ⟨after, hsecond, hshown, hrest, hlast⟩ := applyChange_applies hstored
  rw [horg, huser] at hshown hrest
  refine ⟨after, ?_, ?_, ?_⟩
  · rw [applyBoth, hfirst]
    exact hsecond
  · exact
      { stored := hshown
        added := fun roleId => compatible.added member
        removed := fun roleId => compatible.removed member
        kept := fun roleId => Membership.Change.kept member
        isPrimary := compatible.isPrimary_applyChange member
        rest := rfl
        others := by rw [hrest, hothers, List.map_map]; rfl }
  · rw [hlast, hframe]

end Tables

/-! ## Deltas in either order -/

namespace Membership.Change

variable {first second : Change}

/-- In every store with the membership that they are for, both orders of two deltas succeed and
combine them: the membership gets the same roles and the same flag, the others become the same, and
so does the rest of the store. -/
def Commutes (first second : Change) : Prop :=
  ∀ (tables : Tables) (member : Membership),
    tables.memberships.find? (Tables.isMemberOf first.organizationId first.userId) = some member →
    ∃ forth back afterForth afterBack,
      tables.applyBoth first second = (.ok forth, afterForth) ∧
      tables.applyBoth second first = (.ok back, afterBack) ∧
      tables.Combines afterForth first second member forth ∧
      tables.Combines afterBack first second member back ∧
      (∀ roleId, roleId ∈ forth.roleIds ↔ roleId ∈ back.roleIds) ∧
      forth.isPrimary = back.isPrimary ∧
      afterForth.othersThan first.organizationId first.userId =
        afterBack.othersThan first.organizationId first.userId ∧
      afterBack = { afterForth with memberships := afterBack.memberships }

/-- Compatible deltas commute. -/
theorem Compatible.commutes (compatible : first.Compatible second) : first.Commutes second := by
  intro tables member hfind
  obtain ⟨horg, huser⟩ := Prod.mk.inj compatible.place
  have hagain : tables.memberships.find?
      (Tables.isMemberOf second.organizationId second.userId) = some member := by
    rw [horg, huser]
    exact hfind
  obtain ⟨afterForth, hforth, forthCombines, hframe⟩ := Tables.combines_applyBoth compatible hfind
  obtain ⟨afterBack, hback, combines, hrest⟩ := Tables.combines_applyBoth compatible.symm hagain
  have backCombines := combines.symm compatible.symm
  refine ⟨_, _, afterForth, afterBack, hforth, hback, forthCombines, backCombines,
    forthCombines.mem_roleIds_iff backCombines, ?_, ?_, ?_⟩
  · exact forthCombines.isPrimary.trans backCombines.isPrimary.symm
  · exact forthCombines.others.trans backCombines.others.symm
  · rw [hrest, hframe]

/-- A delta derives from a membership: it is for that membership and names only what it changes of
it. -/
structure DerivesFrom (change : Change) (member : Membership) : Prop where
  fair : change.IsFair member.organizationId member.userId
  exact : change.IsExactFor member

namespace DerivesFrom

variable {change : Change} {member : Membership}

/-- A delta that derives from a membership has its key. -/
theorem key_eq (derives : change.DerivesFrom member) : change.key = member.key :=
  congrArg₂ Prod.mk derives.fair.1 derives.fair.2.1

/-- A delta that derives from a membership clears others only in making it primary. -/
theorem isPrimary_of_clears (derives : change.DerivesFrom member)
    (hclears : change.clearsOthers = true) : change.isPrimary = some true :=
  of_decide_eq_true (derives.fair.2.2.symm.trans hclears)

/-- Deltas that derive from one membership are compatible, if only one of them sets the flag: what
one adds was not held, and what one removes was. -/
theorem compatible (hfirst : first.DerivesFrom member) (hsecond : second.DerivesFrom member)
    (hflag : first.isPrimary = none ∨ second.isPrimary = none) : first.Compatible second where
  place := hsecond.key_eq.trans hfirst.key_eq.symm
  roles roleId hadded := by
    have hnew : roleId ∉ member.roleIds :=
      hadded.elim (hfirst.exact.added roleId) (hsecond.exact.added roleId)
    exact ⟨fun hgone => hnew (hfirst.exact.removed roleId hgone),
      fun hgone => hnew (hsecond.exact.removed roleId hgone)⟩
  flag := hflag
  firstClears := hfirst.isPrimary_of_clears
  secondClears := hsecond.isPrimary_of_clears

end DerivesFrom
end Membership.Change
end Tenancy
