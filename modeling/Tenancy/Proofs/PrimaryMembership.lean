import Tenancy.Proofs.OrderlyRuns

/-!
# Tenancy - One primary membership

A user has at most one primary membership in a tenant.  The store never checks
this.  It holds because each write that makes a membership primary withdraws the
flag from the user's others in the same step, whatever the operation had read
before.

Main definitions:

- `Tables.PrimaryExclusive`: at most one primary membership of a user in a tenant.
- `OnePrimary`: the invariant that carries it through every write.

Main results:

- Theorem `Tables.onePrimary_insert`, `Tables.onePrimary_applyChange`: the two
  writes that set flags keep the invariant.
- Theorem `primaryExclusive_of_reaches`: exclusivity holds after every
  interleaving of operations.
-/

namespace Tenancy

/-- At most one primary membership of a user in a tenant is stored. -/
def Tables.PrimaryExclusive (tables : Tables) : Prop :=
  ∀ (userId : String) (tenantId : Option String),
    (tables.memberships.filter fun member =>
      member.userId == userId && member.tenantId == tenantId && member.isPrimary).length ≤ 1

/-- Two primary memberships of a user in a tenant are of one organization. -/
structure OnePrimary (memberships : List Membership) : Prop where
  alone : ∀ a ∈ memberships, ∀ b ∈ memberships, a.isPrimary = true → b.isPrimary = true →
    a.userId = b.userId → a.tenantId = b.tenantId → a.organizationId = b.organizationId

namespace OnePrimary

variable {memberships : List Membership}

/-- Under the invariant, a user has at most one primary membership in a tenant. -/
theorem length_filter_le (sound : OnePrimary memberships)
    (keys : (memberships.map Membership.key).Nodup) (userId : String)
    (tenantId : Option String) :
    (memberships.filter fun member =>
      member.userId == userId && member.tenantId == tenantId && member.isPrimary).length ≤ 1 := by
  have hnodup : memberships.Nodup := .of_map _ keys
  refine Tables.length_le_one_of_forall_eq (hnodup.filter _) fun a ha b hb => ?_
  simp only [List.mem_filter, Bool.and_eq_true, beq_iff_eq] at ha hb
  obtain ⟨ha, ⟨hauser, hatenant⟩, haprimary⟩ := ha
  obtain ⟨hb, ⟨hbuser, hbtenant⟩, hbprimary⟩ := hb
  have huser : a.userId = b.userId := hauser.trans hbuser.symm
  have horg : a.organizationId = b.organizationId :=
    sound.alone a ha b hb haprimary hbprimary huser (hatenant.trans hbtenant.symm)
  exact Tables.eq_of_key_eq keys ha hb (Prod.ext horg huser)

/-- A store without memberships satisfies the invariant. -/
theorem nil : OnePrimary [] where
  alone := by simp

/-- Fewer memberships satisfy the invariant. -/
theorem filter (sound : OnePrimary memberships) (keep : Membership → Bool) :
    OnePrimary (memberships.filter keep) where
  alone a ha b hb := sound.alone a (List.mem_of_mem_filter ha) b (List.mem_of_mem_filter hb)

/-- Withdrawing flags keeps the invariant. -/
theorem clearOthers (sound : OnePrimary memberships) (keptOrganizationId userId : String)
    (tenantId : Option String) (now : Nat) :
    OnePrimary (Tables.clearOthers memberships keptOrganizationId userId tenantId now) where
  alone a ha b hb haprimary hbprimary :=
    sound.alone a (Tables.mem_of_mem_clearOthers ha haprimary) b
      (Tables.mem_of_mem_clearOthers hb hbprimary) haprimary hbprimary

/-- After withdrawing flags, a primary membership of the user in the tenant is the kept one. -/
theorem primary_of_mem_clearOthers {keptOrganizationId userId : String}
    {tenantId : Option String} {now : Nat} {member : Membership}
    (hmem : member ∈ Tables.clearOthers memberships keptOrganizationId userId tenantId now)
    (hprimary : member.isPrimary = true) (huser : member.userId = userId)
    (htenant : member.tenantId = tenantId) : member.organizationId = keptOrganizationId := by
  obtain ⟨member, -, rfl⟩ := List.mem_map.1 hmem
  unfold Membership.withdrawPrimary at hprimary huser htenant ⊢
  split at hprimary
  · simp at hprimary
  · rename_i hkept
    rw [if_neg hkept] at huser htenant ⊢
    by_contra hne
    exact hkept ⟨huser, hne, htenant, hprimary⟩

/-- A new membership that is primary only where the others are withdrawn keeps the invariant. -/
theorem append (sound : OnePrimary memberships) {member : Membership}
    (hothers : member.isPrimary = true → ∀ other ∈ memberships, other.isPrimary = true →
      other.userId = member.userId → other.tenantId = member.tenantId →
        other.organizationId = member.organizationId) :
    OnePrimary (memberships ++ [member]) where
  alone := by
    intro a ha b hb haprimary hbprimary huser htenant
    rcases List.mem_append.1 ha with ha | ha <;> rcases List.mem_append.1 hb with hb | hb
    · exact sound.alone a ha b hb haprimary hbprimary huser htenant
    · rw [List.mem_singleton.1 hb] at hbprimary huser htenant ⊢
      exact hothers hbprimary a ha haprimary huser htenant
    · rw [List.mem_singleton.1 ha] at haprimary huser htenant ⊢
      exact (hothers haprimary b hb hbprimary huser.symm htenant.symm).symm
    · rw [List.mem_singleton.1 ha, List.mem_singleton.1 hb]

/-- A membership that becomes primary only where the others are withdrawn keeps the invariant. -/
theorem put (sound : OnePrimary memberships) {before after : Membership}
    (hbefore : before ∈ memberships) (hkey : after.key = before.key)
    (htenant : after.tenantId = before.tenantId)
    (hothers : after.isPrimary = true → before.isPrimary = true ∨
      ∀ other ∈ memberships, other.isPrimary = true → other.userId = after.userId →
        other.tenantId = after.tenantId → other.organizationId = after.organizationId) :
    OnePrimary (Tables.put Membership.key after memberships) := by
  obtain ⟨horg, huser⟩ := Prod.ext_iff.1 hkey
  -- Whoever else is primary for this user and tenant is of the same organization.
  have hother : after.isPrimary = true → ∀ other ∈ memberships, other.isPrimary = true →
      other.userId = after.userId → other.tenantId = after.tenantId →
        other.organizationId = after.organizationId := by
    intro hprimary other hmem hoprimary houser hotenant
    rcases hothers hprimary with hold | hcleared
    · have hsame := sound.alone other hmem before hbefore hoprimary hold
        (houser.trans huser) (hotenant.trans htenant)
      exact hsame.trans horg.symm
    · exact hcleared other hmem hoprimary houser hotenant
  refine ⟨fun a ha b hb haprimary hbprimary hsameUser hsameTenant => ?_⟩
  rcases Tables.mem_put ha with heq | ha
  · rw [heq] at haprimary hsameUser hsameTenant ⊢
    rcases Tables.mem_put hb with heq | hb
    · rw [heq]
    · exact (hother haprimary b hb hbprimary hsameUser.symm hsameTenant.symm).symm
  · rcases Tables.mem_put hb with heq | hb
    · rw [heq] at hbprimary hsameUser hsameTenant ⊢
      exact hother hbprimary a ha haprimary hsameUser hsameTenant
    · exact sound.alone a ha b hb haprimary hbprimary hsameUser hsameTenant

end OnePrimary

/-! ## Writes to memberships -/

namespace Tables

/-- Storing a new membership keeps the invariant if a primary one clears the others. -/
theorem onePrimary_insert {tables : Tables} (sound : OnePrimary tables.memberships)
    (member : Membership) (clearsOthers : Bool)
    (hclears : member.isPrimary = true → clearsOthers = true) :
    OnePrimary (tables.perform (.memberships (.insert member clearsOthers))).2.memberships := by
  simp only [perform, performMembership]
  split
  · exact sound
  · dsimp only
    split
    · refine OnePrimary.append (sound.clearOthers _ _ _ _) ?_
      intro _ other hother hprimary huser htenant
      exact OnePrimary.primary_of_mem_clearOthers hother hprimary huser htenant
    · rename_i hclear
      exact sound.append fun hprimary => absurd (hclears hprimary) hclear

/-- Changing a membership keeps the invariant if becoming primary clears the others. -/
theorem onePrimary_applyChange {tables : Tables} (sound : OnePrimary tables.memberships)
    (change : Membership.Change)
    (hclears : change.isPrimary = some true → change.clearsOthers = true) :
    OnePrimary (tables.perform (.memberships (.applyChange change))).2.memberships := by
  simp only [perform, performMembership]
  split
  · exact sound
  · rename_i member hfind
    obtain ⟨hmem, hkey⟩ := find_isMemberOf hfind
    have horg : member.organizationId = change.organizationId := (Prod.ext_iff.1 hkey).1
    have huser : member.userId = change.userId := (Prod.ext_iff.1 hkey).2
    dsimp only
    split
    · -- The member itself is kept, so it is still there to be replaced.
      have hkept : member ∈ clearOthers tables.memberships change.organizationId change.userId
          member.tenantId change.updatedAt := by
        refine List.mem_map.2 ⟨member, hmem, ?_⟩
        simp [Membership.withdrawPrimary, horg]
      refine (sound.clearOthers _ _ _ _).put hkept rfl rfl fun _ => .inr ?_
      intro other hother hprimary houser hotenant
      rw [show (member.applyChange change).organizationId = change.organizationId from horg]
      exact OnePrimary.primary_of_mem_clearOthers hother hprimary (houser.trans huser) hotenant
    · rename_i hclear
      refine sound.put hmem rfl rfl fun hprimary => .inl ?_
      cases hflag : change.isPrimary with
      | none => simpa [Membership.applyChange, hflag] using hprimary
      | some flag =>
          have htrue : flag = true := by simpa [Membership.applyChange, hflag] using hprimary
          exact absurd (hclears (htrue ▸ hflag)) hclear

/-- Every write that an operation may ask for keeps the invariant. -/
theorem onePrimary_write {operation : Operation} {call : Call} (hmay : operation.MayWrite call)
    {tables : Tables} (sound : OnePrimary tables.memberships) :
    OnePrimary (tables.perform call).2.memberships := by
  cases hmay with
  | addMember draft member userId isPrimary => exact onePrimary_insert sound _ _ fun h => h
  | joinByInvitation code user member userId isPrimary =>
      exact onePrimary_insert sound _ _ fun h => absurd h (by simp [isPrimary])
  | updateMember organizationId userId patch change key user clears =>
      exact onePrimary_applyChange sound _ fun h => by simp [clears, h]
  | mergeInvitation code user change isPrimary clears =>
      exact onePrimary_applyChange sound _ fun h => absurd h (by simp [isPrimary])
  | removeMember organizationId userId =>
      simp only [perform, performMembership]
      split
      · exact sound.filter _
      · exact sound
  | createOrganization | updateOrganization | archiveOrganization =>
      simp only [perform, performOrganization]
      split <;> try split
      all_goals exact sound
  | createRole | updateRole =>
      simp only [perform, performRole]
      split <;> try split
      all_goals exact sound
  | setRolePermissions =>
      simp only [perform, performRole]
      split <;> exact sound
  | deleteRole | replaceInvitation | acceptInvitation | revokeInvitation | purgeInvitations =>
      exact sound
  | createInvitation =>
      simp only [perform, performInvitation]
      split <;> exact sound

end Tables

/-- The memberships stored in a world satisfy the invariant. -/
def World.HasOnePrimary (world : World) : Prop :=
  OnePrimary world.tables.memberships

/-- After every interleaving of operations, a user has at most one primary membership in each
tenant. -/
theorem primaryExclusive_of_reaches {regime : Regime} {world : World} {config : Configuration}
    (starts : regime.Starts world) (reaches : regime.Reaches world config) :
    config.world.tables.PrimaryExclusive := by
  have hsound : config.world.HasOnePrimary := by
    refine reaches.invariant_of_writes ?_ ?_ ?_ ?_
    · unfold World.HasOnePrimary
      rw [starts.noRecords.memberships]
      exact .nil
    · intro operation call world hmay sound
      exact Tables.onePrimary_write hmay sound
    · intro effect world hread sound
      unfold World.HasOnePrimary
      rw [world.perform_tables_of_not_write hread]
      exact sound
    · intro outside world sound
      exact sound
  have hkeys := (reaches.hasDistinctKeys starts).memberships
  exact fun userId tenantId => hsound.length_filter_le hkeys userId tenantId

/-- A run where a user becomes primary in one organization and then in another of the same tenant:
only the later membership is primary. -/
theorem primaryExclusive_of_reaches_second_primary :
    ∃ config, Regime.orderly.Reaches (World.blank []) config ∧
      config.world.tables.memberships.map (·.isPrimary) = [false, true] ∧
      config.world.tables.PrimaryExclusive := by
  have starts : Regime.orderly.Starts (World.blank []) := Regime.orderly_starts_blank (by simp)
  obtain ⟨config, reaches, hworld⟩ := Regime.orderly_operations starts default
    [.createOrganization
      { slug := "north", displayName := "North", tenantId := none, metadata := .empty },
     .createOrganization
      { slug := "south", displayName := "South", tenantId := none, metadata := .empty },
     .addMember
      { organizationId := "a", userId := "u", tenantId := none, isPrimary := true, roleIds := [] },
     .addMember
      { organizationId := "aa", userId := "u", tenantId := none, isPrimary := true, roleIds := [] }]
  refine ⟨config, reaches, ?_, primaryExclusive_of_reaches starts reaches⟩
  rw [hworld]
  decide +kernel

end Tenancy
