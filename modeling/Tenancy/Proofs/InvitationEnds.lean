import Tenancy.Proofs.InvitationCodes

/-!
# Tenancy - How invitations end

Revoking an invitation succeeds only if the store confirms the deletion, and a
deletion is confirmed at most once.  Accepting one does not look at the answer: an
accept that has read the invitation in time goes on to succeed after another call
has ended it.  So two calls can succeed on one code, and they do only where such a
late accept is among them.

Main definitions:

- `Task.succeeded`: calls that have ended an invitation with success.
- `Configuration.acceptedLate`: accepts that succeeded without a confirmed
  deletion.
- `Configuration.EndsOnce`: at most one call succeeds on a code.

Main results:

- Theorem `Configuration.succeeded_cases`: a call that succeeds is a late accept,
  or its deletion was confirmed.
- Theorem `Regime.Reaches.acceptedLate_or`: one of two calls that succeed is a late
  accept.
- Theorem `endsOnce_iff_late_alone`: at most one call succeeds on a code exactly if
  no late accept succeeds beside another call.
-/

namespace Tenancy

/-! ## Calls that succeed -/

/-- Whether a call has accepted or revoked an invitation with success. -/
def Task.succeeded (code : String) : Task → Bool
  | ⟨.acceptInvitation accepted _, .done (.ok _)⟩ => accepted == code
  | ⟨.revokeInvitation _ revoked, .done (.ok true)⟩ => revoked == code
  | _ => false

namespace Configuration

variable (config : Configuration) (code : String)

/-- Whether an operation has accepted or revoked an invitation with success. -/
def succeeded (index : Nat) : Bool :=
  config.tasks[index]?.any (Task.succeeded code)

/-- The deletions that an operation asked for, with their answers. -/
def deletions (index : Nat) : List (String × Bool) :=
  (transcriptOf config.history index).filterMap Exchange.deletion?

/-- Whether an operation has accepted an invitation with success, but was told that there was none
to delete any more. -/
def acceptedLate (index : Nat) : Bool :=
  match config.tasks[index]? with
  | some ⟨.acceptInvitation accepted _, .done (.ok _)⟩ =>
    accepted == code && (config.deletions index).contains (code, false)
  | _ => false

/-- At most one of the calls that accept or revoke an invitation succeeds. -/
def EndsOnce : Prop :=
  ∀ i j, config.succeeded code i = true → config.succeeded code j = true → i = j

end Configuration

/-! ## Deletions that calls owe -/

/-- Accepting deletes the invitation before it succeeds. -/
theorem Invitations.accept_owes (code : String) (user : User) :
    (Invitations.accept code user).Owes
      (fun exchange => ∃ deleted, exchange.deletion? = some (code, deleted)) fun _ => False := by
  have hends : ∀ error, (Invitations.endWith code error : Action Acceptance).Owes
      (fun exchange => ∃ deleted, exchange.deletion? = some (code, deleted)) fun _ => False :=
    fun error => .andThen _ fun _ => .throw error
  refine .andThen _ fun found => .andThen _ fun invitation => .andThen _ fun _ =>
    .andThen _ fun now => ?_
  split
  · exact hends _
  · refine .andThen _ fun org => ?_
    cases org with
    | none => exact hends _
    | some org =>
        refine .andThen _ fun roleIds => .andThen _ fun existing => .andThen _ fun member => ?_
        exact .ask (.invitations (.delete code)) fun _ deleted _ => .inl ⟨deleted, rfl⟩

/-- Revoking is told that the invitation was deleted before it reports so. -/
theorem Invitations.revoke_owes (organizationId code : String) :
    (Invitations.revoke organizationId code).Owes
      (fun exchange => exchange.deletion? = some (code, true)) fun revoked => revoked = false := by
  refine .ask (.invitations (.findByCode code)) fun tables found hfound => .inr ?_
  split
  · exact .pure rfl
  · rename_i invitation hinvitation
    obtain ⟨rfl, -⟩ := Option.filter_eq_some_iff.1 hinvitation
    have hcode : invitation.code = code := by
      simpa using List.find?_some (Except.ok.inj hfound)
    refine .ask (.invitations (.delete invitation.code)) fun _ deleted _ => ?_
    cases deleted with
    | true => exact .inl (by rw [← hcode]; rfl)
    | false => exact .inr (.pure rfl)

namespace Configuration

variable {config : Configuration} {code : String} {index : Nat}

/-- An operation that has succeeded is running. -/
theorem lt_of_succeeded (hsucceeded : config.succeeded code index = true) :
    index < config.tasks.length := by
  unfold succeeded at hsucceeded
  by_contra hge
  rw [List.getElem?_eq_none (by omega)] at hsucceeded
  cases hsucceeded

/-- A call that succeeds is a late accept, or its deletion was confirmed. -/
theorem succeeded_cases (recorded : config.Recorded)
    (hsucceeded : config.succeeded code index = true) :
    config.acceptedLate code index = true ∨ (code, true) ∈ config.deletions index := by
  unfold succeeded at hsucceeded
  cases htask : config.tasks[index]? with
  | none => simp [htask] at hsucceeded
  | some task =>
      rw [htask, Option.any_some] at hsucceeded
      unfold Task.succeeded at hsucceeded
      split at hsucceeded
      · rename_i accepted user acceptance
        obtain rfl : accepted = code := by simpa using hsucceeded
        obtain ⟨exchange, hexchange, deleted, hdeleted⟩ := recorded.owed
          (fun _ => Invitations.accept_owes accepted user) htask id
        have hmem : (accepted, deleted) ∈ config.deletions index :=
          List.mem_filterMap.2 ⟨exchange, hexchange, hdeleted⟩
        cases deleted with
        | true => exact .inr hmem
        | false => exact .inl (by simp [acceptedLate, htask, hmem])
      · rename_i organizationId revoked
        obtain rfl : revoked = code := by simpa using hsucceeded
        obtain ⟨exchange, hexchange, hdeleted⟩ := recorded.owed
          (fun _ => Invitations.revoke_owes organizationId revoked) htask (by simp)
        exact .inr (List.mem_filterMap.2 ⟨exchange, hexchange, hdeleted⟩)
      · cases hsucceeded

/-- A late accept has succeeded. -/
theorem succeeded_of_acceptedLate (hlate : config.acceptedLate code index = true) :
    config.succeeded code index = true := by
  unfold acceptedLate at hlate
  split at hlate
  · rename_i htask
    simp only [Bool.and_eq_true] at hlate
    simpa [succeeded, htask, Task.succeeded] using hlate.1
  · cases hlate

end Configuration

/-! ## Ending once -/

/-- In a run in which codes never repeat, one of two calls that succeed on a code is a late
accept. -/
theorem Regime.Reaches.acceptedLate_or {regime : Regime} {world : World} {config : Configuration}
    (starts : regime.Starts world) (reaches : regime.Reaches world config)
    (distinct : ∀ world, regime.admits world → world.supply.DistinctCodes) {code : String}
    {i j : Nat} (hi : config.succeeded code i = true) (hj : config.succeeded code j = true)
    (hne : i ≠ j) :
    config.acceptedLate code i = true ∨ config.acceptedLate code j = true := by
  have recorded := reaches.recorded
  rcases Configuration.succeeded_cases recorded hi with hlate | hfirst
  · exact .inl hlate
  rcases Configuration.succeeded_cases recorded hj with hlate | hsecond
  · exact .inr hlate
  -- Otherwise two deletions were confirmed, but there can only be one.
  have hone := reaches.count_deleted_le_one starts distinct code
  have htwo := recorded.add_count_le_count_readings Exchange.deletion? (code, true)
    (Configuration.lt_of_succeeded hi) (Configuration.lt_of_succeeded hj) hne
  have hfirstCount : 0 < (config.deletions i).count (code, true) := List.count_pos_iff.2 hfirst
  have hsecondCount : 0 < (config.deletions j).count (code, true) := List.count_pos_iff.2 hsecond
  unfold Configuration.deletions at hfirstCount hsecondCount
  omega

/-- In a run in which codes never repeat, at most one call succeeds on a code exactly if no late
accept succeeds beside another call. -/
theorem endsOnce_iff_late_alone {regime : Regime} {world : World} {config : Configuration}
    (starts : regime.Starts world) (reaches : regime.Reaches world config)
    (distinct : ∀ world, regime.admits world → world.supply.DistinctCodes) (code : String) :
    config.EndsOnce code ↔ ∀ i j, config.acceptedLate code i = true →
      config.succeeded code j = true → i = j := by
  constructor
  · intro hends i j hlate hsucceeded
    exact hends i j (Configuration.succeeded_of_acceptedLate hlate) hsucceeded
  · intro halone i j hi hj
    by_contra hne
    rcases reaches.acceptedLate_or starts distinct hi hj hne with hlate | hlate
    · exact hne (halone i j hlate hj)
    · exact hne (halone j i hlate hi).symm

/-- A revocation that has read the invitation loses to an accept; only the accept succeeds. -/
theorem endsOnce_iff_late_alone_revoke_loses :
    ∃ config, Regime.orderly.Reaches (World.blank []) config ∧
      config.succeeded "AAAA" 2 = true ∧ config.EndsOnce "AAAA" := by
  have starts : Regime.orderly.Starts (World.blank []) := Regime.orderly_starts_blank (by simp)
  obtain ⟨config, reaches, hsucceeded, hnone⟩ : ∃ config,
      Regime.orderly.Reaches (World.blank []) config ∧ config.succeeded "AAAA" 2 = true ∧
        ∀ index < config.tasks.length, config.acceptedLate "AAAA" index = false :=
    ⟨_, Regime.orderly_scheduled starts default
      [.createOrganization
        { slug := "north", displayName := "North", tenantId := none, metadata := .empty },
       .createInvitation
        { organizationId := "a", email := "u@example.com", createdBy := "c", roleIds := []
          expiresInHours := none },
       .acceptInvitation "AAAA"
        { id := "u", email := "u@example.com", displayName := none, createdAt := 0 },
       .revokeInvitation "a" "AAAA"]
      (List.replicate 9 0 ++ List.replicate 9 1 ++ [3] ++ List.replicate 9 2 ++
        List.replicate 9 3), by decide +kernel, by decide +kernel⟩
  have halone : ∀ i j, config.acceptedLate "AAAA" i = true →
      config.succeeded "AAAA" j = true → i = j := by
    intro i j hlate _
    have hlt := Configuration.lt_of_succeeded (Configuration.succeeded_of_acceptedLate hlate)
    rw [hnone i hlt] at hlate
    cases hlate
  exact ⟨config, reaches, hsucceeded, (endsOnce_iff_late_alone starts reaches
    (fun _ orderly => orderly.distinctCodes) "AAAA").2 halone⟩

/-- Two users with the address of an invitation accept it.  The first one has joined when the second
one begins, but has not ended the invitation yet; both succeed. -/
theorem not_endsOnce_two_accepts :
    ∃ config, Regime.orderly.Reaches (World.blank []) config ∧
      config.acceptedLate "AAAA" 2 = true ∧ ¬config.EndsOnce "AAAA" := by
  have starts : Regime.orderly.Starts (World.blank []) := Regime.orderly_starts_blank (by simp)
  obtain ⟨config, reaches, hlate, hother⟩ : ∃ config,
      Regime.orderly.Reaches (World.blank []) config ∧ config.acceptedLate "AAAA" 2 = true ∧
        config.succeeded "AAAA" 3 = true :=
    ⟨_, Regime.orderly_scheduled starts default
      [.createOrganization
        { slug := "north", displayName := "North", tenantId := none, metadata := .empty },
       .createInvitation
        { organizationId := "a", email := "u@example.com", createdBy := "c", roleIds := []
          expiresInHours := none },
       .acceptInvitation "AAAA"
        { id := "u1", email := "u@example.com", displayName := none, createdAt := 0 },
       .acceptInvitation "AAAA"
        { id := "u2", email := "u@example.com", displayName := none, createdAt := 0 }]
      (List.replicate 9 0 ++ List.replicate 9 1 ++ List.replicate 5 2 ++ List.replicate 9 3 ++
        List.replicate 9 2), by decide +kernel, by decide +kernel⟩
  refine ⟨config, reaches, hlate, fun hends => ?_⟩
  exact absurd (hends 2 3 (Configuration.succeeded_of_acceptedLate hlate) hother) (by decide)

end Tenancy
