import Tenancy.Proofs.InvitationCodes
import Tenancy.Proofs.Registers

/-!
# Tenancy - Where invitations come from

An invitation that is stored was put there by an operation that invites, and what the
operation was asked for and has read shows in it: the time of its creation is a reading
of the clock, and its lifetime is that of the request.  The operation has loaded the
organization before, and organizations stay.

Main definitions:

- `Configuration.Invites`: an operation of a run has stored an invitation on request.

Main results:

- Theorem `Invitations.create_traced`: when an invitation was created, until when it lasts, and to
  which organization it is.
- Theorem `Regime.Reaches.exists_invites`: every stored invitation comes from an operation.
- Theorem `Regime.Reaches.organization_stored`: and its organization is stored.
-/

namespace Tenancy

/-! ## Inviting -/

/-- An invitation that was created on request was created at a time that the clock showed, and lasts
from then on for the lifetime of the request; its organization was found before. -/
theorem Invitations.create_traced {policy : InvitationPolicy} {draft : Invitation.Draft}
    {invitation : Invitation} {transcript : List Exchange}
    {left : Program Effect Effect.Reply (Except Error Invitation)}
    (follows : (create policy draft).run.Follows transcript left)
    (hcreated : ⟨.store (.invitations (.create invitation)), .ok ()⟩ ∈ transcript) :
    ⟨.clock, invitation.createdAt⟩ ∈ transcript ∧
      invitation.expiresAt = invitation.createdAt + policy.lifetime draft.expiresInHours ∧
      ∃ org : Organization, org.id = invitation.organizationId ∧
        ⟨.store (.organizations (.findById draft.organizationId)), .ok (some org)⟩ ∈
          transcript := by
  have hnot : ¬(Effect.store (.invitations (.create invitation))).CreatesNone :=
    fun hnone => hnone invitation rfl
  obtain ⟨email, first, hfirst, follows, hcreated, -⟩ :=
    (Action.Uses.check _).of_follows_bind follows hcreated hnot
  obtain ⟨_, second, hsecond, follows, hcreated, -⟩ :=
    (Action.Uses.check _).of_follows_bind follows hcreated hnot
  obtain ⟨org, third, hfound, hthird, follows, hcreated⟩ :=
    Action.of_follows_loadOrganization follows hcreated nofun
  obtain ⟨roleIds, fourth, hfourth, follows, hcreated, -⟩ :=
    (Roles.assignable_uses (Effect.plain Effect.createsNone_of_not_write) org _).of_follows_bind
      follows hcreated hnot
  obtain ⟨now, last, hclock, -, follows, hcreated⟩ :=
    Action.of_follows_now follows hcreated nofun
  -- What is left creates no other invitation than one to this organization at this time.
  let traced : Effect → Prop := fun effect => ∀ other : Invitation,
    effect = .store (.invitations (.create other)) → other.organizationId = org.id ∧
      other.createdAt = now ∧ other.expiresAt = now + policy.lifetime draft.expiresInHours
  have hrest : traced (.store (.invitations (.create invitation))) := by
    refine Action.Uses.of_follows ?_ follows _ hcreated
    refine .andThen (.ask (by rintro _ ⟨⟩)) fun existing => ?_
    refine .andThen (replaceExpired_uses now existing fun _ => by rintro _ ⟨⟩) fun _ =>
      .andThen (.randomBytes (by rintro _ ⟨⟩)) fun bytes => ?_
    refine .andThen (store_uses ?_) fun _ =>
      .andThen (.note (by rintro _ ⟨⟩)) fun _ => .pure trivial
    rintro _ ⟨⟩
    exact ⟨rfl, rfl, rfl⟩
  obtain ⟨horg, hcreatedAt, hexpiresAt⟩ := hrest invitation rfl
  rw [hcreatedAt, hexpiresAt]
  exact ⟨hfirst (hsecond (hthird (hfourth hclock))), rfl, org, horg.symm, hfirst (hsecond hfound)⟩

/-- An operation of a run was started on request, has come through its transcript as inviting under
a policy, and has stored an invitation there. -/
structure Configuration.Invites (config : Configuration) (index : Nat) (policy : InvitationPolicy)
    (draft : Invitation.Draft) (invitation : Invitation) : Prop where
  requested : config.tasks[index]?.map (·.operation) = some (.createInvitation draft)
  follows : ∃ left, (Invitations.create policy draft).run.Follows
    (transcriptOf config.history index) left
  created : ⟨.store (.invitations (.create invitation)), .ok ()⟩ ∈
    transcriptOf config.history index

/-! ## Stored invitations -/

/-- An invitation is only stored by a call that creates it and succeeds. -/
theorem Tables.mem_invitations_or_created {tables : Tables} {call : Call} {invitation : Invitation}
    (hmem : invitation ∈ (tables.perform call).2.invitations) :
    invitation ∈ tables.invitations ∨
      call = .invitations (.create invitation) ∧
        (tables.perform (.invitations (.create invitation))).1 = .ok () := by
  rcases mem_invitations_perform hmem with hold | rfl
  · exact .inl hold
  · by_cases hok : (tables.perform (.invitations (.create invitation))).1 = .ok ()
    · exact .inr ⟨rfl, hok⟩
    · simp only [perform, performInvitation] at hmem hok
      split at hmem
      · exact .inl hmem
      · rename_i hfree
        rw [if_neg hfree] at hok
        exact absurd rfl hok

section Runs

variable {regime : Regime} {world : World} {config : Configuration} {invitation : Invitation}

/-- Every stored invitation was created by a request of the run. -/
theorem Regime.Reaches.exists_created (starts : regime.Starts world)
    (reaches : regime.Reaches world config)
    (hmem : invitation ∈ config.world.tables.invitations) :
    ∃ index, ⟨index, .store (.invitations (.create invitation)), .ok ()⟩ ∈ config.history := by
  induction reaches with
  | refl =>
      have hnone : world.tables.invitations = [] := starts.noRecords.invitations
      change invitation ∈ world.tables.invitations at hmem
      rw [hnone] at hmem
      cases hmem
  | @tail before after _ step ih =>
      cases step with
      | start deployment operation _ => exact ih hmem
      | shift outside _ => exact ih hmem
      | advance maker _ =>
          rcases before.advance_cases maker with hsame | ⟨operation, effect, next, htask⟩
          · rw [hsame] at hmem ⊢
            exact ih hmem
          · rw [Configuration.advance_ask htask] at hmem ⊢
            have hstored : invitation ∈ before.world.tables.invitations →
                ∃ index, ⟨index, .store (.invitations (.create invitation)), .ok ()⟩ ∈
                  before.history ++ [⟨maker, effect, (World.perform effect before.world).1⟩] :=
              fun hold => (ih hold).imp fun _ hearlier => List.mem_append_left _ hearlier
            cases effect with
            | clock | freshId | randomBytes | note => exact hstored hmem
            | store call =>
                rcases Tables.mem_invitations_or_created hmem with hold | ⟨rfl, hok⟩
                · exact hstored hold
                · refine ⟨maker, List.mem_append_right _ (List.mem_singleton.2 ?_)⟩
                  exact congrArg (fun reply => Event.mk maker ⟨_, reply⟩) hok.symm

/-- Every stored invitation comes from an operation that invites, under a deployment of the
regime. -/
theorem Regime.Reaches.exists_invites (starts : regime.Starts world)
    (reaches : regime.Reaches world config)
    (hmem : invitation ∈ config.world.tables.invitations) :
    ∃ index deployment draft, regime.deploys deployment ∧
      config.Invites index deployment.invitations draft invitation := by
  obtain ⟨index, hcreated⟩ := reaches.exists_created starts hmem
  have hlt : index < config.tasks.length := reaches.recorded.known _ hcreated
  have htask := List.getElem?_eq_getElem hlt
  generalize config.tasks[index] = task at htask
  obtain ⟨deployment, deployed, follows⟩ := reaches.followsUnder index task htask
  have htranscript := mem_transcriptOf_of_mem_history hcreated
  have hmay := (task.operation.action_uses deployment).of_follows follows _ htranscript
  obtain ⟨operation, rest⟩ := task
  cases hmay rfl with
  | createInvitation draft =>
      exact ⟨index, deployment, draft, deployed,
        { requested := by rw [htask]; rfl
          follows := ⟨rest, follows⟩
          created := htranscript }⟩

/-- An organization that was found once is still stored. -/
theorem Regime.Reaches.found_stays {index : Nat} {id : String} {org : Organization}
    (starts : regime.Starts world) (reaches : regime.Reaches world config)
    (hfound : ⟨index, .store (.organizations (.findById id)), .ok (some org)⟩ ∈ config.history) :
    ∃ stored ∈ config.world.tables.organizations, stored.id = org.id := by
  obtain ⟨before, exchanges⟩ := reaches.exists_exchanges hfound
  have hfind : before.world.tables.organizations.find? (·.id == id) = some org :=
    Except.ok.inj exchanges.reply
  obtain ⟨_, registers, hentry⟩ := Regime.Continues.registered starts exchanges.reaches
    (exchanges.continues.head exchanges.step) (List.mem_of_find?_eq_some hfind)
  exact registers.stored _ _ hentry

/-- The organization of a stored invitation is stored. -/
theorem Regime.Reaches.organization_stored (starts : regime.Starts world)
    (reaches : regime.Reaches world config)
    (hmem : invitation ∈ config.world.tables.invitations) :
    ∃ org ∈ config.world.tables.organizations, org.id = invitation.organizationId := by
  obtain ⟨index, deployment, draft, -, invites⟩ := reaches.exists_invites starts hmem
  obtain ⟨_, follows⟩ := invites.follows
  obtain ⟨-, -, org, hid, hfound⟩ := Invitations.create_traced follows invites.created
  have hstays := reaches.found_stays starts (mem_history_of_mem_transcriptOf hfound)
  rw [hid] at hstays
  exact hstays

end Runs
end Tenancy
