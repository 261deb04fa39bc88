import Tenancy.Proofs.OrderlyRuns
import Tenancy.Proofs.Transcripts

/-!
# Tenancy - The life of an invitation code

A code is drawn, an invitation is created with it, and the invitation is deleted.
If no code is drawn twice, each of these happens at most once: an operation
creates an invitation only with a code that it has drawn itself, and the store
answers that it deleted an invitation only if one was created before and is not
yet gone.

Main definitions:

- `Exchange.drawn?`, `Exchange.created?`, `Exchange.deletion?`: what an exchange
  says about a code.
- `Program.CreatesFrom`, `Action.CreatesFrom`: programs that create invitations
  only with codes they have drawn.

Main results:

- Theorem `Operation.action_createsFrom`: every operation is such a program.
- Theorem `Regime.Reaches.count_created_le`: no more is created than was drawn.
- Theorem `Regime.Reaches.count_deleted_le_created`: no more is deleted than was
  created.
- Theorem `Regime.Reaches.count_deleted_le_one`: in a run in which codes never
  repeat, each code is deleted at most once.
-/

namespace Tenancy

/-! ## What exchanges say about codes -/

namespace Exchange

/-- The code that was drawn. -/
def drawn? : Exchange → Option String
  | ⟨.randomBytes, bytes⟩ => some (Text.Base64Url.encode bytes)
  | _ => none

/-- The code of an invitation that was created. -/
def created? : Exchange → Option String
  | ⟨.store (.invitations (.create invitation)), .ok ()⟩ => some invitation.code
  | _ => none

/-- The code that was to be deleted, and whether there was an invitation with it. -/
def deletion? : Exchange → Option (String × Bool)
  | ⟨.store (.invitations (.delete code)), .ok deleted⟩ => some (code, deleted)
  | _ => none

end Exchange

/-- Requests that create no invitation. -/
def Effect.CreatesNone (effect : Effect) : Prop :=
  ∀ invitation, effect ≠ .store (.invitations (.create invitation))

/-- Requests that are no writes create no invitation. -/
theorem Effect.createsNone_of_not_write (effect : Effect) (hread : effect.isWrite = false) :
    effect.CreatesNone := by
  rintro invitation rfl
  cases hread

/-- An exchange for a request that creates none says nothing of a creation. -/
theorem Effect.CreatesNone.created?_eq_none {effect : Effect} (hnone : effect.CreatesNone)
    (reply : effect.Reply) : Exchange.created? ⟨effect, reply⟩ = none := by
  unfold Exchange.created?
  split
  · rename_i invitation heq
    exact absurd (congrArg Exchange.effect heq) (hnone invitation)
  · rfl

/-! ## Creating with drawn codes -/

/-- The codes in hand after an exchange: a drawn one more, a created one less. -/
def Exchange.codesAfter (codes : List String) (exchange : Exchange) : List String :=
  match exchange.created? with
  | some code => codes.erase code
  | none => exchange.drawn?.toList ++ codes

/-- With some codes in hand, a program creates invitations only with codes it has in hand or draws,
and with each only once. -/
def Program.CreatesFrom {α : Type} : Program Effect Effect.Reply α → List String → Prop
  | .done _, _ => True
  | .ask effect next, codes => ∀ reply,
    (∀ code, Exchange.created? ⟨effect, reply⟩ = some code → code ∈ codes) ∧
      (next reply).CreatesFrom (Exchange.codesAfter codes ⟨effect, reply⟩)

namespace Program.CreatesFrom

variable {α β : Type} {program : Program Effect Effect.Reply α} {codes : List String}

/-- In the transcript of such a program, no more is created than was in hand or drawn. -/
theorem count_created_le {left : Program Effect Effect.Reply α} {transcript : List Exchange}
    (creates : program.CreatesFrom codes) (follows : program.Follows transcript left)
    (code : String) :
    (transcript.filterMap Exchange.created?).count code ≤
      codes.count code + (transcript.filterMap Exchange.drawn?).count code := by
  induction follows generalizing codes with
  | nil => simp
  | @cons effect next transcript left reply rest ih =>
      obtain ⟨hhand, hnext⟩ := creates reply
      have hrest := ih hnext
      unfold Exchange.codesAfter at hrest
      cases hcreated : Exchange.created? ⟨effect, reply⟩ with
      | none =>
          rw [hcreated] at hrest
          rw [List.filterMap_cons, hcreated]
          cases hdrawn : Exchange.drawn? ⟨effect, reply⟩ with
          | none =>
              rw [hdrawn] at hrest
              rw [List.filterMap_cons, hdrawn]
              exact hrest
          | some other =>
              rw [hdrawn] at hrest
              rw [List.filterMap_cons, hdrawn]
              simp only [Option.toList_some, List.singleton_append, List.count_cons] at hrest ⊢
              omega
      | some created =>
          rw [hcreated] at hrest
          have hmem : created ∈ codes := hhand created hcreated
          have hdrawn : (transcript.filterMap Exchange.drawn?).count code ≤
              ((⟨effect, reply⟩ :: transcript).filterMap Exchange.drawn?).count code := by
            cases hread : Exchange.drawn? ⟨effect, reply⟩ <;>
              simp [hread, List.count_cons]
          rw [List.filterMap_cons, hcreated]
          dsimp only at hrest ⊢
          rw [List.count_erase] at hrest
          rw [List.count_cons]
          by_cases hcode : created = code
          · subst hcode
            have hpositive : 0 < codes.count created := List.count_pos_iff.2 hmem
            simp only [beq_self_eq_true, if_true] at hrest ⊢
            omega
          · simp only [beq_iff_eq, hcode, if_false] at hrest ⊢
            omega

/-- A program that creates none may have any codes in hand. -/
theorem ofUses {wanted : α → Prop} (huses : program.Uses Effect.CreatesNone wanted)
    (codes : List String) : program.CreatesFrom codes := by
  induction program generalizing codes with
  | done value => trivial
  | ask effect rest ih =>
      intro reply
      refine ⟨fun code hcreated => ?_, ih reply (huses.2 reply) _⟩
      rw [huses.1.created?_eq_none reply] at hcreated
      cases hcreated

/-- Programs in sequence. -/
theorem bind {next : α → Program Effect Effect.Reply β} (creates : program.CreatesFrom codes)
    (hnext : ∀ value codes, (next value).CreatesFrom codes) :
    (program.bind next).CreatesFrom codes := by
  induction program generalizing codes with
  | done value => exact hnext value codes
  | ask effect rest ih => exact fun reply => ⟨(creates reply).1, ih reply (creates reply).2⟩

end Program.CreatesFrom

/-- With some codes in hand, an action creates invitations only with codes it has in hand or draws,
and with each only once. -/
structure Action.CreatesFrom {α : Type} (codes : List String) (action : Action α) : Prop where
  run : action.run.CreatesFrom codes

namespace Action.CreatesFrom

variable {α β : Type} {codes : List String}

theorem pure {value : α} : (Pure.pure value : Action α).CreatesFrom codes where
  run := trivial

/-- An action that creates none may have any codes in hand. -/
theorem ofUses {wanted : α → Prop} {action : Action α}
    (huses : action.Uses Effect.CreatesNone wanted) : action.CreatesFrom codes where
  run := .ofUses huses.run codes

/-- Actions in sequence. -/
theorem bind {action : Action β} {next : β → Action α} (creates : action.CreatesFrom codes)
    (hnext : ∀ value codes, (next value).CreatesFrom codes) :
    (action >>= next).CreatesFrom codes where
  run := by
    refine Program.CreatesFrom.bind creates.run fun result codes => ?_
    cases result with
    | ok value => exact (hnext value codes).run
    | error error => trivial

/-- An action that creates none comes before one that creates only from drawn codes. -/
theorem afterUses {wanted : β → Prop} {action : Action β} {next : β → Action α}
    (huses : action.Uses Effect.CreatesNone wanted)
    (hnext : ∀ value codes, (next value).CreatesFrom codes) :
    (action >>= next).CreatesFrom codes :=
  (ofUses huses).bind hnext

/-- Drawn bytes put a code in hand. -/
theorem randomBytes {next : List UInt8 → Action α}
    (hnext : ∀ bytes, (next bytes).CreatesFrom (Text.Base64Url.encode bytes :: codes)) :
    (Action.randomBytes >>= next).CreatesFrom codes where
  run bytes := ⟨fun _ hcreated => (nomatch hcreated), (hnext bytes).run⟩

/-- An invitation may be created with a code in hand. -/
theorem store (invitation : Invitation) (hmem : invitation.code ∈ codes) :
    (Invitations.store invitation).CreatesFrom codes where
  run reply := by
    refine ⟨fun code hcreated => ?_, ?_⟩
    · cases reply with
      | ok value =>
          have heq : some invitation.code = some code := hcreated
          rw [← Option.some.inj heq]
          exact hmem
      | error error => cases hcreated
    · cases reply with
      | ok value => trivial
      | error error => cases error <;> trivial

end Action.CreatesFrom

/-- Inviting an address creates an invitation with the code that was drawn for it. -/
theorem Invitations.create_createsFrom (policy : InvitationPolicy) (draft : Invitation.Draft)
    (codes : List String) : (Invitations.create policy draft).CreatesFrom codes := by
  have quiet := Effect.createsNone_of_not_write
  refine .afterUses (.check _) fun email _ => .afterUses (.check _) fun _ _ => ?_
  refine .afterUses (Action.loadOrganization_uses (Effect.plain quiet) _) fun org _ =>
    .afterUses (Roles.assignable_uses (Effect.plain quiet) org _) fun roleIds _ => ?_
  refine .afterUses (.now (quiet _ rfl)) fun now _ =>
    .afterUses (.ask (quiet _ rfl)) fun existing _ => ?_
  have hdelete : ∀ code, (Effect.store (.invitations (.delete code))).CreatesNone := fun _ => nofun
  refine .afterUses (Invitations.replaceExpired_uses now existing hdelete) fun _ _ =>
    .randomBytes fun bytes => .bind (.store _ List.mem_cons_self) fun _ _ => ?_
  exact .afterUses (.note (quiet _ rfl)) fun _ _ => .pure

/-- Operations create invitations only with codes that they have drawn. -/
theorem Operation.action_createsFrom (deployment : Deployment) (operation : Operation)
    (codes : List String) : (operation.action deployment).CreatesFrom codes := by
  have hothers : (∀ invitation, ¬operation.MayWrite (.invitations (.create invitation))) →
      (operation.action deployment).CreatesFrom codes := by
    intro hnone
    refine .ofUses ((operation.action_uses deployment).weaken fun effect hmay => ?_)
    rintro invitation rfl
    exact hnone invitation (hmay rfl)
  cases operation with
  | createInvitation draft => exact Invitations.create_createsFrom _ draft codes
  | _ => exact hothers fun _ hwrite => nomatch hwrite

/-! ## What the store answers -/

namespace Tables

variable {tables : Tables}

/-- After a call there are no more invitations with a code, together with the one that was deleted,
than there were before, together with the one that was created. -/
theorem count_code_perform (tables : Tables) (call : Call) (code : String) :
    ((tables.perform call).2.invitations.map (·.code)).count code +
        (Exchange.deletion? ⟨.store call, (tables.perform call).1⟩).toList.count (code, true) ≤
      (tables.invitations.map (·.code)).count code +
        (Exchange.created? ⟨.store call, (tables.perform call).1⟩).toList.count code := by
  cases call with
  | organizations call | memberships call | roles call | directory call | catalog call =>
      rw [perform_invitations (by rintro _ ⟨⟩)]
      simp [Exchange.deletion?]
  | invitations call =>
      cases call with
      | findByCode | findForEmail | listForOrganization =>
          simp [perform, performInvitation, Exchange.deletion?]
      | create invitation =>
          simp only [perform, performInvitation]
          split
          · simp [Exchange.deletion?]
          · simp [Exchange.deletion?, Exchange.created?, List.count_append]
      | deleteExpired now =>
          have hfewer := (List.filter_sublist (p := (!·.isExpiredAt now))
            (l := tables.invitations)).map (·.code)
          have hcount := hfewer.count_le code
          simpa [perform, performInvitation, Exchange.deletion?] using Nat.le_add_right_of_le hcount
      | delete removed =>
          simp only [perform, performInvitation, Exchange.deletion?, count_key_filter]
          by_cases hcode : removed = code
          · subst hcode
            by_cases hfound : tables.invitations.any (·.code == removed) = true
            · have hpositive : 0 < (tables.invitations.map (·.code)).count removed := by
                simpa [List.count_pos_iff] using hfound
              simp [hfound]
              omega
            · simp [hfound]
          · simp [hcode]

end Tables

/-! ## Codes in runs -/

section Runs

variable {regime : Regime} {world : World} {config : Configuration}

/-- The codes drawn in a run are those that the supply holds from its start on. -/
theorem Regime.Reaches.drawn_eq (reaches : regime.Reaches world config) :
    config.world.supply.bytes = world.supply.bytes ∧
      ∃ drawn, config.world.supply.bytesDrawn = world.supply.bytesDrawn + drawn ∧
        config.readings Exchange.drawn? = (List.range' world.supply.bytesDrawn drawn).map
          fun n => Text.Base64Url.encode (world.supply.bytes n) := by
  induction reaches with
  | refl => exact ⟨rfl, 0, rfl, rfl⟩
  | @tail before after _ step ih =>
      cases step with
      | start deployment operation _ => exact ih
      | advance index _ =>
          rcases before.advance_cases index with hsame | ⟨operation, effect, next, htask⟩
          · rw [hsame]
            exact ih
          · obtain ⟨hbytes, drawn, hdrawn, hcodes⟩ := ih
            rw [Configuration.readings_advance _ htask, hcodes, Configuration.advance_ask htask]
            refine ⟨(World.perform_bytes effect before.world).trans hbytes, ?_⟩
            cases effect with
            | randomBytes =>
                refine ⟨drawn + 1, congrArg (· + 1) hdrawn, ?_⟩
                have hnew : (World.perform .randomBytes before.world).1 =
                    world.supply.bytes (world.supply.bytesDrawn + drawn) := by
                  rw [← hdrawn, ← hbytes]
                  rfl
                rw [hnew, List.range'_concat, List.map_append]
                simp [Exchange.drawn?]
            | store call | clock | freshId | note =>
                refine ⟨drawn, hdrawn, ?_⟩
                simp [Exchange.drawn?]
      | shift outside _ => exact ih

/-- If codes never repeat, none is drawn twice. -/
theorem Regime.Reaches.nodup_drawn (reaches : regime.Reaches world config)
    (distinct : config.world.supply.DistinctCodes) : (config.readings Exchange.drawn?).Nodup := by
  obtain ⟨hbytes, drawn, hdrawn, hcodes⟩ := reaches.drawn_eq
  rw [hcodes]
  refine List.Nodup.map_on ?_ List.nodup_range'
  intro m hm n hn heq
  obtain ⟨i, hi, rfl⟩ := List.mem_range'.1 hm
  obtain ⟨j, hj, rfl⟩ := List.mem_range'.1 hn
  rw [← hbytes] at heq
  exact distinct _ _ (by omega) (by omega) heq

/-- With each code, no more invitations are created than were drawn. -/
theorem Regime.Reaches.count_created_le (reaches : regime.Reaches world config) (code : String) :
    (config.readings Exchange.created?).count code ≤
      (config.readings Exchange.drawn?).count code := by
  have recorded := reaches.recorded
  rw [recorded.count_readings, recorded.count_readings]
  refine Finset.sum_le_sum fun index hindex => ?_
  have hlt : index < config.tasks.length := Finset.mem_range.1 hindex
  obtain ⟨deployment, follows⟩ := recorded.follows index _ (List.getElem?_eq_getElem hlt)
  have hcount := ((Operation.action_createsFrom deployment _ []).run).count_created_le follows code
  simpa using hcount

/-- With each code, no more invitations are deleted than were created. -/
theorem Regime.Reaches.count_deleted_le_created (starts : regime.Starts world)
    (reaches : regime.Reaches world config) (code : String) :
    (config.world.tables.invitations.map (·.code)).count code +
        (config.readings Exchange.deletion?).count (code, true) ≤
      (config.readings Exchange.created?).count code := by
  refine reaches.add_count_le (fun tables => (tables.invitations.map (·.code)).count code)
    Exchange.created? Exchange.deletion? code (code, true) ?_ (fun _ _ => rfl) ?_
  · simp [starts.noRecords.invitations]
  · intro before effect
    cases effect with
    | store call => exact before.tables.count_code_perform call code
    | clock | freshId | randomBytes | note => rfl

/-- In a run in which codes never repeat, at most one deletion of each code is confirmed. -/
theorem Regime.Reaches.count_deleted_le_one (starts : regime.Starts world)
    (reaches : regime.Reaches world config)
    (distinct : ∀ world, regime.admits world → world.supply.DistinctCodes) (code : String) :
    (config.readings Exchange.deletion?).count (code, true) ≤ 1 := by
  have hdeleted := reaches.count_deleted_le_created starts code
  have hcreated := reaches.count_created_le code
  have hdrawn : (config.readings Exchange.drawn?).count code ≤ 1 :=
    List.nodup_iff_count_le_one.1 (reaches.nodup_drawn (distinct _ (reaches.admitted starts))) code
  omega

end Runs
end Tenancy
