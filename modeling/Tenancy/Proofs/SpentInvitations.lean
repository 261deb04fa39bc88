import Mathlib.Data.List.Find
import Mathlib.Data.Prod.Lex
import Mathlib.Data.String.Basic
import Tenancy.Proofs.InvitationRecords
import Tenancy.Proofs.SoloRuns
import Tenancy.Proofs.StoredRecords

/-!
# Tenancy - Invitations that no longer matter

The invitations of some codes are spent once they have expired, if no code that is
drawn from now on is one of theirs.  This file shows that a store with them and the
same store without them answer alike, as long as no operation names one of the codes:
an operation either does not see them, or looks past them, or removes them to make
way for a new invitation.

Main definitions:

- `World.sweep`: the world without the invitations of some codes.
- `World.Spent`: the invitations of some codes are spent.
- `Effect.Spares`: requests whose replies do not depend on the swept invitations.
- `Action.Overlooks`: actions whose runs are the same with and without them.

Main results:

- Theorem `Action.Overlooks.ofUses`: an action that makes only such requests.
- Theorem `Invitations.create_overlooks`: inviting replaces a spent invitation as if it
  were not there.
- Theorem `Operation.overlooks`: no operation but a purge notices spent invitations
  whose codes it does not name.
-/

namespace Tenancy

variable {codes : List String} {world : World}

/-! ## Sweeping -/

/-- The tables without the invitations of some codes. -/
def Tables.sweep (codes : List String) (tables : Tables) : Tables :=
  { tables with invitations := tables.invitations.filter (!codes.contains ·.code) }

/-- The world without the invitations of some codes. -/
def World.sweep (codes : List String) (world : World) : World :=
  { world with tables := world.tables.sweep codes }

namespace Tables

variable {tables : Tables}

/-- Calls that are not about invitations answer the same without some of them. -/
theorem perform_sweep (codes : List String) (tables : Tables) {call : Call}
    (hother : ∀ invitationCall, call ≠ .invitations invitationCall) :
    (tables.sweep codes).perform call =
      ((tables.perform call).1, (tables.perform call).2.sweep codes) := by
  cases call with
  | organizations call =>
      cases call <;> simp only [perform, performOrganization, sweep] <;> grind
  | memberships call =>
      cases call <;> simp only [perform, performMembership, sweep] <;> grind
  | roles call => cases call <;> simp only [perform, performRole, sweep] <;> grind
  | invitations call => exact absurd rfl (hother call)
  | directory call => rfl
  | catalog call => cases call <;> simp only [perform, performCatalog, sweep] <;> grind

/-- A search that excludes the swept codes finds the same without them. -/
theorem find_sweep {wanted : Invitation → Bool}
    (hwanted : ∀ invitation ∈ tables.invitations, wanted invitation = true →
      invitation.code ∉ codes) :
    (tables.sweep codes).invitations.find? wanted = tables.invitations.find? wanted := by
  apply List.find?_filter.trans
  apply List.find?_congr
  intro invitation hmem
  by_cases hsought : wanted invitation = true
  · simp [hsought, hwanted invitation hmem hsought]
  · simp [hsought]

/-- A search for something that only one invitation can be misses it if that is swept. -/
theorem find_sweep_unique {wanted : Invitation → Bool}
    (hunique : ∀ a ∈ tables.invitations, ∀ b ∈ tables.invitations, wanted a = true →
      wanted b = true → a = b) :
    (tables.sweep codes).invitations.find? wanted =
      (tables.invitations.find? wanted).filter (!codes.contains ·.code) := by
  cases hfind : tables.invitations.find? wanted with
  | none =>
      rw [Option.filter_none, ← hfind]
      apply find_sweep
      intro invitation hmem hwanted
      exact absurd hwanted (List.find?_eq_none.1 hfind invitation hmem)
  | some found =>
      have hmem : found ∈ tables.invitations := List.mem_of_find?_eq_some hfind
      have hfound : wanted found = true := List.find?_some hfind
      by_cases hcode : found.code ∈ codes
      · rw [Option.filter_some_neg (by simpa using hcode), List.find?_eq_none]
        intro other hother hwanted
        obtain ⟨hstored, hkept⟩ := List.mem_filter.1 hother
        rw [hunique other hstored found hmem hwanted hfound] at hkept
        simp [hcode] at hkept
      · rw [Option.filter_some_pos (by simpa using hcode), ← hfind]
        apply find_sweep
        intro other hother hwanted
        rw [hunique other hother found hmem hwanted hfound]
        exact hcode

/-- Whether a search that excludes the swept codes succeeds does not depend on them. -/
theorem any_sweep {wanted : Invitation → Bool}
    (hwanted : ∀ invitation ∈ tables.invitations, wanted invitation = true →
      invitation.code ∉ codes) :
    (tables.sweep codes).invitations.any wanted = tables.invitations.any wanted := by
  rw [← List.isSome_find?, ← List.isSome_find?, find_sweep hwanted]

/-- Searching for a code excludes the others. -/
theorem code_not_mem {code : String} (hcode : code ∉ codes) (invitation : Invitation)
    (hsame : (invitation.code == code) = true) : invitation.code ∉ codes := by
  rw [eq_of_beq hsame]
  exact hcode

/-- The invitation for an address of an organization. -/
def invitationFor (tables : Tables) (organizationId email : String) : Option Invitation :=
  tables.invitations.find? fun invitation =>
    invitation.organizationId == organizationId && invitation.email == email

/-- An invitation is for an address exactly when that is its address. -/
theorem isFor_iff {organizationId email : String} {invitation : Invitation} :
    (invitation.organizationId == organizationId && invitation.email == email) = true ↔
      invitation.address = (organizationId, email) := by
  simp [Invitation.address]

/-- The invitation for an address is for that address. -/
theorem address_of_invitationFor {organizationId email : String} {invitation : Invitation}
    (hfound : tables.invitationFor organizationId email = some invitation) :
    invitation.address = (organizationId, email) := by
  unfold invitationFor at hfound
  have hsought := List.find?_some hfound
  exact isFor_iff.1 hsought

/-- The invitation for an address is missed if it is swept. -/
theorem invitationFor_sweep (distinct : tables.HasDistinctAddresses)
    {organizationId email : String} :
    (tables.sweep codes).invitationFor organizationId email =
      (tables.invitationFor organizationId email).filter (!codes.contains ·.code) := by
  apply find_sweep_unique
  intro a ha b hb hwanted hother
  exact eq_of_key_eq distinct ha hb ((isFor_iff.1 hwanted).trans (isFor_iff.1 hother).symm)

/-- Deleting the invitations of a code and sweeping can be done in either order. -/
theorem filter_sweep (codes : List String) (tables : Tables) (keep : Invitation → Bool) :
    (tables.sweep codes).invitations.filter keep =
      (tables.invitations.filter keep).filter (!codes.contains ·.code) := by
  simp only [sweep, List.filter_filter, Bool.and_comm]

end Tables

/-- Deleting a swept code changes nothing but what is swept. -/
theorem World.sweep_delete (world : World) {code : String} (hcode : code ∈ codes) :
    (World.perform (.store (.invitations (.delete code))) world).2.sweep codes =
      world.sweep codes := by
  have hfilter : (world.tables.invitations.filter (·.code != code)).filter
      (!codes.contains ·.code) = world.tables.invitations.filter (!codes.contains ·.code) := by
    rw [List.filter_filter]
    apply List.filter_congr
    intro invitation _
    by_cases hsame : invitation.code = code
    · simp [hsame, hcode]
    · simp [hsame]
  simp only [World.perform, World.callStore, World.sweep, Tables.sweep, Tables.perform,
    Tables.performInvitation, hfilter]

/-- An invitation is created alike, if neither its code nor its address is one of those swept. -/
theorem World.perform_create_sweep {invitation : Invitation} (hcode : invitation.code ∉ codes)
    (haddress : ∀ other ∈ world.tables.invitations, other.address ≠ invitation.address) :
    World.perform (.store (.invitations (.create invitation))) (world.sweep codes) =
      ((World.perform (.store (.invitations (.create invitation))) world).1,
        (World.perform (.store (.invitations (.create invitation))) world).2.sweep codes) := by
  have hany : ((world.tables.sweep codes).invitations.any fun other =>
      other.code == invitation.code ||
        (other.organizationId == invitation.organizationId && other.email == invitation.email)) =
      world.tables.invitations.any fun other => other.code == invitation.code ||
        (other.organizationId == invitation.organizationId && other.email == invitation.email) := by
    apply Tables.any_sweep
    intro other hmem hclash
    rcases Bool.or_eq_true_iff.1 hclash with hsame | hsame
    · exact Tables.code_not_mem hcode other hsame
    · exact absurd (Tables.isFor_iff.1 hsame) (haddress other hmem)
  simp only [World.perform, World.callStore, World.sweep, Tables.perform,
    Tables.performInvitation, hany]
  split
  · rfl
  · simp [Tables.sweep, List.filter_append, hcode]

/-! ## Spent invitations -/

/-- The invitations of some codes have expired, and none of these codes is drawn again. -/
structure World.Spent (codes : List String) (world : World) : Prop where
  expired : ∀ invitation ∈ world.tables.invitations, invitation.code ∈ codes →
    invitation.isExpiredAt world.clock = true
  addresses : world.tables.HasDistinctAddresses
  undrawn : ∀ n, world.supply.bytesDrawn ≤ n →
    Text.Base64Url.encode (world.supply.bytes n) ∉ codes

namespace World.Spent

/-- No request draws fewer bytes. -/
theorem bytesDrawn_le (effect : Effect) (world : World) :
    world.supply.bytesDrawn ≤ (World.perform effect world).2.supply.bytesDrawn := by
  cases effect with
  | randomBytes => exact Nat.le_succ _
  | store | clock | freshId | note => exact Nat.le_refl _

/-- Spent invitations stay spent, unless one with such a code is created. -/
theorem perform (spent : world.Spent codes) {effect : Effect}
    (hcreate : ∀ invitation, effect = .store (.invitations (.create invitation)) →
      invitation.code ∉ codes) : (World.perform effect world).2.Spent codes where
  expired := by
    intro invitation hmem hcode
    have hclock := congrArg Outside.clock (World.perform_outside effect world)
    change (World.perform effect world).2.clock = world.clock at hclock
    rw [hclock]
    cases effect with
    | store call =>
        rcases Tables.mem_invitations_perform hmem with hold | rfl
        · exact spent.expired invitation hold hcode
        · exact absurd hcode (hcreate invitation rfl)
    | clock | freshId | randomBytes | note => exact spent.expired invitation hmem hcode
  addresses := by
    cases effect with
    | store call => exact spent.addresses.perform call
    | clock | freshId | randomBytes | note => exact spent.addresses
  undrawn := by
    intro n hn
    rw [World.perform_bytes]
    exact spent.undrawn n ((bytesDrawn_le effect world).trans hn)

/-- Spent invitations stay spent while time passes. -/
theorem shift (spent : world.Spent codes) {outside : Outside}
    (hlater : world.clock ≤ outside.clock) : (world.withOutside outside).Spent codes where
  expired := by
    intro invitation hmem hcode
    have hexpired := spent.expired invitation hmem hcode
    simp only [Invitation.isExpiredAt, decide_eq_true_eq] at hexpired ⊢
    exact hexpired.trans hlater
  addresses := spent.addresses
  undrawn := spent.undrawn

end World.Spent

/-! ## Lists -/

namespace Tables

/-- The order of lists is that of the times of creation, the latest first, and of the addresses at
the same time. -/
theorem invitationLE_iff {a b : Invitation} :
    invitationLE a b = true ↔
      toLex (OrderDual.toDual a.createdAt, a.email) ≤
        toLex (OrderDual.toDual b.createdAt, b.email) := by
  simp only [invitationLE, Prod.Lex.toLex_le_toLex, OrderDual.toDual_lt_toDual,
    OrderDual.toDual_inj, Bool.or_eq_true, Bool.and_eq_true, decide_eq_true_eq, beq_iff_eq]

/-- In the order of lists, only invitations of the same address come before each other. -/
theorem email_eq_of_invitationLE {a b : Invitation} (hab : invitationLE a b = true)
    (hba : invitationLE b a = true) : a.email = b.email :=
  congrArg (fun key => (ofLex key).2)
    (le_antisymm (invitationLE_iff.1 hab) (invitationLE_iff.1 hba))

/-- The unexpired invitations of an organization at a time, newest first. -/
def listedAt (tables : Tables) (organizationId : String) (now : Nat) : List Invitation :=
  ((tables.invitations.filter (·.organizationId == organizationId)).mergeSort invitationLE).filter
    (!·.isExpiredAt now)

/-- They are in the order of lists. -/
theorem pairwise_listedAt (tables : Tables) (organizationId : String) (now : Nat) :
    (tables.listedAt organizationId now).Pairwise fun a b => invitationLE a b = true :=
  (pairwise_mergeSort_of_key (fun a b => @invitationLE_iff a b) _).filter _

/-- They are the stored ones, up to their order. -/
theorem listedAt_perm (tables : Tables) (organizationId : String) (now : Nat) :
    (tables.listedAt organizationId now).Perm
      ((tables.invitations.filter (·.organizationId == organizationId)).filter
        (!·.isExpiredAt now)) :=
  (List.mergeSort_perm _ _).filter _

/-- Spent invitations are not listed. -/
theorem listedAt_sweep (spent : world.Spent codes) (organizationId : String) :
    (world.tables.sweep codes).listedAt organizationId world.clock =
      world.tables.listedAt organizationId world.clock := by
  have hkept : ((world.tables.sweep codes).invitations.filter
        (·.organizationId == organizationId)).filter (!·.isExpiredAt world.clock) =
      (world.tables.invitations.filter (·.organizationId == organizationId)).filter
        (!·.isExpiredAt world.clock) := by
    simp only [sweep, List.filter_filter]
    apply List.filter_congr
    intro invitation hmem
    by_cases hcode : invitation.code ∈ codes
    · simp [spent.expired invitation hmem hcode]
    · simp [hcode]
  have hperm := ((world.tables.sweep codes).listedAt_perm organizationId world.clock).trans
    (hkept ▸ (world.tables.listedAt_perm organizationId world.clock).symm)
  refine hperm.eq_of_pairwise ?_ (pairwise_listedAt _ _ _) (pairwise_listedAt _ _ _)
  -- What is listed before and after each other has the same address, so it is the same.
  have hstored : ∀ invitation ∈ world.tables.listedAt organizationId world.clock,
      invitation ∈ world.tables.invitations ∧ invitation.organizationId = organizationId := by
    intro invitation hlisted
    have hmem := (world.tables.listedAt_perm organizationId world.clock).mem_iff.1 hlisted
    simpa using (List.mem_filter.1 hmem).1
  intro a b ha hb hab hba
  obtain ⟨hmem, horg⟩ := hstored a (hperm.mem_iff.1 ha)
  obtain ⟨hother, hsame⟩ := hstored b hb
  apply eq_of_key_eq spent.addresses hmem hother
  exact Prod.ext (horg.trans hsame.symm) (email_eq_of_invitationLE hab hba)

end Tables

/-! ## Requests that do not see spent invitations -/

/-- A request gets the same reply without the invitations of some codes, and leaves them spent. -/
structure Effect.Spares (codes : List String) (effect : Effect) : Prop where
  swept : ∀ world, World.perform effect (world.sweep codes) =
    ((World.perform effect world).1, (World.perform effect world).2.sweep codes)
  spent : ∀ world, world.Spent codes → (World.perform effect world).2.Spent codes

namespace Effect.Spares

/-- Requests about anything but invitations. -/
theorem beside {effect : Effect}
    (hother : ∀ call, effect ≠ .store (.invitations call)) : effect.Spares codes where
  swept world := by
    cases effect with
    | store call =>
        have hsame := @Tables.perform_sweep codes world.tables call
          (by rintro _ rfl; exact hother _ rfl)
        simp only [World.perform, World.callStore, World.sweep, hsame]
    | clock | freshId | randomBytes | note => rfl
  spent world spent := spent.perform fun invitation hcreate => absurd hcreate (hother _)

/-- Plain requests. -/
theorem plain (effect : Effect) (hplain : effect.isPlain = true) : effect.Spares codes :=
  beside (by rintro call rfl; cases hplain)

/-- Looking up a code that is not swept. -/
theorem findByCode {code : String} (hcode : code ∉ codes) :
    (Effect.store (.invitations (.findByCode code))).Spares codes where
  swept world := by
    have hfind := Tables.find_sweep fun invitation (_ : invitation ∈ world.tables.invitations) =>
      Tables.code_not_mem hcode invitation
    simp only [World.perform, World.callStore, World.sweep, Tables.perform,
      Tables.performInvitation, hfind]
  spent world spent := spent.perform nofun

/-- Deleting a code that is not swept. -/
theorem delete {code : String} (hcode : code ∉ codes) :
    (Effect.store (.invitations (.delete code))).Spares codes where
  swept world := by
    have hany := Tables.any_sweep fun invitation (_ : invitation ∈ world.tables.invitations) =>
      Tables.code_not_mem hcode invitation
    have hfilter := world.tables.filter_sweep codes (·.code != code)
    simp only [World.perform, World.callStore, World.sweep, Tables.perform,
      Tables.performInvitation, hany, hfilter]
    rfl
  spent world spent := spent.perform nofun

end Effect.Spares

/-! ## Actions that overlook spent invitations -/

/-- A run of an action in a world gives the same result without the invitations of some codes and
leaves the same world but for them; they stay spent. -/
structure Action.Overlooks {α : Type} (codes : List String) (world : World)
    (action : Action α) : Prop where
  swept : action.runIn (world.sweep codes) =
    ((action.runIn world).1, (action.runIn world).2.sweep codes)
  spent : (action.runIn world).2.Spent codes

/-- A program all of whose requests spare the codes runs the same without their invitations. -/
theorem Program.Uses.run_sweep {α : Type} {wanted : α → Prop}
    {program : Program Effect Effect.Reply α} (huses : program.Uses (Effect.Spares codes) wanted)
    (spent : world.Spent codes) :
    program.run World.perform (world.sweep codes) =
        ((program.run World.perform world).1,
          (program.run World.perform world).2.sweep codes) ∧
      (program.run World.perform world).2.Spent codes := by
  induction program generalizing world with
  | done value => exact ⟨rfl, spent⟩
  | ask effect rest ih =>
      rw [Program.run_ask, Program.run_ask, huses.1.swept world]
      exact ih _ (huses.2 _) (huses.1.spent world spent)

namespace Action.Overlooks

variable {α β : Type}

/-- What two runs show. -/
theorem of_runs {action : Action α} {result : Except Error α} {after : World}
    (hrun : action.runIn world = (result, after))
    (hswept : action.runIn (world.sweep codes) = (result, after.sweep codes))
    (hspent : after.Spent codes) : action.Overlooks codes world where
  swept := by rw [hswept, hrun]
  spent := by
    rw [hrun]
    exact hspent

/-- A single request. -/
theorem perform {effect : Effect}
    (hswept : World.perform effect (world.sweep codes) =
      ((World.perform effect world).1, (World.perform effect world).2.sweep codes))
    (hspent : (World.perform effect world).2.Spent codes) :
    (Action.perform effect).Overlooks codes world := by
  apply of_runs rfl _ hspent
  exact congrArg (fun out : effect.Reply × World => (Except.ok out.1, out.2)) hswept

/-- An action all of whose requests spare the codes overlooks their invitations. -/
theorem ofUses {action : Action α} (huses : action.Uses (Effect.Spares codes) fun _ => True)
    (spent : world.Spent codes) :
    action.Overlooks codes world where
  swept := (huses.run.run_sweep spent).1
  spent := (huses.run.run_sweep spent).2

/-- Actions in sequence. -/
theorem bind {action : Action β} {next : β → Action α} (overlooks : action.Overlooks codes world)
    (hnext : ∀ value after, action.runIn world = (.ok value, after) → after.Spent codes →
      (next value).Overlooks codes after) : (action >>= next).Overlooks codes world := by
  obtain ⟨hswept, hspent⟩ := overlooks
  rcases hrun : action.runIn world with ⟨result, after⟩
  rw [hrun] at hswept hspent
  cases result with
  | ok value =>
      have hlast := hnext value after hrun hspent
      constructor
      · rw [runIn_bind_ok hswept, runIn_bind_ok hrun]
        exact hlast.swept
      · rw [runIn_bind_ok hrun]
        exact hlast.spent
  | error error =>
      constructor
      · rw [runIn_bind, runIn_bind, hswept, hrun]
      · rw [runIn_bind, hrun]
        exact hspent

/-- What an action ends with does not matter to what follows. -/
theorem afterUses {action : Action β} {next : β → Action α}
    (huses : action.Uses (Effect.Spares codes) fun _ => True) (spent : world.Spent codes)
    (hnext : ∀ value after, after.Spent codes → (next value).Overlooks codes after) :
    (action >>= next).Overlooks codes world :=
  (ofUses huses spent).bind fun value after _ => hnext value after

end Action.Overlooks

/-! ## Operations on invitations -/

namespace Invitations

open Effect.Spares

/-- Reading which invitation is for an address, and making way for a new one. -/
def makeWay (now : Nat) (organizationId email : String) : Action Unit :=
  Action.ask (.invitations (.findForEmail organizationId email)) >>= replaceExpired now

/-- What making way does depends on the invitation for the address. -/
theorem runIn_makeWay (world : World) (organizationId email : String) :
    (makeWay world.clock organizationId email).runIn world =
      (replaceExpired world.clock (world.tables.invitationFor organizationId email)).runIn world :=
  Action.runIn_bind_ok (Action.runIn_read rfl rfl) _

/-- An expired invitation is deleted to make way for a new one. -/
theorem runIn_replaceExpired_some {existing : Invitation}
    (hexpired : existing.isExpiredAt world.clock = true) :
    (replaceExpired world.clock (some existing)).runIn world = (.ok (),
      (World.perform (.store (.invitations (.delete existing.code))) world).2) :=
  Action.runIn_bind_ok (Action.runIn_require hexpired _) _

/-- Making way for a new invitation removes a spent one, as if it had never been there. -/
theorem makeWay_overlooks (spent : world.Spent codes) (organizationId email : String) :
    (makeWay world.clock organizationId email).Overlooks codes world := by
  have hsweep : (world.sweep codes).tables.invitationFor organizationId email =
      (world.tables.invitationFor organizationId email).filter (!codes.contains ·.code) :=
    Tables.invitationFor_sweep spent.addresses
  have hrun := runIn_makeWay world organizationId email
  have hswept := runIn_makeWay (world.sweep codes) organizationId email
  rw [hsweep] at hswept
  cases hfound : world.tables.invitationFor organizationId email with
  | none =>
      rw [hfound] at hrun hswept
      exact .of_runs hrun hswept spent
  | some existing =>
      rw [hfound] at hrun hswept
      by_cases hcode : existing.code ∈ codes
      · have hexpired := spent.expired existing (List.mem_of_find?_eq_some hfound) hcode
        rw [runIn_replaceExpired_some hexpired] at hrun
        rw [Option.filter_some_neg (by simpa using hcode)] at hswept
        refine .of_runs hrun (hswept.trans ?_) (spent.perform nofun)
        exact congrArg (Prod.mk _) (World.sweep_delete world hcode).symm
      · rw [Option.filter_some_pos (by simpa using hcode)] at hswept
        have huses : (replaceExpired world.clock (some existing)).Uses (Effect.Spares codes)
            fun _ => True :=
          .andThen (.require _ _) fun _ => .andThen (.ask (delete hcode)) fun _ => .pure trivial
        have hsame : (replaceExpired world.clock (some existing)).Overlooks codes world :=
          .ofUses huses spent
        exact .of_runs hrun (hswept.trans hsame.swept) hsame.spent

/-- After making way, no invitation is for the address. -/
theorem makeWay_frees (distinct : world.tables.HasDistinctAddresses)
    {organizationId email : String} {after : World}
    (hrun : (makeWay world.clock organizationId email).runIn world = (.ok (), after)) :
    ∀ invitation ∈ after.tables.invitations, invitation.address ≠ (organizationId, email) := by
  intro invitation hmem haddress
  rw [runIn_makeWay] at hrun
  cases hfound : world.tables.invitationFor organizationId email with
  | none =>
      rw [hfound] at hrun
      cases hrun
      exact List.find?_eq_none.1 hfound invitation hmem (Tables.isFor_iff.2 haddress)
  | some existing =>
      rw [hfound] at hrun
      by_cases hexpired : existing.isExpiredAt world.clock = true
      · rw [runIn_replaceExpired_some hexpired] at hrun
        cases hrun
        obtain ⟨hstored, hkept⟩ := List.mem_filter.1 hmem
        have hsame : invitation = existing :=
          Tables.eq_of_key_eq distinct hstored (List.mem_of_find?_eq_some hfound)
            (haddress.trans (Tables.address_of_invitationFor hfound).symm)
        simp [hsame] at hkept
      · have hrefused : (replaceExpired world.clock (some existing)).runIn world =
            (.error .alreadyInvited, world) := by
          simp [replaceExpired, Action.require, hexpired]
        rw [hrefused] at hrun
        cases hrun

/-- A new invitation is stored whether or not the spent ones are there. -/
theorem store_overlooks (spent : world.Spent codes) {invitation : Invitation}
    (hcode : invitation.code ∉ codes)
    (haddress : ∀ other ∈ world.tables.invitations, other.address ≠ invitation.address) :
    (store invitation).Overlooks codes world := by
  have hattempt : (Action.attempt (.invitations (.create invitation))).Overlooks codes world := by
    refine .perform (World.perform_create_sweep hcode haddress) (spent.perform ?_)
    rintro _ ⟨⟩
    exact hcode
  refine hattempt.bind fun reply after _ spent => ?_
  have hends : ∀ action : Action Unit, action.Uses (Effect.Spares codes) (fun _ => True) →
      action.Overlooks codes after := fun _ huses => .ofUses huses spent
  split
  · exact hends _ (.pure trivial)
  · exact hends _ (.throw _)
  · exact hends _ (.throw _)

/-- Inviting an address replaces a spent invitation for it as if there were none. -/
theorem create_overlooks (spent : world.Spent codes) (policy : InvitationPolicy)
    (draft : Invitation.Draft) : (create policy draft).Overlooks codes world := by
  refine .afterUses (.check _) spent fun email world spent =>
    .afterUses (.check _) spent fun _ world spent => ?_
  refine .afterUses (Action.loadOrganization_uses plain _) spent fun org world spent =>
    .afterUses (Roles.assignable_uses plain org _) spent fun roleIds world spent => ?_
  refine .bind (.ofUses (.now (plain _ rfl)) spent) fun now timed hnow _ => ?_
  obtain ⟨rfl, rfl⟩ : world.clock = now ∧ world = timed := by
    cases hnow
    exact ⟨rfl, rfl⟩
  -- Reading the old invitation and replacing it belong together: only the latter hides the former.
  rw [← bind_assoc]
  refine .bind (makeWay_overlooks spent org.id email) fun _ cleared hcleared hspent => ?_
  refine .bind (.ofUses (.randomBytes (plain _ rfl)) hspent) fun bytes drawn hdrawn hstill => ?_
  obtain ⟨hcode, htables⟩ : Text.Base64Url.encode bytes ∉ codes ∧
      drawn.tables = cleared.tables := by
    cases hdrawn
    exact ⟨hspent.undrawn _ le_rfl, rfl⟩
  refine .bind (store_overlooks hstill hcode ?_) fun _ stored _ hlast =>
    .ofUses (.andThen (.note (plain _ rfl)) fun _ => .pure trivial) hlast
  rw [htables]
  exact makeWay_frees spent.addresses hcleared

/-- Accepting an invitation does not touch the spent ones of other codes. -/
theorem accept_overlooks (spent : world.Spent codes) {code : String} (hcode : code ∉ codes)
    (user : User) : (accept code user).Overlooks codes world :=
  .ofUses (accept_uses plain code user (findByCode hcode) (fun _ _ _ => beside nofun)
    (fun _ _ _ => beside nofun) (delete hcode) fun _ _ => beside nofun) spent

/-- Revoking an invitation does not touch the spent ones of other codes. -/
theorem revoke_overlooks (spent : world.Spent codes) (organizationId : String) {code : String}
    (hcode : code ∉ codes) : (revoke organizationId code).Overlooks codes world := by
  refine .bind (.ofUses (.ask (findByCode hcode)) spent) fun found read hread spent => ?_
  obtain rfl : world.tables.invitations.find? (·.code == code) = found := by
    cases hread
    rfl
  split
  · exact .ofUses (.pure trivial) spent
  · rename_i invitation hfound
    have hsame := List.find?_some (Option.filter_eq_some_iff.1 hfound).1
    have hspared : invitation.code ∉ codes := Tables.code_not_mem hcode invitation hsame
    refine .afterUses (.ask (delete hspared)) spent fun deleted after spent => ?_
    split
    · exact .ofUses (.andThen (.note (plain _ rfl)) fun _ => .pure trivial) spent
    · exact .ofUses (.pure trivial) spent

/-- The list of unexpired invitations does not show the spent ones. -/
theorem list_overlooks (spent : world.Spent codes) (organizationId : String) :
    (list organizationId).Overlooks codes world := by
  apply Action.Overlooks.of_runs rfl _ spent
  exact congrArg (fun listed => (Except.ok listed, world.sweep codes))
    (Tables.listedAt_sweep spent organizationId)

end Invitations

/-! ## All operations -/

/-- The code that an operation names, if it is one that finds, accepts or revokes an invitation. -/
def Operation.namedCode? : Operation → Option String
  | .findInvitation code | .acceptInvitation code _ | .revokeInvitation _ code => some code
  | _ => none

/-- No operation but a purge notices spent invitations whose codes it does not name. -/
theorem Operation.overlooks (spent : world.Spent codes) (deployment : Deployment)
    (operation : Operation) (hpurge : operation ≠ .purgeInvitations)
    (hnamed : ∀ code, operation.namedCode? = some code → code ∉ codes) :
    (operation.action deployment).Overlooks codes world := by
  have hothers : (∀ call, ¬operation.MayWrite (.invitations call)) →
      (∀ call, operation.Consults call →
        (Effect.store (.invitations call)).Spares codes) →
      (operation.action deployment).Overlooks codes world := by
    intro hwrites hconsults
    apply Action.Overlooks.ofUses _ spent
    apply operation.action_asks deployment Effect.Spares.plain _ hconsults
      fun _ _ => .beside nofun
    intro call hmay
    apply Effect.Spares.beside
    rintro invitationCall ⟨⟩
    exact hwrites _ hmay
  cases operation with
  | createInvitation draft => exact Invitations.create_overlooks spent _ draft
  | acceptInvitation code user => exact Invitations.accept_overlooks spent (hnamed code rfl) user
  | revokeInvitation organizationId code =>
      exact Invitations.revoke_overlooks spent organizationId (hnamed code rfl)
  | listInvitations organizationId => exact Invitations.list_overlooks spent organizationId
  | purgeInvitations => exact absurd rfl hpurge
  | findInvitation code =>
      apply hothers nofun
      rintro _ ⟨⟩
      exact .findByCode (hnamed code rfl)
  | _ => exact hothers (by rintro _ ⟨⟩) (by rintro _ ⟨⟩)

end Tenancy
