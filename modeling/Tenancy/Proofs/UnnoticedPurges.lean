import Tenancy.Proofs.SpentInvitations

/-!
# Tenancy - Purges that go unnoticed

A purge deletes the expired invitations.  Whatever operations follow it, they are
answered as if there had been no purge, and after each of them the two worlds show the
same, as long as no operation asks for a purged code.  Only later purges can tell: they
count what they delete.

Main definitions:

- `Occasion`: an operation with what it runs under.
- `World.ShowsSame`: two worlds differ at most in expired invitations.
- `Occasion.Alike`: two worlds answer a sequence of operations alike and show the same
  all along.

Main results:

- Theorem `Occasion.step`: what one operation keeps of two such worlds.
- Theorem `Occasion.alike_sweep`: what a sequence of operations keeps.
- Theorem `purge_unnoticed`: no sequence of operations notices a purge.
-/

namespace Tenancy

/-! ## Sequences of operations -/

/-- An operation, with the deployment and the outside that it runs under. -/
structure Occasion where
  outside : Outside
  deployment : Deployment
  operation : Operation

/-- The run of an operation on its occasion. -/
def Occasion.runIn (occasion : Occasion) (world : World) :
    Except Error occasion.operation.Answer × World :=
  (occasion.operation.action occasion.deployment).runIn (world.withOutside occasion.outside)

/-- Two results of an operation are the same; those of a purge, up to how much it deleted. -/
def Operation.SameAnswer : (operation : Operation) → Except Error operation.Answer →
    Except Error operation.Answer → Prop
  | .purgeInvitations, first, second => first.map (fun _ => ()) = second.map (fun _ => ())
  | _, first, second => first = second

/-- The invitations that have not expired. -/
def World.unexpired (world : World) : List Invitation :=
  world.tables.invitations.filter (!·.isExpiredAt world.clock)

/-- The codes of the invitations that have expired. -/
def World.expiredCodes (world : World) : List String :=
  (world.tables.invitations.filter (·.isExpiredAt world.clock)).map (·.code)

/-- Two worlds differ at most in expired invitations. -/
structure World.ShowsSame (first second : World) : Prop where
  organizations : first.tables.organizations = second.tables.organizations
  memberships : first.tables.memberships = second.tables.memberships
  roles : first.tables.roles = second.tables.roles
  grants : first.tables.grants = second.tables.grants
  unexpired : first.unexpired = second.unexpired
  trail : first.trail = second.trail

/-- Two worlds show the same, answer operations one after the other alike, and show the same after
each of them. -/
def Occasion.Alike : List Occasion → World → World → Prop
  | [], first, second => first.ShowsSame second
  | occasion :: rest, first, second =>
    first.ShowsSame second ∧
      occasion.operation.SameAnswer (occasion.runIn first).1 (occasion.runIn second).1 ∧
        Occasion.Alike rest (occasion.runIn first).2 (occasion.runIn second).2

/-! ## Sequences without spent invitations -/

variable {codes : List String} {world : World}

/-- Without its spent invitations, a world shows the same. -/
theorem World.Spent.showsSame (spent : world.Spent codes) :
    world.ShowsSame (world.sweep codes) where
  organizations := rfl
  memberships := rfl
  roles := rfl
  grants := rfl
  unexpired := by
    unfold World.unexpired
    simp only [World.sweep, Tables.sweep, List.filter_filter]
    apply List.filter_congr
    intro invitation hmem
    by_cases hcode : invitation.code ∈ codes
    · simp [spent.expired invitation hmem hcode]
    · simp [hcode]
  trail := rfl

/-- A purge succeeds and leaves the unexpired invitations. -/
theorem Invitations.runIn_purge (world : World) :
    Invitations.purge.runIn world =
      (.ok (world.tables.invitations.countP (·.isExpiredAt world.clock)),
        { world with tables := { world.tables with invitations := world.unexpired } }) :=
  rfl

/-- Purging and sweeping can be done in either order. -/
theorem Invitations.purge_sweep (codes : List String) (world : World) :
    (Invitations.purge.runIn (world.sweep codes)).2 =
      (Invitations.purge.runIn world).2.sweep codes := by
  have hfilter := world.tables.filter_sweep codes (!·.isExpiredAt world.clock)
  rw [runIn_purge, runIn_purge]
  simp only [World.sweep, World.unexpired, hfilter]
  rfl

/-- Spent invitations stay spent in a purge. -/
theorem Invitations.purge_spent (spent : world.Spent codes) :
    (Invitations.purge.runIn world).2.Spent codes := by
  have hdelete : (World.perform (.store (.invitations (.deleteExpired world.clock))) world).2.Spent
      codes := spent.perform nofun
  exact hdelete

/-- Equal results are the same. -/
theorem Operation.SameAnswer.refl (operation : Operation) (answer : Except Error operation.Answer) :
    operation.SameAnswer answer answer := by
  cases operation <;> rfl

/-- One operation is answered alike without spent invitations, leads to the same world but for them,
and leaves them spent. -/
theorem Occasion.step (spent : world.Spent codes) (occasion : Occasion)
    (hlater : world.clock ≤ occasion.outside.clock)
    (hnamed : ∀ code, occasion.operation.namedCode? = some code → code ∉ codes) :
    occasion.operation.SameAnswer (occasion.runIn world).1
        (occasion.runIn (world.sweep codes)).1 ∧
      (occasion.runIn (world.sweep codes)).2 = (occasion.runIn world).2.sweep codes ∧
      (occasion.runIn world).2.Spent codes ∧
      (occasion.runIn world).2.clock = occasion.outside.clock := by
  obtain ⟨outside, deployment, operation⟩ := occasion
  have hspent : (world.withOutside outside).Spent codes := spent.shift hlater
  have hclock : ((operation.action deployment).runIn (world.withOutside outside)).2.clock =
      outside.clock := congrArg Outside.clock (Program.run_outside _ (world.withOutside outside))
  by_cases hpurge : operation = .purgeInvitations
  · subst hpurge
    exact ⟨rfl, Invitations.purge_sweep codes (world.withOutside outside),
      Invitations.purge_spent hspent, hclock⟩
  · have hoverlooks := operation.overlooks hspent deployment hpurge hnamed
    have hrun : (Occasion.mk outside deployment operation).runIn (world.sweep codes) =
        (((operation.action deployment).runIn (world.withOutside outside)).1,
          ((operation.action deployment).runIn (world.withOutside outside)).2.sweep codes) :=
      hoverlooks.swept
    rw [hrun]
    exact ⟨.refl operation _, rfl, hoverlooks.spent, hclock⟩

/-- Operations one after the other are answered alike without spent invitations. -/
theorem Occasion.alike_sweep (spent : world.Spent codes) (occasions : List Occasion)
    (hordered : (world.clock :: occasions.map (·.outside.clock)).Pairwise (· ≤ ·))
    (hnamed : ∀ occasion ∈ occasions, ∀ code, occasion.operation.namedCode? = some code →
      code ∉ codes) : Occasion.Alike occasions world (world.sweep codes) := by
  induction occasions generalizing world with
  | nil => exact spent.showsSame
  | cons occasion rest ih =>
      obtain ⟨hclocks, hrest⟩ := List.pairwise_cons.1 hordered
      obtain ⟨hanswer, hswept, hspent, hclock⟩ := occasion.step spent
        (hclocks _ List.mem_cons_self) (hnamed occasion List.mem_cons_self)
      refine ⟨spent.showsSame, hanswer, ?_⟩
      rw [hswept]
      apply ih hspent
      · rw [hclock]
        exact hrest
      · exact fun other hother => hnamed other (List.mem_cons_of_mem _ hother)

/-! ## The purge -/

/-- The world at a time. -/
def World.atTime (world : World) (now : Nat) : World :=
  { world with clock := now }

/-- If codes are distinct, a stored invitation has one of the expired codes only if it has expired
itself. -/
theorem World.mem_expiredCodes_iff (distinct : world.tables.HasDistinctKeys)
    {invitation : Invitation} (hmem : invitation ∈ world.tables.invitations) :
    invitation.code ∈ world.expiredCodes ↔ invitation.isExpiredAt world.clock = true := by
  constructor
  · intro hcode
    obtain ⟨other, hother, hsame⟩ := List.mem_map.1 hcode
    obtain ⟨hstored, hexpired⟩ := List.mem_filter.1 hother
    rw [← Tables.eq_of_key_eq distinct.invitations hstored hmem hsame]
    exact hexpired
  · intro hexpired
    exact List.mem_map_of_mem (List.mem_filter.2 ⟨hmem, hexpired⟩)

/-- If codes are distinct, a purge deletes the invitations of the expired codes. -/
theorem Invitations.purge_eq_sweep (distinct : world.tables.HasDistinctKeys) :
    (Invitations.purge.runIn world).2 = world.sweep world.expiredCodes := by
  have hkept : world.unexpired =
      world.tables.invitations.filter (!world.expiredCodes.contains ·.code) := by
    apply List.filter_congr
    intro invitation hmem
    have hexpired : world.expiredCodes.contains invitation.code =
        invitation.isExpiredAt world.clock := by
      rw [Bool.eq_iff_iff, List.contains_iff_mem]
      exact world.mem_expiredCodes_iff distinct hmem
    rw [hexpired]
  rw [runIn_purge, hkept]
  rfl

/-- Where codes never repeat, no expired code is drawn again. -/
theorem Regime.Reaches.expiredCodes_undrawn {regime : Regime} {start : World}
    {config : Configuration} (starts : regime.Starts start)
    (reaches : regime.Reaches start config) (now : Nat)
    (hinjective : Function.Injective fun n =>
      Text.Base64Url.encode (config.world.supply.bytes n)) :
    ∀ n, config.world.supply.bytesDrawn ≤ n →
      Text.Base64Url.encode (config.world.supply.bytes n) ∉
        (config.world.atTime now).expiredCodes := by
  intro n hn hcode
  obtain ⟨invitation, hmem, hsame⟩ := List.mem_map.1 hcode
  obtain ⟨drawn, hlt, hdrawn⟩ := reaches.code_drawn starts (List.mem_filter.1 hmem).1
  have heq : drawn = n := hinjective (hdrawn.symm.trans hsame)
  omega

/-- In every reachable world and at every time, no sequence of later operations notices whether the
expired invitations have been purged, if none of them names a purged code and no purged code is
drawn again. -/
theorem purge_unnoticed {regime : Regime} {start : World} {config : Configuration}
    (starts : regime.Starts start) (reaches : regime.Reaches start config) (now : Nat)
    (occasions : List Occasion)
    (ordered : (now :: occasions.map (·.outside.clock)).Pairwise (· ≤ ·))
    (fresh : ∀ n, config.world.supply.bytesDrawn ≤ n →
      Text.Base64Url.encode (config.world.supply.bytes n) ∉
        (config.world.atTime now).expiredCodes)
    (unnamed : ∀ occasion ∈ occasions, ∀ code, occasion.operation.namedCode? = some code →
      code ∉ (config.world.atTime now).expiredCodes) :
    Occasion.Alike occasions (config.world.atTime now)
      (Invitations.purge.runIn (config.world.atTime now)).2 := by
  have distinct : (config.world.atTime now).tables.HasDistinctKeys :=
    reaches.hasDistinctKeys starts
  have addresses : (config.world.atTime now).tables.HasDistinctAddresses :=
    reaches.hasDistinctAddresses starts
  have spent : (config.world.atTime now).Spent (config.world.atTime now).expiredCodes :=
    { expired := fun _ hmem => (World.mem_expiredCodes_iff distinct hmem).1
      addresses := addresses
      undrawn := fresh }
  rw [Invitations.purge_eq_sweep distinct]
  exact Occasion.alike_sweep spent occasions ordered unnamed

/-- An expired invitation is purged or not; then its address is invited again, and the invitations
are listed and purged. -/
theorem purge_unnoticed_address_invited_again :
    ∃ config, Regime.orderly.Reaches (World.blank []) config ∧
      (config.world.atTime (10 ^ 9)).expiredCodes = ["AAAA"] ∧
      Occasion.Alike
        ([.createInvitation
            { organizationId := "a", email := "u@example.com", createdBy := "c", roleIds := []
              expiresInHours := none },
          .listInvitations "a", .purgeInvitations].map
            fun operation => ⟨((World.blank []).atTime (10 ^ 9)).outside, default, operation⟩)
        (config.world.atTime (10 ^ 9))
        (Invitations.purge.runIn (config.world.atTime (10 ^ 9))).2 := by
  have starts : Regime.orderly.Starts (World.blank []) := Regime.orderly_starts_blank (by simp)
  obtain ⟨config, reaches, hworld⟩ := Regime.orderly_operations starts default
    [.createOrganization
      { slug := "north", displayName := "North", tenantId := none, metadata := .empty },
     .createInvitation
      { organizationId := "a", email := "u@example.com", createdBy := "c", roleIds := []
        expiresInHours := none }]
  have hexpired : (config.world.atTime (10 ^ 9)).expiredCodes = ["AAAA"] := by
    rw [hworld]
    decide +kernel
  refine ⟨config, reaches, hexpired, purge_unnoticed starts reaches (10 ^ 9) _ (by decide) ?_ ?_⟩
  · exact reaches.expiredCodes_undrawn starts _ (reaches.admitted starts).codes
  · simp [Operation.namedCode?]

end Tenancy
