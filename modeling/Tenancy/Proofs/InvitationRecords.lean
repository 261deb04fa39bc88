import Tenancy.Proofs.InvitationCodes
import Tenancy.Proofs.KeyedRecords

/-!
# Tenancy - Stored invitations

Invitations are told apart in two ways: by their codes, and by the organization and
the address that they are for.  The store keeps both distinct.  Every stored code was
drawn at some time, so a code that is drawn now is new if codes never repeat.

Main definitions:

- `Invitation.address`: the organization and the email address an invitation is for.
- `Tables.HasDistinctAddresses`: no two invitations are for the same.

Main results:

- Theorem `Regime.Reaches.hasDistinctAddresses`: in every reachable world, no two
  invitations are for the same address of an organization.
- Theorem `Regime.Reaches.code_drawn`: every stored code was drawn.
- Theorem `Regime.Reaches.nextCode_is_new`: so the next code is not in use.
-/

namespace Tenancy

/-! ## Addresses -/

/-- What an invitation is for: an organization, and the address that is invited. -/
def Invitation.address (invitation : Invitation) : String × String :=
  (invitation.organizationId, invitation.email)

namespace Tables

/-- No two invitations are for the same address of an organization. -/
def HasDistinctAddresses (tables : Tables) : Prop :=
  (tables.invitations.map Invitation.address).Nodup

/-- The store keeps addresses distinct, whatever it is asked. -/
theorem HasDistinctAddresses.perform {tables : Tables} (distinct : tables.HasDistinctAddresses)
    (call : Call) : (tables.perform call).2.HasDistinctAddresses := by
  cases call with
  | invitations call =>
      cases call with
      | create invitation =>
          simp only [Tables.perform, performInvitation]
          split
          · exact distinct
          · rename_i hnew
            refine nodup_map_append distinct fun hmem => hnew ?_
            obtain ⟨other, hother, haddress⟩ := List.mem_map.1 hmem
            obtain ⟨horg, hemail⟩ := Prod.mk.inj haddress
            exact List.any_eq_true.2 ⟨other, hother, by simp [horg, hemail]⟩
      | delete code => exact nodup_map_filter distinct _
      | deleteExpired now => exact nodup_map_filter distinct _
      | findByCode | findForEmail | listForOrganization => exact distinct
  | organizations | memberships | roles | directory | catalog =>
      unfold HasDistinctAddresses
      rw [perform_invitations (by rintro _ ⟨⟩)]
      exact distinct

end Tables

section Runs

variable {regime : Regime} {world : World} {config : Configuration}

/-- In every reachable world, no two invitations are for the same address of an organization. -/
theorem Regime.Reaches.hasDistinctAddresses (starts : regime.Starts world)
    (reaches : regime.Reaches world config) : config.world.tables.HasDistinctAddresses := by
  refine @Regime.Reaches.invariant_of_writes regime (fun world => world.tables.HasDistinctAddresses)
    world config reaches ?_ ?_ ?_ ?_
  · unfold Tables.HasDistinctAddresses
    rw [starts.noRecords.invitations]
    exact List.nodup_nil
  · intro operation call world _ distinct
    exact distinct.perform call
  · intro effect world hread distinct
    rw [world.perform_tables_of_not_write hread]
    exact distinct
  · intro outside world distinct
    exact distinct

/-! ## Codes -/

/-- Every stored code was drawn. -/
theorem Regime.Reaches.code_drawn (starts : regime.Starts world)
    (reaches : regime.Reaches world config) {invitation : Invitation}
    (hinvitation : invitation ∈ config.world.tables.invitations) :
    ∃ n < config.world.supply.bytesDrawn,
      invitation.code = Text.Base64Url.encode (config.world.supply.bytes n) := by
  have hstored : 0 < (config.world.tables.invitations.map (·.code)).count invitation.code :=
    List.count_pos_iff.2 (List.mem_map_of_mem hinvitation)
  have hcreated := reaches.count_deleted_le_created starts invitation.code
  have hdrawn := reaches.count_created_le invitation.code
  have hmem : invitation.code ∈ config.readings Exchange.drawn? :=
    List.count_pos_iff.1 (by omega)
  obtain ⟨hbytes, drawn, hcount, hcodes⟩ := reaches.drawn_eq
  rw [hcodes] at hmem
  obtain ⟨n, hn, hcode⟩ := List.mem_map.1 hmem
  obtain ⟨i, hi, rfl⟩ := List.mem_range'.1 hn
  refine ⟨world.supply.bytesDrawn + 1 * i, by omega, ?_⟩
  rw [hbytes]
  exact hcode.symm

/-- The code that is drawn next. -/
def World.nextCode (world : World) : String :=
  Text.Base64Url.encode world.drawBytes.1

/-- If the codes drawn so far and the next one differ, the next one is not in use. -/
theorem Regime.Reaches.nextCode_is_new (starts : regime.Starts world)
    (reaches : regime.Reaches world config)
    (distinct : config.world.drawBytes.2.supply.DistinctCodes) :
    ∀ invitation ∈ config.world.tables.invitations, invitation.code ≠ config.world.nextCode := by
  intro invitation hinvitation hcode
  obtain ⟨n, hlt, hdrawn⟩ := reaches.code_drawn starts hinvitation
  have hsame : n = config.world.supply.bytesDrawn :=
    distinct n config.world.supply.bytesDrawn (Nat.lt_succ_of_lt hlt) (Nat.lt_succ_self _)
      (hdrawn.symm.trans hcode)
  omega

end Runs
end Tenancy
