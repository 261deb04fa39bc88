import Tenancy.Proofs.CheckedValues
import Tenancy.Proofs.Registers

/-!
# Tenancy - The book of roles

Roles come and go, but what a role was created with stays: no update changes it, and
no later role has its id.  A system role does not go either.  A delete reads the role
first and deletes it in a later call; what it read of the system flag is still true
then.  The book remembers what each role was created with, from the moment that its
id is drawn, and which roles have been created.

Main definitions:

- `Role.edited`: the record that an update of a role writes.
- `Role.Identity`: what a role keeps for good.
- `RoleBook`: the identities of all roles, and which have been created.
- `RoleBook.Describes`: a world whose roles are as the book has them.
- `RoleBook.pact`: the pact that says so, for worlds with distinct ids.

Main results:

- Theorem `Roles.update_upholds_of`: a pact that is kept by writing edits of what was
  loaded is upheld by updates.
- Theorem `RoleBook.Describes.drawId`, `RoleBook.Describes.performRole`: what draws of
  ids and calls about roles keep.
- Theorem `Operation.action_booked`: every operation upholds the pact.
-/

namespace Tenancy

/-! ## Edits -/

namespace Role

/-- The name after a patch. -/
def patchedName (role : Role) (patch : Patch) : String :=
  (patch.name.map Text.trim).getD role.name

/-- The description after a patch; a blank one removes it. -/
def patchedDescription (role : Role) (patch : Patch) : Option String :=
  match patch.description with
  | none => role.description
  | some text => (some (Text.trim text)).filter (· ≠ "")

/-- The record that an update at a time writes in place of a role. -/
def edited (role : Role) (patch : Patch) (now : Nat) : Role :=
  { role with
    name := role.patchedName patch
    description := role.patchedDescription patch
    updatedAt := now }

/-- Patches whose new name and description pass the checks. -/
structure Patch.IsAdmitted (limits : Limits) (patch : Patch) : Prop where
  name : ∀ text, patch.name = some text → Text.IsTidyWithin limits.roleNameLength (Text.trim text)
  description : ∀ text, patch.description = some text → Text.trim text ≠ "" →
    Text.IsTidyWithin limits.roleDescriptionLength (Text.trim text)

end Role

section Updates

variable {allowed : Effect → Prop} (quiet : ∀ effect, effect.isWrite = false → allowed effect)

include quiet

/-- The name after a patch is the one asked for, if it passes the check. -/
theorem Roles.patchedName_yields (limits : Limits) (role : Role) (asked : Option String) :
    (Roles.patchedName limits role asked).Uses allowed
      (Text.IsPatched limits.roleNameLength asked role.name) := by
  unfold Roles.patchedName
  cases asked with
  | none => exact .pure .none
  | some text =>
      refine .bind (.checked _) fun name hname => ?_
      have hpatched : Text.IsPatched limits.roleNameLength (some text) role.name name :=
        .of_checkName hname
      split
      · exact .pure hpatched
      · exact .andThen (.ask (quiet _ rfl)) fun _ => .andThen (.require _ _) fun _ =>
          .pure hpatched

omit quiet in
/-- The description after a patch is the one asked for, if it passes the check. -/
theorem Roles.patchedDescription_yields (limits : Limits) (role : Role) (patch : Role.Patch) :
    (Roles.patchedDescription limits role patch.description).Uses allowed fun description =>
      description = role.patchedDescription patch ∧ ∀ text, patch.description = some text →
        Text.trim text ≠ "" → Text.IsTidyWithin limits.roleDescriptionLength (Text.trim text) := by
  unfold Roles.patchedDescription Role.patchedDescription
  cases patch.description with
  | none => exact .pure ⟨rfl, nofun⟩
  | some text =>
      refine .mono (.checked _) fun description hchecked => ?_
      obtain ⟨rfl, hwithin⟩ := Limits.checkDescription_eq_ok_iff.1 hchecked
      refine ⟨rfl, ?_⟩
      rintro _ ⟨⟩ hne
      exact hwithin _ (by simp [Option.filter, hne])

end Updates

/-- An update upholds a pact if writing edits of what was loaded keeps it. -/
theorem Roles.update_upholds_of {κ : Type} [Preorder κ] {pact : Pact κ} {known : κ}
    {fact : κ → Role → Prop} {limits : Limits} {roleId : String} {patch : Role.Patch}
    (hload : (Roles.load roleId).Upholds pact fact known)
    (hlasts : ∀ {known grown role}, known ≤ grown → fact known role → fact grown role)
    (hwrite : ∀ later role now, fact later role → patch.IsAdmitted limits →
      pact.KeepsFrom later (.store (.roles (.update (role.edited patch now))))) :
    (Roles.update limits roleId patch).Upholds pact (fun _ _ => True) known := by
  have quiet := pact.keeps_quiet
  refine .bind hload fun loaded _ role hrole => ?_
  refine .afterUses (Roles.patchedName_yields quiet limits role _) fun named hnamed name hname =>
    .afterUses (Roles.patchedDescription_yields limits role patch)
    fun described hdescribed description hdescription => ?_
  split
  · exact .pure fun _ _ => trivial
  · refine .afterUses (.now (quiet _ rfl)) fun timed htimed now _ => ?_
    have hadmitted : patch.IsAdmitted limits := ⟨hname.within, hdescription.2⟩
    have hfact : fact timed role := hlasts (hnamed.trans (hdescribed.trans htimed)) hrole
    have hkeeps := hwrite timed role now hfact hadmitted
    rw [hname.name_eq, hdescription.1]
    exact .ofUsesFrom (.andThen (.ask hkeeps) fun _ =>
      .andThen (.note fun later world _ => quiet _ rfl later world) fun _ => .pure trivial)

/-! ## Books -/

/-- What a role keeps for good, besides its id. -/
structure Role.Identity where
  organizationId : Option String
  tenantId : Option String
  isSystem : Bool
  createdAt : Nat
deriving DecidableEq

/-- What the role keeps for good. -/
def Role.identity (role : Role) : Role.Identity where
  organizationId := role.organizationId
  tenantId := role.tenantId
  isSystem := role.isSystem
  createdAt := role.createdAt

/-- An edit keeps the id. -/
@[simp]
theorem Role.edited_id (role : Role) (patch : Role.Patch) (now : Nat) :
    (role.edited patch now).id = role.id :=
  rfl

/-- An edit keeps the identity. -/
@[simp]
theorem Role.edited_identity (role : Role) (patch : Role.Patch) (now : Nat) :
    (role.edited patch now).identity = role.identity :=
  rfl

/-- The identities of roles, from the time when their ids are drawn, and the ids of the roles that
have been created. -/
structure RoleBook where
  identities : Register Role.Identity
  created : String → Prop

namespace RoleBook

/-- The book without roles. -/
def empty : RoleBook where
  identities := .empty
  created _ := False

/-- A book is below another that has all its entries. -/
instance : Preorder RoleBook where
  le a b := a.identities ≤ b.identities ∧ ∀ id, a.created id → b.created id
  le_refl a := ⟨le_refl a.identities, fun _ h => h⟩
  le_trans _ _ _ hab hbc := ⟨hab.1.trans hbc.1, fun id h => hbc.2 id (hab.2 id h)⟩

variable {book grown : RoleBook} {id : String}

/-- A role has an identity, by the book. -/
def Has (book : RoleBook) (role : Role) : Prop :=
  book.identities.entryOf role.id = some role.identity

theorem Has.later {role : Role} (hle : book ≤ grown) (hhas : book.Has role) : grown.Has role :=
  Register.entryOf_of_le hle.1 hhas

/-- The book with the identity of one more role. -/
def reserve (book : RoleBook) (id : String) (identity : Role.Identity) : RoleBook :=
  { book with identities := book.identities.enter id identity }

/-- The book with one more role among the created ones. -/
def create (book : RoleBook) (id : String) : RoleBook :=
  { book with created := fun other => other = id ∨ book.created other }

theorem le_create : book ≤ book.create id :=
  ⟨le_refl book.identities, fun _ h => .inr h⟩

/-- The roles of a world are as the book has them: each with its identity, among the created ones,
and the system roles among those are all there. -/
structure Describes (book : RoleBook) (world : World) : Prop where
  recorded : ∀ role ∈ world.tables.roles, book.Has role
  drawn : ∀ id identity, book.identities.entryOf id = some identity →
    ∃ n < world.supply.idsDrawn, world.supply.ids n = id
  created : ∀ role ∈ world.tables.roles, book.created role.id
  lasting : ∀ id, book.created id → ∃ identity, book.identities.entryOf id = some identity ∧
    (identity.isSystem = true → id ∈ world.tables.roles.map (·.id))

namespace Describes

variable {world : World} {role : Role}

/-- The empty book describes a world without records. -/
theorem empty (hnone : world.tables.HasNoRecords) : RoleBook.empty.Describes world where
  recorded := by simp [hnone.roles]
  drawn := by simp [RoleBook.empty, Register.empty]
  created := by simp [hnone.roles]
  lasting := by simp [RoleBook.empty]

/-- Where roles stay the same and ids are only drawn, the book goes on to describe the world. -/
theorem of_roles_eq {after : World} (describes : book.Describes world)
    (hroles : after.tables.roles = world.tables.roles)
    (hids : after.supply.ids = world.supply.ids)
    (hdrawn : world.supply.idsDrawn ≤ after.supply.idsDrawn) : book.Describes after where
  recorded := hroles ▸ describes.recorded
  drawn id identity hentry := by
    obtain ⟨n, hlt, hid⟩ := describes.drawn id identity hentry
    exact ⟨n, hlt.trans_le hdrawn, by rw [hids, hid]⟩
  created := hroles ▸ describes.created
  lasting := hroles ▸ describes.lasting

/-- Requests that are no writes keep what the book says. -/
theorem quiet {effect : Effect} (hread : effect.isWrite = false) (describes : book.Describes world) :
    book.Describes (World.perform effect world).2 := by
  have htables := world.perform_tables_of_not_write hread
  refine describes.of_roles_eq (by rw [htables]) ?_ ?_
  · cases effect <;> rfl
  · cases effect with
    | freshId => exact Nat.le_succ _
    | store | clock | randomBytes | note => exact le_rfl

/-- A new role is created with the identity that the book has for its id. -/
theorem performRole_create (describes : book.Describes world) (hhas : book.Has role) :
    ∃ grown, book ≤ grown ∧ grown.Describes (world.callStore (.roles (.create role))).2 := by
  simp only [World.callStore, Tables.perform, Tables.performRole]
  split
  · exact ⟨book, le_rfl, describes⟩
  · split
    · exact ⟨book, le_rfl, describes⟩
    · refine ⟨book.create role.id, le_create, ?_, describes.drawn, ?_, ?_⟩
      · intro other hother
        rcases List.mem_append.1 hother with hold | hnew
        · exact describes.recorded other hold
        · rw [List.mem_singleton.1 hnew]
          exact hhas
      · intro other hother
        rcases List.mem_append.1 hother with hold | hnew
        · exact .inr (describes.created other hold)
        · exact .inl (congrArg Role.id (List.mem_singleton.1 hnew))
      · rintro id (rfl | hold)
        · exact ⟨role.identity, hhas, fun _ => by simp⟩
        · obtain ⟨identity, hentry, hstays⟩ := describes.lasting id hold
          refine ⟨identity, hentry, fun hsystem => ?_⟩
          rw [List.map_append]
          exact List.mem_append_left _ (hstays hsystem)

/-- A role is written in place of one with its identity. -/
theorem performRole_update (describes : book.Describes world) (hhas : book.Has role) :
    book.Describes (world.callStore (.roles (.update role))).2 := by
  simp only [World.callStore, Tables.perform, Tables.performRole]
  split
  · exact describes
  · split
    · rename_i hstored
      have hid : role.id ∈ world.tables.roles.map (·.id) := by simpa using hstored
      have hkeys : (Tables.put (·.id) role world.tables.roles).map (·.id) =
          world.tables.roles.map (·.id) := Tables.map_key_put hid
      refine ⟨?_, describes.drawn, ?_, ?_⟩
      · intro other hother
        rcases Tables.mem_put hother with rfl | hold
        · exact hhas
        · exact describes.recorded other hold
      · intro other hother
        have hmem : other.id ∈ (Tables.put (·.id) role world.tables.roles).map (·.id) :=
          List.mem_map_of_mem hother
        rw [hkeys] at hmem
        obtain ⟨before, hbefore, hsame⟩ := List.mem_map.1 hmem
        rw [← hsame]
        exact describes.created before hbefore
      · intro id hcreated
        obtain ⟨identity, hentry, hstays⟩ := describes.lasting id hcreated
        refine ⟨identity, hentry, fun hsystem => ?_⟩
        change id ∈ (Tables.put (·.id) role world.tables.roles).map (·.id)
        rw [hkeys]
        exact hstays hsystem
    · exact describes

/-- A role that is no system role may be deleted. -/
theorem performRole_delete (describes : book.Describes world) (hhas : book.Has role)
    (hplain : role.isSystem = false) :
    book.Describes (world.callStore (.roles (.delete role.id))).2 where
  recorded other hother := describes.recorded other (List.mem_of_mem_filter hother)
  drawn := describes.drawn
  created other hother := describes.created other (List.mem_of_mem_filter hother)
  lasting id hcreated := by
    obtain ⟨identity, hentry, hstays⟩ := describes.lasting id hcreated
    refine ⟨identity, hentry, fun hsystem => ?_⟩
    obtain ⟨other, hother, rfl⟩ := List.mem_map.1 (hstays hsystem)
    refine List.mem_map.2 ⟨other, List.mem_filter.2 ⟨hother, ?_⟩, rfl⟩
    -- The deleted role has the identity of its id, which is not that of a system role.
    rw [bne_iff_ne]
    intro hid
    rw [hid, hhas] at hentry
    rw [← Option.some.inj hentry] at hsystem
    rw [show role.identity.isSystem = false from hplain] at hsystem
    cases hsystem

end Describes

/-! ## The pact of the book -/

/-- The pact of the book of roles, for worlds with distinct ids. -/
def pact : Pact RoleBook where
  admits world := world.supply.DistinctIds
  holds := Describes
  quiet hread describes := describes.quiet hread
  shift describes := describes.of_roles_eq rfl rfl le_rfl

/-- A fresh id may be reserved for any identity. -/
theorem freshId_upholds (identity : Role.Identity) :
    Action.freshId.Upholds pact
      (fun later id => later.identities.entryOf id = some identity) book := by
  refine .freshId fun later world _ describes admitted => ?_
  have hfree : later.identities.entryOf (world.supply.ids world.supply.idsDrawn) = none := by
    cases hentry : later.identities.entryOf (world.supply.ids world.supply.idsDrawn) with
    | none => rfl
    | some old =>
        obtain ⟨n, hlt, hid⟩ := describes.drawn _ old hentry
        have hsame : n = world.supply.idsDrawn :=
          admitted n world.supply.idsDrawn (Nat.lt_succ_of_lt hlt) (Nat.lt_succ_self _) hid
        omega
  have hle : later ≤ later.reserve (world.supply.ids world.supply.idsDrawn) identity :=
    ⟨Register.le_enter hfree, fun _ h => h⟩
  refine ⟨_, hle, ⟨?_, ?_, describes.created, ?_⟩, fun last hlast =>
    Register.entryOf_of_le hlast.1 Register.entryOf_enter_self⟩
  · exact fun role hrole => (describes.recorded role hrole).later hle
  · intro id entry hentry
    by_cases hid : id = world.supply.ids world.supply.idsDrawn
    · exact ⟨world.supply.idsDrawn, Nat.lt_succ_self _, hid.symm⟩
    · have hold : later.identities.entryOf id = some entry := by
        rw [← hentry]
        exact (Register.entryOf_enter_of_ne hid).symm
      obtain ⟨n, hlt, heq⟩ := describes.drawn id entry hold
      exact ⟨n, Nat.lt_succ_of_lt hlt, heq⟩
  · intro id hcreated
    obtain ⟨old, hold, hstays⟩ := describes.lasting id hcreated
    exact ⟨old, Register.entryOf_of_le hle.1 hold, hstays⟩

/-- Calls that are not about roles keep the pact. -/
theorem keeps_call {call : Call} (hother : ∀ roleCall, call ≠ .roles roleCall) :
    pact.Keeps (.store call) := by
  intro _ world describes
  exact Describes.of_roles_eq describes (Tables.perform_roles hother) rfl le_rfl

/-- Changing grants keeps the pact. -/
theorem keeps_changeGrants (added : List Grant) (removedIds : List String) :
    pact.Keeps (.store (.roles (.changeGrants added removedIds))) := by
  intro _ world describes
  refine Describes.of_roles_eq describes ?_ rfl le_rfl
  change (world.tables.perform (.roles (.changeGrants added removedIds))).2.roles = _
  simp only [Tables.perform, Tables.performRole]
  split <;> rfl

end RoleBook

/-! ## All operations -/

open RoleBook

variable {known : RoleBook}

/-- A role that was loaded has its identity for good. -/
theorem Roles.load_booked (roleId : String) :
    (Roles.load roleId).Upholds pact (fun later role => role.id = roleId ∧ later.Has role) known :=
  Roles.load_reads RoleBook.Has (fun _ _ describes => Describes.recorded describes)
    (fun hle hhas => Has.later hle hhas) roleId

/-- A new role is created with the identity that was reserved for its id. -/
theorem Roles.create_booked (limits : Limits) (draft : Role.Draft) :
    (Roles.create limits draft).Upholds pact (fun _ _ => True) known := by
  have quiet := pact.keeps_quiet
  refine .check fun name _ => .check fun description _ => ?_
  refine .afterUses (Roles.draftTenant_uses (Effect.plain quiet) draft) fun _ _ tenantId _ => ?_
  refine .afterUses (.ask (quiet _ rfl)) fun _ _ sameName _ => .require fun _ => ?_
  refine .afterUses (.now (quiet _ rfl)) fun _ _ now _ => ?_
  refine .bind (freshId_upholds ⟨draft.organizationId, tenantId, draft.isSystem, now⟩)
    fun drawn _ id hid => ?_
  have hcreate : ∀ role : Role, drawn.Has role →
      (Action.ask (.roles (.create role))).Upholds pact (fun _ _ => True) drawn := by
    intro role hhas
    refine @Action.Upholds.ask _ _ pact drawn (.roles (.create role)) _
      fun later world hle describes _ => ?_
    obtain ⟨grown, hgrown, hafter⟩ := Describes.performRole_create describes (hhas.later hle)
    exact ⟨grown, hgrown, hafter, fun _ _ _ _ => trivial⟩
  exact .bind (hcreate _ hid) fun _ _ _ _ =>
    .afterUses (.note (quiet _ rfl)) fun _ _ _ _ => .pure fun _ _ => trivial

/-- An updated role keeps its identity. -/
theorem Roles.update_booked (limits : Limits) (roleId : String) (patch : Role.Patch) :
    (Roles.update limits roleId patch).Upholds pact (fun _ _ => True) known := by
  have hload : (Roles.load roleId).Upholds pact (fun later role => later.Has role) known :=
    .mono (Roles.load_booked roleId) fun _ _ hloaded => hloaded.2
  refine Roles.update_upholds_of hload (fun hle hhas => hhas.later hle) ?_
  intro later role now hhas _ grown world hle describes
  have hkept : grown.Has (role.edited patch now) := by
    unfold RoleBook.Has
    rw [Role.edited_id, Role.edited_identity]
    exact hhas.later hle
  exact Describes.performRole_update describes hkept

/-- A role is deleted only if it was no system role when it was read, which it still is not. -/
theorem Roles.delete_booked (roleId : String) :
    (Roles.delete roleId).Upholds pact (fun _ _ => True) known := by
  have quiet := pact.keeps_quiet
  refine .bind (Roles.load_booked roleId) fun loaded _ role hrole => .require fun hplain => ?_
  obtain ⟨rfl, hhas⟩ := hrole
  have hkeeps : pact.KeepsFrom loaded (.store (.roles (.delete role.id))) := by
    intro later world hle describes
    exact Describes.performRole_delete describes (hhas.later hle) (by simpa using hplain)
  exact .ofUsesFrom (.andThen (.ask hkeeps) fun _ => .andThen (.require _ _) fun _ =>
    .note fun later world _ => quiet _ rfl later world)

/-- Every operation upholds the pact of the book. -/
theorem Operation.action_booked (deployment : Deployment) (operation : Operation) :
    (operation.action deployment).Upholds pact (fun _ _ => True) known := by
  cases operation with
  | createRole draft => exact Roles.create_booked _ draft
  | updateRole roleId patch => exact Roles.update_booked _ roleId patch
  | deleteRole roleId => exact Roles.delete_booked roleId
  | setRolePermissions roleId scope names =>
      refine Operation.upholds_of_writes _ _ fun call hmay => ?_
      cases hmay
      exact keeps_changeGrants _ _
  | _ =>
      refine Operation.upholds_of_writes _ _ fun call hmay => ?_
      cases hmay <;> exact keeps_call (by rintro _ ⟨⟩)

/-- In every reachable world there is a book of the roles. -/
theorem Regime.Reaches.booked {regime : Regime} {world : World} {config : Configuration}
    (starts : regime.Starts world) (reaches : regime.Reaches world config)
    (distinct : ∀ world, regime.admits world → world.supply.DistinctIds) :
    ∃ book, pact.IsKept book config :=
  reaches.upholds distinct (Describes.empty starts.noRecords) fun deployment operation _ _ =>
    operation.action_booked deployment

/-- However a run goes on, its book only grows. -/
theorem Regime.Continues.booked {regime : Regime} {before after : Configuration}
    (continues : regime.Continues before after)
    (distinct : ∀ world, regime.admits world → world.supply.DistinctIds)
    (kept : pact.IsKept known before) : ∃ grown, known ≤ grown ∧ pact.IsKept grown after :=
  continues.keeps distinct (fun deployment operation _ _ => operation.action_booked deployment) kept

end Tenancy
