import Tenancy.Proofs.Runs

/-!
# Tenancy - What operations may write

Whatever a store replies, an operation asks it for few kinds of writes.  This
file says which, once for all operations, so that an invariant is kept by every
interleaving as soon as it is kept by each of these writes.

Main definitions:

- `Effect.isWrite`: requests that may change a record.
- `Program.Uses`, `Action.Uses`: programs all of whose requests are allowed,
  under any replies.
- `Operation.MayWrite`, `Operation.Consults`: the writes of each operation, and its
  questions about invitations.

Main results:

- Theorem `Operation.action_asks`: operations write and ask nothing else.
- Theorem `Regime.Reaches.invariant_of_writes`: what no write breaks holds in
  every reachable world.
-/

namespace Tenancy

/-! ## Writes -/

/-- Whether a call may change a record. -/
def Call.isWrite : Call → Bool
  | .organizations (.create _) | .organizations (.update _) => true
  | .memberships (.insert _ _) | .memberships (.applyChange _) | .memberships (.delete _ _) => true
  | .roles (.create _) | .roles (.update _) | .roles (.delete _) => true
  | .roles (.changeGrants _ _) => true
  | .invitations (.create _) | .invitations (.delete _) | .invitations (.deleteExpired _) => true
  | _ => false

/-- Whether a request may change a record. -/
def Effect.isWrite : Effect → Bool
  | .store call => call.isWrite
  | _ => false

/-- Whether an event is about a membership. -/
def AuditEvent.isMembership : AuditEvent → Bool
  | .memberAdded | .memberUpdated | .memberRemoved => true
  | _ => false

/-- Whether a request is no write, asks nothing about invitations and notes nothing about
memberships. -/
def Effect.isPlain : Effect → Bool
  | .store (.invitations _) => false
  | .note noted => !noted.event.isMembership
  | effect => !effect.isWrite

/-- Plain requests are no writes. -/
theorem Effect.plain_reads (effect : Effect) (hplain : effect.isPlain = true) :
    effect.isWrite = false := by
  unfold isPlain at hplain
  split at hplain
  · cases hplain
  · rfl
  · simpa using hplain

/-- What is allowed of every request that is no write is allowed of the plain ones. -/
theorem Effect.plain {allowed : Effect → Prop}
    (quiet : ∀ effect, effect.isWrite = false → allowed effect) (effect : Effect)
    (hplain : effect.isPlain = true) : allowed effect :=
  quiet effect (effect.plain_reads hplain)

/-- A call that is no write leaves the tables as they are. -/
theorem Tables.perform_of_not_write (tables : Tables) {call : Call}
    (hread : call.isWrite = false) : (tables.perform call).2 = tables := by
  match call with
  | .organizations call => cases call <;> first | rfl | simp [Call.isWrite] at hread
  | .memberships call => cases call <;> first | rfl | simp [Call.isWrite] at hread
  | .roles call => cases call <;> first | rfl | simp [Call.isWrite] at hread
  | .invitations call => cases call <;> first | rfl | simp [Call.isWrite] at hread
  | .directory (.searchUserIds _) => rfl
  | .catalog call =>
    simp only [Tables.perform, Tables.performCatalog]
    split
    · cases call <;> rfl
    · rfl

/-! ## What calls leave alone -/

namespace Tables

/-- Calls about organizations change only these. -/
theorem performOrganization_frame (tables : Tables) (call : OrganizationCall) :
    ∃ organizations, (tables.perform (.organizations call)).2 =
      { tables with organizations := organizations } := by
  cases call with
  | create | update =>
      simp only [perform, performOrganization]
      split <;> try split
      all_goals exact ⟨_, rfl⟩
  | findById | findBySlug | findByDisplayName | list => exact ⟨_, rfl⟩

/-- Calls about memberships change only these. -/
theorem performMembership_frame (tables : Tables) (call : MembershipCall) :
    ∃ memberships writes, (tables.perform (.memberships call)).2 =
      { tables with memberships := memberships, membershipWrites := writes } := by
  cases call with
  | insert | applyChange | delete =>
      simp only [perform, performMembership]
      split <;> exact ⟨_, _, rfl⟩
  | find | listForUser | query => exact ⟨_, _, rfl⟩

/-- Calls about roles change only these and the grants. -/
theorem performRole_frame (tables : Tables) (call : RoleCall) :
    ∃ roles grants writes, (tables.perform (.roles call)).2 =
      { tables with roles := roles, grants := grants, grantWrites := writes } := by
  cases call with
  | create | update =>
      simp only [perform, performRole]
      split <;> try split
      all_goals exact ⟨_, _, _, rfl⟩
  | changeGrants =>
      simp only [perform, performRole]
      split <;> exact ⟨_, _, _, rfl⟩
  | delete | find | findMany | findByName | list | listAssignable | grantsOf =>
      exact ⟨_, _, _, rfl⟩

/-- Calls about invitations change only these. -/
theorem performInvitation_frame (tables : Tables) (call : InvitationCall) :
    ∃ invitations, (tables.perform (.invitations call)).2 =
      { tables with invitations := invitations } := by
  cases call with
  | create =>
      simp only [perform, performInvitation]
      split <;> exact ⟨_, rfl⟩
  | delete | deleteExpired | findByCode | findForEmail | listForOrganization => exact ⟨_, rfl⟩

/-- Only calls about organizations change them. -/
theorem perform_organizations {tables : Tables} {call : Call}
    (hother : ∀ organizationCall, call ≠ .organizations organizationCall) :
    (tables.perform call).2.organizations = tables.organizations := by
  cases call with
  | organizations call => exact absurd rfl (hother call)
  | memberships call =>
      obtain ⟨_, _, hframe⟩ := tables.performMembership_frame call
      rw [hframe]
  | roles call =>
      obtain ⟨_, _, _, hframe⟩ := tables.performRole_frame call
      rw [hframe]
  | invitations call =>
      obtain ⟨_, hframe⟩ := tables.performInvitation_frame call
      rw [hframe]
  | directory call | catalog call => rw [tables.perform_of_not_write rfl]

/-- Only calls about memberships change them. -/
theorem perform_memberships {tables : Tables} {call : Call}
    (hother : ∀ membershipCall, call ≠ .memberships membershipCall) :
    (tables.perform call).2.memberships = tables.memberships := by
  cases call with
  | organizations call =>
      obtain ⟨_, hframe⟩ := tables.performOrganization_frame call
      rw [hframe]
  | memberships call => exact absurd rfl (hother call)
  | roles call =>
      obtain ⟨_, _, _, hframe⟩ := tables.performRole_frame call
      rw [hframe]
  | invitations call =>
      obtain ⟨_, hframe⟩ := tables.performInvitation_frame call
      rw [hframe]
  | directory call | catalog call => rw [tables.perform_of_not_write rfl]

/-- Only calls about roles change them. -/
theorem perform_roles {tables : Tables} {call : Call}
    (hother : ∀ roleCall, call ≠ .roles roleCall) :
    (tables.perform call).2.roles = tables.roles := by
  cases call with
  | organizations call =>
      obtain ⟨_, hframe⟩ := tables.performOrganization_frame call
      rw [hframe]
  | memberships call =>
      obtain ⟨_, _, hframe⟩ := tables.performMembership_frame call
      rw [hframe]
  | roles call => exact absurd rfl (hother call)
  | invitations call =>
      obtain ⟨_, hframe⟩ := tables.performInvitation_frame call
      rw [hframe]
  | directory call | catalog call => rw [tables.perform_of_not_write rfl]

/-- Only calls about invitations change them. -/
theorem perform_invitations {tables : Tables} {call : Call}
    (hother : ∀ invitationCall, call ≠ .invitations invitationCall) :
    (tables.perform call).2.invitations = tables.invitations := by
  cases call with
  | organizations call =>
      obtain ⟨_, hframe⟩ := tables.performOrganization_frame call
      rw [hframe]
  | memberships call =>
      obtain ⟨_, _, hframe⟩ := tables.performMembership_frame call
      rw [hframe]
  | roles call =>
      obtain ⟨_, _, _, hframe⟩ := tables.performRole_frame call
      rw [hframe]
  | invitations call => exact absurd rfl (hother call)
  | directory call | catalog call => rw [tables.perform_of_not_write rfl]

end Tables

/-- A request that is no write leaves the tables as they are. -/
theorem World.perform_tables_of_not_write (world : World) {effect : Effect}
    (hread : effect.isWrite = false) : (World.perform effect world).2.tables = world.tables := by
  cases effect with
  | store call => exact world.tables.perform_of_not_write hread
  | clock | freshId | randomBytes | note => rfl

/-- What succeeds in an action has succeeded in the store. -/
theorem eq_ok_of_mapError {α : Type} {reply : Except StoreError α} {answer : α}
    (hanswer : reply.mapError Error.storage = .ok answer) : reply = .ok answer := by
  cases reply with
  | error error => cases hanswer
  | ok value => exact congrArg Except.ok (Except.ok.inj hanswer)

/-! ## Programs that make only allowed requests -/

/-- Every request of a program is allowed and every value it ends with is as wanted, under any
replies. -/
def Program.Uses {α : Type} (allowed : Effect → Prop) (wanted : α → Prop) :
    Program Effect Effect.Reply α → Prop
  | .done value => wanted value
  | .ask effect next => allowed effect ∧ ∀ reply, (next reply).Uses allowed wanted

/-- Every request of an action is allowed and every value it ends with is as wanted, under any
replies. -/
structure Action.Uses {α : Type} (allowed : Effect → Prop) (wanted : α → Prop)
    (action : Action α) : Prop where
  run : action.run.Uses allowed fun result => ∀ value, result = .ok value → wanted value

/-- Two programs in sequence make the requests of both. -/
theorem Program.Uses.bind {α β : Type} {allowed : Effect → Prop} {middle : α → Prop}
    {wanted : β → Prop} {program : Program Effect Effect.Reply α}
    {next : α → Program Effect Effect.Reply β} (huses : program.Uses allowed middle)
    (hnext : ∀ value, middle value → (next value).Uses allowed wanted) :
    (program.bind next).Uses allowed wanted := by
  induction program with
  | done value => exact hnext value huses
  | ask effect rest ih => exact ⟨huses.1, fun reply => ih reply (huses.2 reply)⟩

/-- Less may be wanted of the values a program ends with. -/
theorem Program.Uses.mono {α : Type} {allowed : Effect → Prop} {wanted looser : α → Prop}
    {program : Program Effect Effect.Reply α} (huses : program.Uses allowed wanted)
    (hlooser : ∀ value, wanted value → looser value) : program.Uses allowed looser := by
  induction program with
  | done value => exact hlooser value huses
  | ask effect rest ih => exact ⟨huses.1, fun reply => ih reply (huses.2 reply)⟩

/-- More requests may be allowed. -/
theorem Program.Uses.weaken {α : Type} {allowed looser : Effect → Prop} {wanted : α → Prop}
    {program : Program Effect Effect.Reply α} (huses : program.Uses allowed wanted)
    (hlooser : ∀ effect, allowed effect → looser effect) : program.Uses looser wanted := by
  induction program with
  | done value => exact huses
  | ask effect rest ih => exact ⟨hlooser effect huses.1, fun reply => ih reply (huses.2 reply)⟩

namespace Action.Uses

variable {α β : Type} {allowed : Effect → Prop} {wanted : α → Prop}

theorem pure {value : α} (hwanted : wanted value) :
    (Pure.pure value : Action α).Uses allowed wanted where
  run := by
    rintro _ ⟨⟩
    exact hwanted

theorem throw (error : Error) : (MonadExcept.throw error : Action α).Uses allowed wanted where
  run := by rintro _ ⟨⟩

theorem bind {middle : β → Prop} {action : Action β} {next : β → Action α}
    (huses : action.Uses allowed middle)
    (hnext : ∀ value, middle value → (next value).Uses allowed wanted) :
    (action >>= next).Uses allowed wanted where
  run := by
    refine Program.Uses.bind huses.run fun result hresult => ?_
    cases result with
    | ok value => exact (hnext value (hresult value rfl)).run
    | error error => exact (throw error).run

/-- More requests may be allowed. -/
theorem weaken {looser : Effect → Prop} {action : Action α} (huses : action.Uses allowed wanted)
    (hlooser : ∀ effect, allowed effect → looser effect) : action.Uses looser wanted where
  run := huses.run.weaken hlooser

/-- Less may be wanted of the values an action ends with. -/
theorem mono {looser : α → Prop} {action : Action α} (huses : action.Uses allowed wanted)
    (hlooser : ∀ value, wanted value → looser value) : action.Uses allowed looser where
  run := huses.run.mono fun _ hresult value hvalue => hlooser value (hresult value hvalue)

/-- What an action ends with does not matter to what follows. -/
theorem andThen {action : Action β} {next : β → Action α}
    (huses : action.Uses allowed fun _ => True)
    (hnext : ∀ value, (next value).Uses allowed wanted) :
    (action >>= next).Uses allowed wanted :=
  huses.bind fun value _ => hnext value

theorem perform {effect : Effect} (hallowed : allowed effect) :
    (Action.perform effect).Uses allowed fun _ => True where
  run := ⟨hallowed, fun _ _ _ => trivial⟩

theorem now (hallowed : allowed .clock) : Action.now.Uses allowed fun _ => True :=
  perform hallowed

theorem freshId (hallowed : allowed .freshId) : Action.freshId.Uses allowed fun _ => True :=
  perform hallowed

theorem randomBytes (hallowed : allowed .randomBytes) :
    Action.randomBytes.Uses allowed fun _ => True :=
  perform hallowed

theorem note {note : AuditNote} (hallowed : allowed (.note note)) :
    (Action.note note).Uses allowed fun _ => True :=
  perform hallowed

theorem attempt {call : Call} (hallowed : allowed (.store call)) :
    (Action.attempt call).Uses allowed fun _ => True :=
  perform hallowed

theorem ask {call : Call} (hallowed : allowed (.store call)) :
    (Action.ask call).Uses allowed fun _ => True where
  run := ⟨hallowed, fun _ _ _ => trivial⟩

theorem require (condition : Bool) (error : Error) :
    (Action.require condition error).Uses allowed fun _ => True := by
  unfold Action.require
  split
  · exact pure trivial
  · exact throw error

theorem demand (error : Error) (value : Option α) :
    (Action.demand error value).Uses allowed fun _ => True := by
  cases value with
  | none => exact throw error
  | some value => exact pure trivial

theorem check (result : Except Error α) :
    (Action.check result).Uses allowed fun _ => True := by
  cases result with
  | error error => exact throw error
  | ok value => exact pure trivial

/-- A check that succeeds ends with its result. -/
theorem checked (result : Except Error α) :
    (Action.check result).Uses allowed fun value => result = .ok value := by
  cases result with
  | error error => exact throw error
  | ok value => exact pure rfl

end Action.Uses

/-! ## The writes of each operation -/

/-- The writes that each operation may ask for. -/
inductive Operation.MayWrite : Operation → Call → Prop
  | createOrganization (draft : Organization.Draft) (org : Organization)
      (tenantId : org.tenantId = draft.tenantId) (status : org.status = .active) :
      MayWrite (.createOrganization draft) (.organizations (.create org))
  | updateOrganization (id : String) (patch : Organization.Patch) (org : Organization) :
      MayWrite (.updateOrganization id patch) (.organizations (.update org))
  | archiveOrganization (id : String) (org : Organization) (status : org.status = .archived) :
      MayWrite (.archiveOrganization id) (.organizations (.update org))
  | addMember (draft : Membership.Draft) (member : Membership)
      (userId : member.userId = draft.userId) (isPrimary : member.isPrimary = draft.isPrimary) :
      MayWrite (.addMember draft) (.memberships (.insert member member.isPrimary))
  | updateMember (organizationId userId : String) (patch : Membership.Patch)
      (change : Membership.Change) (key : change.organizationId = organizationId)
      (user : change.userId = userId)
      (clears : change.clearsOthers = decide (change.isPrimary = some true)) :
      MayWrite (.updateMember organizationId userId patch) (.memberships (.applyChange change))
  | removeMember (organizationId userId : String) :
      MayWrite (.removeMember organizationId userId) (.memberships (.delete organizationId userId))
  | createRole (draft : Role.Draft) (role : Role)
      (organizationId : role.organizationId = draft.organizationId)
      (isSystem : role.isSystem = draft.isSystem) :
      MayWrite (.createRole draft) (.roles (.create role))
  | updateRole (roleId : String) (patch : Role.Patch) (role : Role) :
      MayWrite (.updateRole roleId patch) (.roles (.update role))
  | deleteRole (roleId : String) : MayWrite (.deleteRole roleId) (.roles (.delete roleId))
  | setRolePermissions (roleId : String) (scope : Option String) (names : List String)
      (added : List Grant) (removedIds : List String)
      (atScope : ∀ grant ∈ added, grant.organizationId = scope) :
      MayWrite (.setRolePermissions roleId scope names) (.roles (.changeGrants added removedIds))
  | replaceInvitation (draft : Invitation.Draft) (code : String) :
      MayWrite (.createInvitation draft) (.invitations (.delete code))
  | createInvitation (draft : Invitation.Draft) (invitation : Invitation)
      (createdBy : invitation.createdBy = draft.createdBy) :
      MayWrite (.createInvitation draft) (.invitations (.create invitation))
  | joinByInvitation (code : String) (user : User) (member : Membership)
      (userId : member.userId = user.id) (isPrimary : member.isPrimary = false) :
      MayWrite (.acceptInvitation code user) (.memberships (.insert member false))
  | mergeInvitation (code : String) (user : User) (change : Membership.Change)
      (isPrimary : change.isPrimary = none) (clears : change.clearsOthers = false) :
      MayWrite (.acceptInvitation code user) (.memberships (.applyChange change))
  | acceptInvitation (code : String) (user : User) :
      MayWrite (.acceptInvitation code user) (.invitations (.delete code))
  | revokeInvitation (organizationId code deleted : String) :
      MayWrite (.revokeInvitation organizationId code) (.invitations (.delete deleted))
  | purgeInvitations (now : Nat) : MayWrite .purgeInvitations (.invitations (.deleteExpired now))

/-- The questions about invitations that each operation may ask. -/
inductive Operation.Consults : Operation → InvitationCall → Prop
  | createInvitation (draft : Invitation.Draft) (organizationId email : String) :
      Consults (.createInvitation draft) (.findForEmail organizationId email)
  | acceptInvitation (code : String) (user : User) :
      Consults (.acceptInvitation code user) (.findByCode code)
  | revokeInvitation (organizationId code : String) :
      Consults (.revokeInvitation organizationId code) (.findByCode code)
  | findInvitation (code : String) : Consults (.findInvitation code) (.findByCode code)
  | listInvitations (organizationId : String) :
      Consults (.listInvitations organizationId) (.listForOrganization organizationId)

/-- The events about memberships that each operation may note. -/
inductive Operation.MayNote : Operation → AuditEvent → Prop
  | addMember (draft : Membership.Draft) : MayNote (.addMember draft) .memberAdded
  | updateMember (organizationId userId : String) (patch : Membership.Patch) :
      MayNote (.updateMember organizationId userId patch) .memberUpdated
  | removeMember (organizationId userId : String) :
      MayNote (.removeMember organizationId userId) .memberRemoved
  | joinByInvitation (code : String) (user : User) :
      MayNote (.acceptInvitation code user) .memberAdded
  | mergeInvitation (code : String) (user : User) :
      MayNote (.acceptInvitation code user) .memberUpdated

/-- The requests that each operation may make: its writes, and everything that is no write. -/
def Operation.MayAsk (operation : Operation) : Effect → Prop
  | .store call => call.isWrite = true → operation.MayWrite call
  | _ => True

/-- Every operation may make the requests that are no writes. -/
theorem Operation.mayAsk_of_not_write (operation : Operation) (effect : Effect)
    (hread : effect.isWrite = false) : operation.MayAsk effect := by
  cases effect with
  | store call => exact fun hwrite => absurd hwrite (by simp [show call.isWrite = false from hread])
  | clock | freshId | randomBytes | note => trivial

/-! ## Footprints of the parts -/

section Parts

variable {allowed : Effect → Prop} (quiet : ∀ effect, effect.isPlain = true → allowed effect)

include quiet

/-- Reading an organization. -/
theorem Action.loadOrganization_uses (id : String) :
    (Action.loadOrganization id).Uses allowed fun _ => True :=
  .andThen (.ask (quiet _ rfl)) fun _ => .demand _ _

/-- Checking requested roles. -/
theorem Roles.assignable_uses (org : Organization) (requested : List String) :
    (Roles.assignable org requested).Uses allowed fun _ => True := by
  unfold Roles.assignable
  dsimp only
  split
  · exact .pure trivial
  · exact .andThen (.ask (quiet _ rfl)) fun _ => .andThen (.check _) fun _ => .pure trivial

/-- Looking up which listed roles are left. -/
theorem Roles.stillAssignable_uses (org : Organization) (listed : List String) :
    (Roles.stillAssignable org listed).Uses allowed fun _ => True := by
  unfold Roles.stillAssignable
  dsimp only
  split
  · exact .pure trivial
  · exact .andThen (.ask (quiet _ rfl)) fun _ => .pure trivial

/-- Reading a role. -/
theorem Roles.load_uses (roleId : String) : (Roles.load roleId).Uses allowed fun _ => True :=
  .andThen (.ask (quiet _ rfl)) fun _ => .demand _ _

/-- Reading a user's permissions in an organization. -/
theorem Resolution.inOrganization_uses (organizationId userId : String) :
    (Resolution.inOrganization organizationId userId).Uses allowed fun _ => True := by
  refine .andThen (.ask (quiet _ rfl)) fun found => ?_
  cases found with
  | none => exact .pure trivial
  | some member =>
      unfold Resolution.ofMember
      dsimp only
      split
      · exact .pure trivial
      · refine .andThen (.ask (quiet _ rfl)) fun roles => ?_
        split
        · exact .pure trivial
        · refine .andThen (.ask (quiet _ rfl)) fun grants => ?_
          split
          · exact .pure trivial
          · refine .andThen (.attempt (quiet _ rfl)) fun names => ?_
            cases names <;> exact .pure trivial

/-- Reading all permissions of a user. -/
theorem Resolution.permissions_uses (userId : String) (tenantId organizationId : Option String) :
    (Resolution.permissions userId tenantId organizationId).Uses allowed fun _ => True := by
  refine .andThen (.andThen (.attempt (quiet _ rfl)) fun names => ?_) fun everywhere => ?_
  · cases names <;> exact .pure trivial
  · refine .andThen ?_ fun there => .pure trivial
    unfold Resolution.ofNamed
    split
    · exact .pure trivial
    · exact inOrganization_uses quiet _ _

/-- Reading what a role grants. -/
theorem Roles.permissions_uses (roleId : String) (scope : Option String) :
    (Roles.permissions roleId scope).Uses allowed fun _ => True := by
  refine .andThen (load_uses quiet roleId) fun role => .andThen ?_ fun tenantId =>
    .andThen (.ask (quiet _ rfl)) fun grants => ?_
  · cases scope with
    | none => exact .pure trivial
    | some id => exact .andThen (Action.loadOrganization_uses quiet id) fun org => .pure trivial
  · dsimp only
    split
    · exact .pure trivial
    · exact .andThen (.ask (quiet _ rfl)) fun names => .pure trivial

/-- Checking a new display name. -/
theorem Organizations.patchedName_uses (limits : Limits) (org : Organization)
    (text : Option String) :
    (Organizations.patchedName limits org text).Uses allowed fun _ => True := by
  unfold Organizations.patchedName
  split
  · exact .pure trivial
  · refine .andThen (.check _) fun name => ?_
    split
    · exact .pure trivial
    · exact .andThen (.ask (quiet _ rfl)) fun _ => .andThen (.require _ _) fun _ => .pure trivial

/-- Reading the tenant of a new role. -/
theorem Roles.draftTenant_uses (draft : Role.Draft) :
    (Roles.draftTenant draft).Uses allowed fun _ => True := by
  unfold Roles.draftTenant
  split
  · exact .pure trivial
  · exact .andThen (Action.loadOrganization_uses quiet _) fun org => .check _

/-- Reading the tenant of grants at a scope. -/
theorem Roles.scopeTenant_uses (role : Role) (roleId : String) (scope : Option String) :
    (Roles.scopeTenant role roleId scope).Uses allowed fun _ => True := by
  unfold Roles.scopeTenant
  split
  · exact .andThen (Action.loadOrganization_uses quiet _) fun org => .andThen (.require _ _)
      fun _ => .pure trivial
  · exact .andThen (.require _ _) fun _ => .pure trivial

/-- Looking up the ids of named permissions. -/
theorem Roles.wantedIds_uses (names : List String) :
    (Roles.wantedIds names).Uses allowed fun _ => True := by
  unfold Roles.wantedIds
  split
  · exact .pure trivial
  · exact .andThen (.ask (quiet _ rfl)) fun known => .andThen (.check _) fun ids => .pure trivial

/-- Checking a new name of a role. -/
theorem Roles.patchedName_uses (limits : Limits) (role : Role) (text : Option String) :
    (Roles.patchedName limits role text).Uses allowed fun _ => True := by
  unfold Roles.patchedName
  split
  · exact .pure trivial
  · refine .andThen (.check _) fun name => ?_
    split
    · exact .pure trivial
    · exact .andThen (.ask (quiet _ rfl)) fun _ => .andThen (.require _ _) fun _ => .pure trivial

omit quiet in
/-- Checking new metadata. -/
theorem Organizations.patchedMetadata_uses (limits : Limits) (org : Organization)
    (metadata : Option Metadata) :
    (Organizations.patchedMetadata limits org metadata).Uses allowed fun _ => True := by
  unfold Organizations.patchedMetadata
  split
  · exact .pure trivial
  · exact .andThen (.check _) fun _ => .pure trivial

omit quiet in
/-- Checking a new description of a role. -/
theorem Roles.patchedDescription_uses (limits : Limits) (role : Role) (text : Option String) :
    (Roles.patchedDescription limits role text).Uses allowed fun _ => True := by
  unfold Roles.patchedDescription
  split
  · exact .pure trivial
  · exact .check _

/-- Reading a page of members. -/
theorem Members.page_uses (limits : Limits) (query : MemberQuery) :
    (Members.page limits query).Uses allowed fun _ => True := by
  refine .andThen ?_ fun userIds => ?_
  · unfold Members.searchUsers
    split
    · exact .pure trivial
    · exact .andThen (.ask (quiet _ rfl)) fun ids => .pure trivial
  · split
    · exact .pure trivial
    · refine .andThen (.ask (quiet _ rfl)) fun found => ?_
      obtain ⟨items, total⟩ := found
      dsimp only
      split <;> exact .pure trivial

end Parts

/-! ## Footprints of the operations -/

section Operations

variable {allowed : Effect → Prop} (quiet : ∀ effect, effect.isPlain = true → allowed effect)

include quiet

theorem Organizations.create_uses (limits : Limits) (draft : Organization.Draft)
    (write : ∀ org : Organization, org.tenantId = draft.tenantId → org.status = .active →
      allowed (.store (.organizations (.create org)))) :
    (Organizations.create limits draft).Uses allowed fun _ => True := by
  refine .andThen (.check _) fun slug => .andThen (.check _) fun displayName =>
    .andThen (.check _) fun _ => ?_
  refine .andThen (.ask (quiet _ rfl)) fun sameSlug => .andThen (.require _ _) fun _ => ?_
  refine .andThen (.ask (quiet _ rfl)) fun sameName => .andThen (.require _ _) fun _ => ?_
  refine .andThen (.now (quiet _ rfl)) fun now => .andThen (.freshId (quiet _ rfl)) fun id => ?_
  refine .andThen (.ask (write _ rfl rfl)) fun _ => .andThen (.note (quiet _ rfl)) fun _ => ?_
  exact .pure trivial

omit quiet in
/-- A note that an organization was updated or archived is plain. -/
theorem Organizations.updateEvent_isPlain (before after : Organization) (id details : String) :
    (Effect.note ((AuditNote.within (updateEvent before after) id).saying details)).isPlain =
      true := by
  simp only [Effect.isPlain, AuditNote.saying, AuditNote.within, updateEvent]
  split <;> rfl

theorem Organizations.update_uses (limits : Limits) (id : String) (patch : Organization.Patch)
    (write : ∀ org : Organization, (∀ status, patch.status = some status → org.status = status) →
      allowed (.store (.organizations (.update org)))) :
    (Organizations.update limits id patch).Uses allowed fun _ => True := by
  refine .andThen (Action.loadOrganization_uses quiet id) fun org =>
    .andThen (patchedName_uses quiet limits org _) fun displayName =>
    .andThen (patchedMetadata_uses limits org _) fun metadata =>
    .andThen (.now (quiet _ rfl)) fun now => ?_
  dsimp only
  split
  · exact .pure trivial
  · refine .andThen (.ask (write _ fun status hstatus => ?_)) fun _ =>
      .andThen (.note (quiet _ (updateEvent_isPlain _ _ _ _))) fun _ => .pure trivial
    simp [Organization.amend, hstatus]

theorem Members.add_uses (draft : Membership.Draft)
    (write : ∀ member : Membership, member.userId = draft.userId →
      member.isPrimary = draft.isPrimary →
      allowed (.store (.memberships (.insert member member.isPrimary))))
    (noted : ∀ note : AuditNote, note.event = .memberAdded → allowed (.note note)) :
    (Members.add draft).Uses allowed fun _ => True :=
  .andThen (.check _) fun _ => .andThen (Action.loadOrganization_uses quiet _) fun org =>
  .andThen (.check _) fun _ => .andThen (.ask (quiet _ rfl)) fun _ =>
  .andThen (.require _ _) fun _ => .andThen (Roles.assignable_uses quiet org _) fun _ =>
  .andThen (.now (quiet _ rfl)) fun _ => .andThen (.ask (write _ rfl rfl)) fun _ =>
  .andThen (.note (noted _ rfl)) fun _ => .pure trivial

/-- Deltas to the flag of a membership: becoming primary clears the others; nothing else does. -/
def Membership.Change.IsFair (change : Membership.Change) (organizationId userId : String) : Prop :=
  change.organizationId = organizationId ∧ change.userId = userId ∧
    change.clearsOthers = decide (change.isPrimary = some true)

omit quiet in
/-- The delta to the flag of a membership is fair. -/
theorem Members.withFlag_isFair (member : Membership) (organizationId userId : String) (now : Nat)
    (flag : Option Bool) :
    (Members.withFlag { Members.noChange member now with
        organizationId := organizationId, userId := userId } member flag).IsFair
      organizationId userId := by
  unfold Members.withFlag
  split
  · split
    · exact ⟨rfl, rfl, rfl⟩
    · exact ⟨rfl, rfl, by simp⟩
  · exact ⟨rfl, rfl, rfl⟩

omit quiet in
/-- The delta to the flag of a membership assigns no role. -/
theorem Members.withFlag_added (change : Membership.Change) (member : Membership)
    (flag : Option Bool) : (Members.withFlag change member flag).added = change.added := by
  unfold Members.withFlag
  split
  · split <;> rfl
  · rfl

/-- Adding the roles of a patch to a delta changes nothing else of it. -/
theorem Members.withRoles_uses (change : Membership.Change) (member : Membership)
    (organizationId : String) (now : Nat) (requested : Option (List String)) :
    (Members.withRoles change member organizationId now requested).Uses allowed fun changed =>
      ∃ added removedRoleIds,
        changed = { change with added := added, removedRoleIds := removedRoleIds } := by
  unfold Members.withRoles
  split
  · exact .pure ⟨_, _, rfl⟩
  · exact .andThen (Action.loadOrganization_uses quiet _) fun org =>
      .andThen (Roles.assignable_uses quiet org _) fun _ => .pure ⟨_, _, rfl⟩

theorem Members.update_uses (organizationId userId : String) (patch : Membership.Patch)
    (write : ∀ change : Membership.Change, change.IsFair organizationId userId →
      allowed (.store (.memberships (.applyChange change))))
    (noted : ∀ note : AuditNote, note.event = .memberUpdated → allowed (.note note)) :
    (Members.update organizationId userId patch).Uses allowed fun _ => True := by
  refine .andThen (.ask (quiet _ rfl)) fun found => .andThen (.demand _ _) fun member =>
    .andThen (.now (quiet _ rfl)) fun now => ?_
  have hfair := Members.withFlag_isFair member organizationId userId now patch.isPrimary
  dsimp only
  generalize Members.withFlag _ member patch.isPrimary = flagged at hfair ⊢
  refine .bind (Members.withRoles_uses quiet _ _ _ _ _) fun change hchange => ?_
  obtain ⟨added, removedRoleIds, rfl⟩ := hchange
  split
  · exact .pure trivial
  · exact .andThen (.ask (write _ hfair)) fun _ => .andThen (.note (noted _ rfl))
      fun _ => .pure trivial

omit quiet in
theorem Members.remove_uses (organizationId userId : String)
    (write : allowed (.store (.memberships (.delete organizationId userId))))
    (noted : ∀ note : AuditNote, note.event = .memberRemoved → allowed (.note note)) :
    (Members.remove organizationId userId).Uses allowed fun _ => True := by
  refine .andThen (.ask write) fun deleted => ?_
  split
  · exact .note (noted _ rfl)
  · exact .pure trivial

theorem Roles.create_uses (limits : Limits) (draft : Role.Draft)
    (write : ∀ role : Role, role.organizationId = draft.organizationId →
      role.isSystem = draft.isSystem → allowed (.store (.roles (.create role)))) :
    (Roles.create limits draft).Uses allowed fun _ => True := by
  refine .andThen (.check _) fun name => .andThen (.check _) fun description =>
    .andThen (draftTenant_uses quiet draft) fun tenantId => ?_
  refine .andThen (.ask (quiet _ rfl)) fun sameName => .andThen (.require _ _) fun _ => ?_
  refine .andThen (.now (quiet _ rfl)) fun now => .andThen (.freshId (quiet _ rfl)) fun id => ?_
  exact .andThen (.ask (write _ rfl rfl)) fun _ => .andThen (.note (quiet _ rfl)) fun _ =>
    .pure trivial

theorem Roles.update_uses (limits : Limits) (roleId : String) (patch : Role.Patch)
    (write : ∀ role : Role, allowed (.store (.roles (.update role)))) :
    (Roles.update limits roleId patch).Uses allowed fun _ => True := by
  refine .andThen (Roles.load_uses quiet roleId) fun role =>
    .andThen (patchedName_uses quiet limits role _) fun name =>
    .andThen (patchedDescription_uses limits role _) fun description => ?_
  split
  · exact .pure trivial
  · exact .andThen (.now (quiet _ rfl)) fun now => .andThen (.ask (write _)) fun _ =>
      .andThen (.note (quiet _ rfl)) fun _ => .pure trivial

theorem Roles.delete_uses (roleId : String) (write : allowed (.store (.roles (.delete roleId)))) :
    (Roles.delete roleId).Uses allowed fun _ => True :=
  .andThen (Roles.load_uses quiet roleId) fun _ => .andThen (.require _ _) fun _ =>
  .andThen (.ask write) fun _ => .andThen (.require _ _) fun _ => .note (quiet _ rfl)

/-- New grants are made of the permissions and at the scope asked for. -/
theorem Roles.newGrants_uses (role : Role) (scope tenantId : Option String)
    (permissionIds : List String) :
    (Roles.newGrants role scope tenantId permissionIds).Uses allowed fun added =>
      ∀ grant ∈ added, grant.organizationId = scope ∧ grant.permissionId ∈ permissionIds := by
  induction permissionIds with
  | nil => exact .pure (by simp)
  | cons permissionId rest ih =>
      refine .andThen (.freshId (quiet _ rfl)) fun id => .bind ih fun others hothers => .pure ?_
      rintro grant (_ | ⟨_, hgrant⟩)
      · exact ⟨rfl, List.mem_cons_self⟩
      · exact (hothers grant hgrant).imp_right (List.mem_cons_of_mem _)

theorem Roles.setPermissions_uses (roleId : String) (scope : Option String) (names : List String)
    (write : ∀ added removedIds, (∀ grant ∈ added, grant.organizationId = scope) →
      allowed (.store (.roles (.changeGrants added removedIds)))) :
    (Roles.setPermissions roleId scope names).Uses allowed fun _ => True := by
  refine .andThen (Roles.load_uses quiet roleId) fun role =>
    .andThen (Roles.scopeTenant_uses quiet role roleId scope) fun tenantId =>
    .andThen (Roles.wantedIds_uses quiet _) fun wanted =>
    .andThen (.ask (quiet _ rfl)) fun grants => ?_
  dsimp only
  refine .bind (Roles.newGrants_uses quiet role scope tenantId _) fun added hadded => ?_
  split
  · exact .pure trivial
  · exact .andThen (.ask (write added _ fun grant hgrant => (hadded grant hgrant).1)) fun _ =>
      .note (quiet _ rfl)

omit quiet in
/-- Making way for a new invitation deletes at most an old one. -/
theorem Invitations.replaceExpired_uses (now : Nat) (existing : Option Invitation)
    (replace : ∀ code, allowed (.store (.invitations (.delete code)))) :
    (Invitations.replaceExpired now existing).Uses allowed fun _ => True := by
  cases existing with
  | none => exact .pure trivial
  | some existing =>
      exact .andThen (.require _ _) fun _ => .andThen (.ask (replace _)) fun _ => .pure trivial

omit quiet in
/-- Storing an invitation creates it and nothing else. -/
theorem Invitations.store_uses {invitation : Invitation}
    (write : allowed (.store (.invitations (.create invitation)))) :
    (Invitations.store invitation).Uses allowed fun _ => True := by
  refine .andThen (.attempt write) fun result => ?_
  split
  · exact .pure trivial
  · exact .throw _
  · exact .throw _

theorem Invitations.create_uses (policy : InvitationPolicy) (draft : Invitation.Draft)
    (find : ∀ organizationId email,
      allowed (.store (.invitations (.findForEmail organizationId email))))
    (replace : ∀ code, allowed (.store (.invitations (.delete code))))
    (write : ∀ invitation : Invitation, invitation.createdBy = draft.createdBy →
      allowed (.store (.invitations (.create invitation)))) :
    (Invitations.create policy draft).Uses allowed fun _ => True := by
  refine .andThen (.check _) fun email => .andThen (.check _) fun _ => ?_
  refine .andThen (Action.loadOrganization_uses quiet _) fun org =>
    .andThen (Roles.assignable_uses quiet org _) fun roleIds => ?_
  refine .andThen (.now (quiet _ rfl)) fun now => .andThen (.ask (find _ _)) fun existing => ?_
  refine .andThen (Invitations.replaceExpired_uses now existing replace) fun _ =>
    .andThen (.randomBytes (quiet _ rfl)) fun bytes => ?_
  exact .andThen (Invitations.store_uses (write _ rfl)) fun _ =>
    .andThen (.note (quiet _ rfl)) fun _ => .pure trivial

omit quiet in
/-- Joining adds a member who is not primary, or changes roles only. -/
theorem Invitations.join_uses (org : Organization) (userId : String) (roleIds : List String)
    (now : Nat) (existing : Option Membership)
    (insert : ∀ member : Membership, member.userId = userId → member.isPrimary = false →
      allowed (.store (.memberships (.insert member false))))
    (change : ∀ change : Membership.Change, change.isPrimary = none → change.clearsOthers = false →
      allowed (.store (.memberships (.applyChange change)))) :
    (Invitations.join org userId roleIds now existing).Uses allowed fun _ => True := by
  cases existing with
  | none => exact .andThen (.ask (insert _ rfl rfl)) fun _ => .pure trivial
  | some existing =>
      unfold Invitations.join Invitations.mergeRoles
      dsimp only
      split
      · exact .pure trivial
      · exact .ask (change _ rfl rfl)

theorem Invitations.accept_uses (code : String) (user : User)
    (find : allowed (.store (.invitations (.findByCode code))))
    (insert : ∀ member : Membership, member.userId = user.id → member.isPrimary = false →
      allowed (.store (.memberships (.insert member false))))
    (change : ∀ change : Membership.Change, change.isPrimary = none → change.clearsOthers = false →
      allowed (.store (.memberships (.applyChange change))))
    (delete : allowed (.store (.invitations (.delete code))))
    (noted : ∀ note : AuditNote, note.event = .memberAdded ∨ note.event = .memberUpdated →
      allowed (.note note)) : (Invitations.accept code user).Uses allowed fun _ => True := by
  have hends : ∀ {β : Type} (error : Error),
      (Invitations.endWith code error : Action β).Uses allowed fun _ => True :=
    fun error => .andThen (.ask delete) fun _ => .throw error
  refine .andThen (.ask find) fun found => .andThen (.demand _ _) fun invitation =>
    .andThen (.require _ _) fun _ => .andThen (.now (quiet _ rfl)) fun now => ?_
  split
  · exact hends _
  · refine .andThen (.ask (quiet _ rfl)) fun org => ?_
    cases org with
    | none => exact hends _
    | some org =>
        refine .andThen (Roles.stillAssignable_uses quiet org _) fun roleIds =>
          .andThen (.ask (quiet _ rfl)) fun existing =>
          .andThen (Invitations.join_uses org user.id roleIds now existing insert change)
          fun member => ?_
        refine .andThen (.ask delete) fun _ => .andThen (.note (quiet _ rfl)) fun _ =>
          .andThen (.note (noted _ ?_)) fun _ => .pure trivial
        cases existing with
        | none => exact .inl rfl
        | some existing => exact .inr rfl

theorem Invitations.revoke_uses (organizationId code : String)
    (find : allowed (.store (.invitations (.findByCode code))))
    (delete : ∀ code, allowed (.store (.invitations (.delete code)))) :
    (Invitations.revoke organizationId code).Uses allowed fun _ => True := by
  refine .andThen (.ask find) fun found => ?_
  split
  · exact .pure trivial
  · refine .andThen (.ask (delete _)) fun deleted => ?_
    split
    · exact .andThen (.note (quiet _ rfl)) fun _ => .pure trivial
    · exact .pure trivial

theorem Invitations.purge_uses
    (delete : ∀ now, allowed (.store (.invitations (.deleteExpired now)))) :
    Invitations.purge.Uses allowed fun _ => True := by
  refine .andThen (.now (quiet _ rfl)) fun now => ?_
  have hdelete : (Action.ask (.invitations (.deleteExpired now))).Uses allowed fun _ => True :=
    .ask (delete now)
  exact hdelete

end Operations

/-- Operations make no requests but their own writes, their own questions about invitations, their
own notes about memberships and plain requests. -/
theorem Operation.action_asks (deployment : Deployment) (operation : Operation)
    {allowed : Effect → Prop} (plain : ∀ effect, effect.isPlain = true → allowed effect)
    (write : ∀ call, operation.MayWrite call → allowed (.store call))
    (consult : ∀ call, operation.Consults call → allowed (.store (.invitations call)))
    (noted : ∀ note, operation.MayNote note.event → allowed (.note note)) :
    (operation.action deployment).Uses allowed fun _ => True := by
  have read : ∀ call : Call, Effect.isPlain (.store call) = true →
      (Action.ask call).Uses allowed fun _ => True :=
    fun call hplain => .ask (plain (.store call) hplain)
  cases operation with
  | createOrganization draft =>
      exact Organizations.create_uses plain _ _ fun org tenantId status =>
        write _ (.createOrganization draft org tenantId status)
  | updateOrganization id patch =>
      exact Organizations.update_uses plain _ _ _ fun org _ =>
        write _ (.updateOrganization id patch org)
  | archiveOrganization id =>
      exact Organizations.update_uses plain _ _ _ fun org status =>
        write _ (.archiveOrganization id org (status _ rfl))
  | addMember draft =>
      exact Members.add_uses plain _
        (fun member userId isPrimary => write _ (.addMember draft member userId isPrimary))
        fun note hevent => noted note (hevent ▸ .addMember draft)
  | updateMember organizationId userId patch =>
      exact Members.update_uses plain _ _ _
        (fun change hfair =>
          write _ (.updateMember organizationId userId patch change hfair.1 hfair.2.1 hfair.2.2))
        fun note hevent => noted note (hevent ▸ .updateMember organizationId userId patch)
  | removeMember organizationId userId =>
      exact Members.remove_uses _ _ (write _ (.removeMember organizationId userId))
        fun note hevent => noted note (hevent ▸ .removeMember organizationId userId)
  | createRole draft =>
      exact Roles.create_uses plain _ _ fun role organizationId isSystem =>
        write _ (.createRole draft role organizationId isSystem)
  | updateRole roleId patch =>
      exact Roles.update_uses plain _ _ _ fun role => write _ (.updateRole roleId patch role)
  | deleteRole roleId => exact Roles.delete_uses plain _ (write _ (.deleteRole roleId))
  | setRolePermissions roleId scope names =>
      exact Roles.setPermissions_uses plain _ _ _ fun added removedIds atScope =>
        write _ (.setRolePermissions roleId scope names added removedIds atScope)
  | createInvitation draft =>
      exact Invitations.create_uses plain _ _
        (fun organizationId email => consult _ (.createInvitation draft organizationId email))
        (fun code => write _ (.replaceInvitation draft code))
        fun invitation createdBy => write _ (.createInvitation draft invitation createdBy)
  | acceptInvitation code user =>
      exact Invitations.accept_uses plain _ _ (consult _ (.acceptInvitation code user))
        (fun member userId isPrimary =>
          write _ (.joinByInvitation code user member userId isPrimary))
        (fun change isPrimary clears =>
          write _ (.mergeInvitation code user change isPrimary clears))
        (write _ (.acceptInvitation code user))
        fun note hevent => noted note (hevent.elim (· ▸ .joinByInvitation code user)
          (· ▸ .mergeInvitation code user))
  | revokeInvitation organizationId code =>
      exact Invitations.revoke_uses plain _ _ (consult _ (.revokeInvitation organizationId code))
        fun deleted => write _ (.revokeInvitation organizationId code deleted)
  | purgeInvitations =>
      exact Invitations.purge_uses plain fun now => write _ (.purgeInvitations now)
  | getOrganization id => exact read (.organizations (.findById id)) rfl
  | listOrganizations tenantId => exact read (.organizations (.list tenantId)) rfl
  | getMember organizationId userId => exact read (.memberships (.find organizationId userId)) rfl
  | getRole roleId => exact read (.roles (.find roleId)) rfl
  | listRoles tenantId organizationId => exact read (.roles (.list tenantId organizationId)) rfl
  | findInvitation code =>
      have hfind : (Invitations.find code).Uses allowed fun _ => True :=
        .ask (consult _ (.findInvitation code))
      exact hfind
  | getOrganizationBySlug tenantId slug =>
      unfold Operation.action Organizations.getBySlug
      dsimp only
      split
      · exact read (.organizations (.findBySlug tenantId _)) rfl
      · exact .pure trivial
  | listMemberships => exact .andThen (.ask (plain _ rfl)) fun _ => .pure trivial
  | pageMembers => exact Members.page_uses plain _ _
  | listAssignableRoles =>
      exact .andThen (Action.loadOrganization_uses plain _) fun org =>
        read (.roles (.listAssignable org.tenantId org.id)) rfl
  | getRolePermissions => exact Roles.permissions_uses plain _ _
  | listInvitations organizationId =>
      exact .andThen (.now (plain _ rfl)) fun _ =>
        .andThen (.ask (consult _ (.listInvitations organizationId))) fun _ => .pure trivial
  | resolvePermissions => exact Resolution.permissions_uses plain _ _ _
  | resolveInOrganization => exact Resolution.inOrganization_uses plain _ _
  | contributeClaims =>
      exact .andThen (Resolution.permissions_uses plain _ _ _) fun _ => .pure trivial
  | additionalPermissions userId context =>
      unfold Operation.action Resolution.additional
      dsimp only
      split
      · exact .pure trivial
      · exact Resolution.inOrganization_uses plain _ _

/-- Operations make no requests but their own writes and requests that are no writes. -/
theorem Operation.action_uses (deployment : Deployment) (operation : Operation) :
    (operation.action deployment).Uses operation.MayAsk fun _ => True := by
  have quiet := operation.mayAsk_of_not_write
  apply operation.action_asks deployment (Effect.plain quiet)
  · exact fun call hmay _ => hmay
  · intro call hconsults
    exact quiet _ (by cases hconsults <;> rfl)
  · exact fun note _ => quiet (.note note) rfl

/-- An operation with no writes makes only requests that are no writes. -/
theorem Operation.action_quiet (deployment : Deployment) (operation : Operation)
    (hreads : ∀ call, ¬operation.MayWrite call) :
    (operation.action deployment).Uses (fun effect => effect.isWrite = false) fun _ => True := by
  refine (operation.action_uses deployment).weaken fun effect hmay => ?_
  cases effect with
  | store call =>
      cases hwrite : call.isWrite with
      | false => exact hwrite
      | true => exact absurd (hmay hwrite) (hreads call)
  | clock | freshId | randomBytes | note => rfl

/-! ## Invariants of runs -/

/-- A step of a program that uses only allowed requests leaves such a program. -/
theorem Regime.Reaches.tasks_use {regime : Regime} {world : World} {config : Configuration}
    (reaches : regime.Reaches world config) :
    ∀ task ∈ config.tasks, task.rest.Uses task.operation.MayAsk fun _ => True := by
  induction reaches with
  | refl => simp [Configuration.initial]
  | @tail before after _ step ih =>
      cases step with
      | start deployment operation _ =>
          intro task htask
          rcases List.mem_append.1 htask with htask | htask
          · exact ih task htask
          · rw [List.mem_singleton.1 htask]
            exact (operation.action_uses deployment).run.mono fun _ _ => trivial
      | advance index _ =>
          rcases before.advance_cases index with hsame | ⟨operation, effect, next, htask⟩
          · rw [hsame]
            exact ih
          · have hmem := List.mem_of_getElem? htask
            rw [Configuration.advance_ask htask]
            intro task hlater
            rcases List.mem_or_eq_of_mem_set hlater with hlater | rfl
            · exact ih task hlater
            · exact (ih _ hmem).2 _
      | shift outside _ => exact ih

/-- What neither a write of an operation nor a request that is no write nor a change of the outside
breaks holds in every reachable world. -/
theorem Regime.Reaches.invariant_of_writes {regime : Regime} {inv : World → Prop} {world : World}
    {config : Configuration} (reaches : regime.Reaches world config) (start : inv world)
    (write : ∀ operation call world, Operation.MayWrite operation call → inv world →
      inv (world.callStore call).2)
    (quiet : ∀ effect world, effect.isWrite = false → inv world →
      inv (World.perform effect world).2)
    (shift : ∀ outside world, inv world → inv (world.withOutside outside)) :
    inv config.world := by
  induction reaches with
  | refl => exact start
  | @tail before after hbefore step ih =>
      cases step with
      | start deployment operation _ => exact ih
      | advance index _ =>
          rcases before.advance_cases index with hsame | ⟨operation, effect, next, htask⟩
          · rw [hsame]
            exact ih
          · rw [Configuration.advance_ask htask]
            have hmay : operation.MayAsk effect :=
              (Regime.Reaches.tasks_use hbefore _ (List.mem_of_getElem? htask)).1
            by_cases hwrite : effect.isWrite = true
            · cases effect with
              | store call => exact write operation call _ (hmay hwrite) ih
              | clock | freshId | randomBytes | note => cases hwrite
            · exact quiet effect _ (by simpa using hwrite) ih
      | shift outside _ => exact shift outside _ ih

end Tenancy
