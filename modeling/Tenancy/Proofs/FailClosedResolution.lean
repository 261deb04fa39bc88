import Tenancy.Proofs.FaultyReads
import Tenancy.Proofs.PermissionNames

/-!
# Tenancy - Resolving permissions fails closed

A user's permissions come from two halves: those held everywhere, and those that the
roles held in an organization give.  While they are put together any call may fail or
answer with nothing.  A catalog call that fails costs the half that it serves, a
membership or role call that fails is the failure of the whole, and a call that
answers with nothing ends its half with nothing.  So no pattern of failures grants a
name that would not be granted without failures.

Main definitions:

- `Resolution.Degrades`: a half of the permissions, whole or lost.
- `Tables.resolvedNamed`, `Tables.heldEverywhere`: the two halves without failures.
- `FaultPlan.StrikesOnly`: plans under which one kind of call goes wrong.
- `World.FailsClosed`: how resolving ends under a fault plan.

Main results:

- Theorem `Resolution.Degrades.afterAsk`: a half is whole or lost after a call.
- Theorem `Resolution.permissions_weathers`: all permissions are what is left of the two
  halves, normalized.
- Theorem `permissions_failClosed`: under every fault plan, resolving fails closed.
-/

namespace Tenancy

/-! ## The two halves -/

/-- What is left of a half of the permissions: all of it or nothing, and which of the two where it
was spared and where it was lost. -/
structure Resolution.Degrades (spared lost : Prop) (all names : List String) : Prop where
  closed : names = all ∨ names = []
  whole : spared → names = all
  nothing : lost → names = []

namespace Resolution

variable {plan : FaultPlan} {world : World} {spared lost : Prop} {all : List String}

/-- What a half comes to that is read off the reply of one call. -/
theorem Degrades.ofAnswers (call : Call) {reply : Except StoreError call.Answer}
    {nothing : call.Answer} (value : Except StoreError call.Answer → List String)
    (hfailed : ∀ failure, value (.error failure) = []) (hnothing : value (.ok nothing) = [])
    (hsilence : call.silence? = some nothing) (hspared : spared → ∀ made, plan made call = none)
    (hlost : lost → ∀ made, ∃ fault, plan made call = some fault)
    (answers : world.Answers plan call reply) :
    Degrades spared lost (value (world.tables.perform call).1) (value reply) where
  closed := by
    rcases answers.genuine_or_struck with hgenuine | ⟨-, fault, -, hreply⟩
    · exact .inl (congrArg value hgenuine.symm)
    · right
      cases fault with
      | fails error =>
          cases hreply
          exact hfailed error
      | silent =>
          simp only [Fault.reply?, hsilence, Option.map_some, Option.some.injEq] at hreply
          rw [← hreply]
          exact hnothing
  whole hspares := congrArg value (answers.genuine (hspared hspares)).symm
  nothing hloses := by
    rcases answers.struck (hlost hloses) hsilence with ⟨failure, rfl⟩ | rfl
    · exact hfailed failure
    · exact hnothing

/-- After a membership or role call, a half is what the stored answer makes of it, if the answer
that there is nothing makes nothing of it. -/
theorem Degrades.afterAsk {call : Call} {next : call.Answer → Action (List String)}
    {stored nothing : call.Answer} (hread : call.isWrite = false)
    (hkind : call.IsOfMembersOrRoles) (hstored : (world.tables.perform call).1 = .ok stored)
    (hsilence : call.silence? = some nothing) (hspared : spared → ∀ made, plan made call = none)
    (hnext : (next stored).Weathers plan world (Degrades spared lost all))
    (hnothing : next nothing = pure []) :
    (Action.ask call >>= next).Weathers plan world (Degrades spared lost all) := by
  refine (Action.Weathers.ask hread hkind hstored).bind fun answer answers => ?_
  by_cases hspares : spared
  · have hgenuine := answers.genuine (hspared hspares)
    rw [hstored] at hgenuine
    cases hgenuine
    exact hnext
  · rcases answers.answered hsilence with hgenuine | rfl
    · rw [hstored] at hgenuine
      cases hgenuine
      exact hnext
    · rw [hnothing]
      exact .pure ⟨.inr rfl, fun hspares' => absurd hspares' hspares, fun _ => rfl⟩

/-! ## The half of an organization -/

/-- The plan lets the calls through that the half of an organization is made of. -/
structure SparesOrganization (plan : FaultPlan) : Prop where
  memberships : ∀ made call, plan made (.memberships call) = none
  roles : ∀ made call, plan made (.roles call) = none
  names : ∀ made ids, plan made (.catalog (.namesForIds ids)) = none

/-- The plan lets no naming of ids through. -/
def LosesNames (plan : FaultPlan) : Prop :=
  ∀ made ids, ∃ fault, plan made (.catalog (.namesForIds ids)) = some fault

/-- What is left of the half of an organization under a fault plan. -/
abbrev OrganizationHalf (plan : FaultPlan) (all names : List String) : Prop :=
  Degrades (SparesOrganization plan) (LosesNames plan) all names

/-- The names that the reply of the catalog gives ids. -/
def namedBy (ids : List String) : Except StoreError (List (String × String)) → List String
  | .ok names => Permission.normalize (Permission.namesOf names ids)
  | .error _ => []

/-- Without names, no id is named. -/
theorem namedBy_nothing (ids : List String) : namedBy ids (.ok []) = [] := by
  simp [namedBy, Permission.normalize, Permission.namesOf, Text.trimmedTexts, Text.keepFirst]

/-- What the catalog says names ids as they are resolved. -/
theorem namedBy_perform (tables : Tables) (ids : List String) :
    namedBy ids (tables.perform (.catalog (.namesForIds ids))).1 = tables.resolvedNames ids := by
  cases havailable : tables.catalogAvailable with
  | false => simp [namedBy, Tables.perform, Tables.performCatalog, Tables.resolvedNames, havailable]
  | true =>
      rw [Tables.perform_namesForIds havailable]
      simp [namedBy, Tables.resolvedNames, havailable, Tables.namesOf_namesForIds]

/-- Ids get all their names or none. -/
theorem namesOf_weathers (ids : List String) :
    (namesOf ids).Weathers plan world (OrganizationHalf plan (world.tables.resolvedNames ids)) := by
  refine (Action.Weathers.attempt rfl).bind fun reply answers => ?_
  have hhalf : OrganizationHalf plan (world.tables.resolvedNames ids) (namedBy ids reply) := by
    rw [← namedBy_perform world.tables ids]
    exact .ofAnswers (.catalog (.namesForIds ids)) (namedBy ids) (fun _ => rfl)
      (namedBy_nothing ids) rfl (fun hspares made => hspares.names made ids)
      (fun hloses made => hloses made ids) answers
  cases reply <;> exact .pure hhalf

/-- Nothing is all that there is of a half without names. -/
theorem weathers_nothing (hall : all = []) :
    (pure [] : Action (List String)).Weathers plan world (OrganizationHalf plan all) :=
  .pure ⟨.inr rfl, fun _ => hall.symm, fun _ => rfl⟩

/-- A member's permissions are resolved all or not at all. -/
theorem ofMember_weathers (organizationId : String) (member : Membership) :
    (ofMember organizationId member).Weathers plan world (OrganizationHalf plan
      (world.tables.resolvedNames (world.tables.heldIds organizationId member))) := by
  unfold ofMember
  dsimp only
  split
  · rename_i hempty
    have hnone : world.tables.liveRoleIds member = [] := by
      simp [Tables.liveRoleIds, List.isEmpty_iff.1 hempty]
    apply weathers_nothing
    rw [Tables.heldIds_eq_nil hnone, Tables.resolvedNames_nil]
  · refine Degrades.afterAsk rfl trivial rfl rfl (fun hspares made => hspares.roles made _) ?_ rfl
    change (if (world.tables.liveRoleIds member).isEmpty then _ else _ : Action _).Weathers _ _ _
    split
    · rename_i hempty
      apply weathers_nothing
      rw [Tables.heldIds_eq_nil (List.isEmpty_iff.1 hempty), Tables.resolvedNames_nil]
    · refine Degrades.afterAsk rfl trivial rfl rfl (fun hspares made => hspares.roles made _) ?_ rfl
      change (if (world.tables.heldIds organizationId member).isEmpty then _ else _ :
        Action _).Weathers _ _ _
      split
      · rename_i hempty
        apply weathers_nothing
        rw [List.isEmpty_iff.1 hempty, Tables.resolvedNames_nil]
      · exact namesOf_weathers _

/-- A user's permissions in an organization are resolved all or not at all. -/
theorem inOrganization_weathers (organizationId userId : String) :
    (inOrganization organizationId userId).Weathers plan world
      (OrganizationHalf plan (world.tables.resolved organizationId userId)) := by
  refine Degrades.afterAsk rfl trivial rfl rfl (fun hspares made => hspares.memberships made _) ?_
    rfl
  unfold Tables.resolved
  cases world.tables.memberships.find? (Tables.isMemberOf organizationId userId) with
  | none => exact weathers_nothing rfl
  | some member => exact ofMember_weathers organizationId member

end Resolution

/-- The permissions resolved in the organization that is named; none without one. -/
def Tables.resolvedNamed (tables : Tables) (userId : String) (organizationId : Option String) :
    List String :=
  match (organizationId.map Text.trim).filter (· != "") with
  | none => []
  | some organizationId => tables.resolved organizationId userId

/-- The permissions that a user holds everywhere, as far as the catalog says. -/
def Tables.heldEverywhere (tables : Tables) (userId : String) : List String :=
  if tables.catalogAvailable then (tables.globalPermissions.lookup userId).getD [] else []

namespace Resolution

variable {plan : FaultPlan} {world : World}

/-- Resolving in the organization that is named returns what is resolved there. -/
theorem runIn_ofNamed (world : World) (userId : String) (organizationId : Option String) :
    (ofNamed userId organizationId).runIn world =
      (.ok (world.tables.resolvedNamed userId organizationId), world) := by
  unfold ofNamed Tables.resolvedNamed
  cases (organizationId.map Text.trim).filter (· != "") with
  | none => exact Action.runIn_pure _ _
  | some organizationId => exact runIn_inOrganization world organizationId userId

/-- The permissions in the organization that is named are resolved all or not at all. -/
theorem ofNamed_weathers (userId : String) (organizationId : Option String) :
    (ofNamed userId organizationId).Weathers plan world
      (OrganizationHalf plan (world.tables.resolvedNamed userId organizationId)) := by
  unfold ofNamed Tables.resolvedNamed
  cases (organizationId.map Text.trim).filter (· != "") with
  | none => exact weathers_nothing rfl
  | some organizationId => exact inOrganization_weathers organizationId userId

/-! ## The half that holds everywhere -/

/-- What is left of the half that holds everywhere under a fault plan. -/
abbrev GlobalHalf (plan : FaultPlan) (userId : String) (tenantId : Option String)
    (all names : List String) : Prop :=
  Degrades (∀ made, plan made (.catalog (.userPermissions userId tenantId)) = none)
    (∀ made, ∃ fault, plan made (.catalog (.userPermissions userId tenantId)) = some fault)
    all names

/-- The names that a reply of the catalog lists. -/
def listedBy : Except StoreError (List String) → List String
  | .ok names => names
  | .error _ => []

/-- What the catalog lists for a user is held everywhere. -/
theorem listedBy_perform (tables : Tables) (userId : String) (tenantId : Option String) :
    listedBy (tables.perform (.catalog (.userPermissions userId tenantId))).1 =
      tables.heldEverywhere userId := by
  cases havailable : tables.catalogAvailable <;>
    simp [listedBy, Tables.perform, Tables.performCatalog, Tables.heldEverywhere, havailable]

/-- Resolving what a user holds everywhere returns that. -/
theorem runIn_global (world : World) (userId : String) (tenantId : Option String) :
    (global userId tenantId).runIn world = (.ok (world.tables.heldEverywhere userId), world) := by
  refine (Action.runIn_bind_ok (Action.runIn_attempt _ rfl) _).trans ?_
  rw [← listedBy_perform world.tables userId tenantId]
  cases (world.tables.perform (.catalog (.userPermissions userId tenantId))).1 <;> rfl

/-- What a user holds everywhere is resolved all or not at all. -/
theorem global_weathers (userId : String) (tenantId : Option String) :
    (global userId tenantId).Weathers plan world
      (GlobalHalf plan userId tenantId (world.tables.heldEverywhere userId)) := by
  refine (Action.Weathers.attempt rfl).bind fun reply answers => ?_
  have hhalf : GlobalHalf plan userId tenantId (world.tables.heldEverywhere userId)
      (listedBy reply) := by
    rw [← listedBy_perform world.tables userId tenantId]
    exact .ofAnswers (.catalog (.userPermissions userId tenantId)) listedBy (fun _ => rfl) rfl rfl
      id id answers
  cases reply <;> exact .pure hhalf

/-! ## Both halves -/

/-- Resolving all permissions returns both halves, normalized. -/
theorem runIn_permissions (world : World) (userId : String)
    (tenantId organizationId : Option String) :
    (permissions userId tenantId organizationId).runIn world =
      (.ok (Permission.normalize (world.tables.heldEverywhere userId ++
        world.tables.resolvedNamed userId organizationId)), world) := by
  refine (Action.runIn_bind_ok (runIn_global world userId tenantId) _).trans ?_
  exact Action.runIn_bind_ok (runIn_ofNamed world userId organizationId) _

/-- All permissions are what is left of the two halves, normalized. -/
theorem permissions_weathers (plan : FaultPlan) (world : World) (userId : String)
    (tenantId organizationId : Option String) :
    (permissions userId tenantId organizationId).Weathers plan world fun names =>
      ∃ everywhere there, names = Permission.normalize (everywhere ++ there) ∧
        GlobalHalf plan userId tenantId (world.tables.heldEverywhere userId) everywhere ∧
        OrganizationHalf plan (world.tables.resolvedNamed userId organizationId) there := by
  refine (global_weathers userId tenantId).bind fun everywhere heverywhere => ?_
  refine (ofNamed_weathers userId organizationId).bind fun there hthere => ?_
  exact .pure ⟨everywhere, there, rfl, heverywhere, hthere⟩

end Resolution

/-! ## Failing closed -/

/-- The plan strikes the calls of one name, every time, and no others. -/
def FaultPlan.StrikesOnly (plan : FaultPlan) (name : String) : Prop :=
  ∀ made call, (plan made call).isSome = true ↔ call.name = name

/-- The plan that strikes every call of one name with one fault. -/
def FaultPlan.striking (name : String) (fault : Fault) : FaultPlan :=
  fun _ call => if call.name = name then some fault else Option.none

/-- Such a plan strikes no other calls. -/
theorem FaultPlan.striking_strikesOnly (name : String) (fault : Fault) :
    (striking name fault).StrikesOnly name := by
  intro made call
  simp [striking]

namespace FaultPlan.StrikesOnly

variable {plan : FaultPlan} {name : String} {call : Call}

/-- A call of another name is spared. -/
theorem spares (strikes : plan.StrikesOnly name) (hother : call.name ≠ name) (made : Nat) :
    plan made call = Option.none := by
  by_contra hstruck
  exact hother ((strikes made call).1 (Option.isSome_iff_ne_none.2 hstruck))

/-- A call of the name is struck. -/
theorem hits (strikes : plan.StrikesOnly name) (hname : call.name = name) (made : Nat) :
    ∃ fault, plan made call = some fault :=
  Option.isSome_iff_exists.1 ((strikes made call).2 hname)

end FaultPlan.StrikesOnly

/-- No call about memberships or roles has the name of a call to the catalog. -/
theorem Call.IsOfMembersOrRoles.name_ne {call : Call} (hkind : call.IsOfMembersOrRoles)
    (catalogCall : CatalogCall) : call.name ≠ catalogCall.name := by
  cases call with
  | memberships call =>
      cases call <;> cases catalogCall <;> simp [name, MembershipCall.name, CatalogCall.name]
  | roles call => cases call <;> cases catalogCall <;> simp [name, RoleCall.name, CatalogCall.name]
  | organizations call | invitations call | directory call | catalog call => exact hkind.elim

/-- Where one kind of call to the catalog is struck, no error can be blamed on a call. -/
theorem FaultPlan.StrikesOnly.not_blamedOn {plan : FaultPlan} (catalogCall : CatalogCall)
    (strikes : plan.StrikesOnly catalogCall.name) (error : Error) (exchanges : List Exchange) :
    ¬error.BlamedOn plan exchanges := by
  rintro ⟨call, failure, hkind, -, ⟨made, hfails⟩, -⟩
  rw [strikes.spares (hkind.name_ne catalogCall) made] at hfails
  cases hfails

/-- The world with its permission catalog at work. -/
def World.online (world : World) : World :=
  { world with tables := { world.tables with catalogAvailable := true } }

/-- Under a fault plan, resolving all permissions of a user fails only if a membership or role call
that it makes fails; otherwise it returns names that it would return without failures, and with the
catalog at work.  If exactly one of the two catalog calls goes wrong, what it returns is the half
that the other one serves. -/
structure World.FailsClosed (world : World) (plan : FaultPlan) (userId : String)
    (tenantId organizationId : Option String) : Prop where
  unchanged :
    ((Resolution.permissions userId tenantId organizationId).runFaulty plan world).2 = world
  refused : ∀ error,
    ((Resolution.permissions userId tenantId organizationId).runFaulty plan world).1 =
      .error error →
    error.BlamedOn plan
      ((Resolution.permissions userId tenantId organizationId).exchangesUnder plan world)
  granted : ∀ names,
    ((Resolution.permissions userId tenantId organizationId).runFaulty plan world).1 = .ok names →
    ∃ unstruck all,
      (Resolution.permissions userId tenantId organizationId).runIn world = (.ok unstruck, world) ∧
      (Resolution.permissions userId tenantId organizationId).runIn world.online =
        (.ok all, world.online) ∧
      names.map Text.lowercase ⊆ unstruck.map Text.lowercase ∧
      unstruck.map Text.lowercase ⊆ all.map Text.lowercase
  withoutGlobal : plan.StrikesOnly "catalog.user_permissions" →
    (Resolution.permissions userId tenantId organizationId).runFaulty plan world =
      (Resolution.ofNamed userId organizationId).runIn world
  withoutNames : plan.StrikesOnly "catalog.names_for_ids" →
    ∃ everywhere, (Resolution.global userId tenantId).runIn world = (.ok everywhere, world) ∧
      (Resolution.permissions userId tenantId organizationId).runFaulty plan world =
        (.ok (Permission.normalize everywhere), world)

/-- What is left of a half is part of it. -/
theorem Resolution.Degrades.subset {spared lost : Prop} {all names : List String}
    (degrades : Degrades spared lost all names) : names ⊆ all := by
  rcases degrades.closed with rfl | rfl
  · exact List.Subset.refl _
  · exact List.nil_subset _

namespace Tables

/-- What is resolved in an organization is normalized. -/
theorem normalize_resolvedNamed (tables : Tables) (userId : String)
    (organizationId : Option String) :
    Permission.normalize (tables.resolvedNamed userId organizationId) =
      tables.resolvedNamed userId organizationId := by
  have hnothing : Permission.normalize [] = [] := by
    simp [Permission.normalize, Text.trimmedTexts, Text.keepFirst]
  have hnames : ∀ ids, Permission.normalize (tables.resolvedNames ids) =
      tables.resolvedNames ids := by
    intro ids
    unfold resolvedNames
    split
    · exact Permission.normalize_normalize _
    · exact hnothing
  unfold resolvedNamed resolved
  split
  · exact hnothing
  · split
    · exact hnothing
    · exact hnames _

/-- With the catalog at work, nothing that is held everywhere is missing. -/
theorem heldEverywhere_subset_online (tables : Tables) (userId : String) :
    tables.heldEverywhere userId ⊆
      { tables with catalogAvailable := true }.heldEverywhere userId := by
  unfold heldEverywhere
  split
  · exact List.Subset.refl _
  · exact List.nil_subset _

/-- With the catalog at work, nothing that is resolved in an organization is missing. -/
theorem resolvedNamed_subset_online (tables : Tables) (userId : String)
    (organizationId : Option String) :
    tables.resolvedNamed userId organizationId ⊆
      { tables with catalogAvailable := true }.resolvedNamed userId organizationId := by
  unfold resolvedNamed resolved
  split
  · exact List.nil_subset _
  · dsimp only
    split
    · exact List.nil_subset _
    · unfold resolvedNames
      split
      · exact List.Subset.refl _
      · exact List.nil_subset _

end Tables

/-- Where no error can be blamed on a call, all permissions are resolved to what is left of the two
halves. -/
theorem Resolution.runFaulty_permissions {plan : FaultPlan}
    (hblameless : ∀ error exchanges, ¬Error.BlamedOn error plan exchanges) (world : World)
    (userId : String) (tenantId organizationId : Option String) :
    ∃ everywhere there,
      (permissions userId tenantId organizationId).runFaulty plan world =
        (.ok (Permission.normalize (everywhere ++ there)), world) ∧
      GlobalHalf plan userId tenantId (world.tables.heldEverywhere userId) everywhere ∧
      OrganizationHalf plan (world.tables.resolvedNamed userId organizationId) there := by
  have hrun := (permissions_weathers plan world userId tenantId organizationId).runFaulty
  generalize (permissions userId tenantId organizationId).runFaulty plan world = out at hrun ⊢
  obtain ⟨result, after⟩ := out
  obtain ⟨rfl, hended⟩ := hrun
  cases result with
  | error error => exact absurd hended (hblameless error _)
  | ok names =>
      obtain ⟨everywhere, there, rfl, hglobal, horganization⟩ := hended
      exact ⟨everywhere, there, rfl, hglobal, horganization⟩

/-- Where only the catalog's list of a user's permissions is struck, the half of the organization is
left. -/
theorem Resolution.runFaulty_withoutGlobal {plan : FaultPlan} (world : World) (userId : String)
    (tenantId organizationId : Option String)
    (strikes : plan.StrikesOnly "catalog.user_permissions") :
    (permissions userId tenantId organizationId).runFaulty plan world =
      (ofNamed userId organizationId).runIn world := by
  have hother : ∀ call : Call, call.IsOfMembersOrRoles → call.name ≠ "catalog.user_permissions" :=
    fun _ hkind => hkind.name_ne (.userPermissions userId tenantId)
  have spares : SparesOrganization plan :=
    { memberships := fun made call => strikes.spares (hother (.memberships call) trivial) made
      roles := fun made call => strikes.spares (hother (.roles call) trivial) made
      names := fun made ids => strikes.spares (by simp [Call.name, CatalogCall.name]) made }
  obtain ⟨everywhere, there, hrun, hglobal, horganization⟩ :=
    runFaulty_permissions
      (FaultPlan.StrikesOnly.not_blamedOn (.userPermissions userId tenantId) strikes) world userId
      tenantId organizationId
  have hlost : everywhere = [] := hglobal.nothing fun made => strikes.hits rfl made
  rw [hrun, hlost, horganization.whole spares, List.nil_append, Tables.normalize_resolvedNamed,
    runIn_ofNamed]

/-- Where only the catalog's names of ids are struck, the half that holds everywhere is left. -/
theorem Resolution.runFaulty_withoutNames {plan : FaultPlan} (world : World) (userId : String)
    (tenantId organizationId : Option String)
    (strikes : plan.StrikesOnly "catalog.names_for_ids") :
    ∃ everywhere, (global userId tenantId).runIn world = (.ok everywhere, world) ∧
      (permissions userId tenantId organizationId).runFaulty plan world =
        (.ok (Permission.normalize everywhere), world) := by
  obtain ⟨everywhere, there, hrun, hglobal, horganization⟩ :=
    runFaulty_permissions (FaultPlan.StrikesOnly.not_blamedOn (.namesForIds []) strikes) world
      userId tenantId organizationId
  have hlost : there = [] := horganization.nothing fun made ids => strikes.hits rfl made
  have hwhole : everywhere = world.tables.heldEverywhere userId :=
    hglobal.whole fun made => strikes.spares (by simp [Call.name, CatalogCall.name]) made
  rw [hlost, hwhole, List.append_nil] at hrun
  exact ⟨_, runIn_global world userId tenantId, hrun⟩

/-- Under every fault plan and in every world, resolving permissions fails closed. -/
theorem permissions_failClosed (world : World) (plan : FaultPlan) (userId : String)
    (tenantId organizationId : Option String) :
    world.FailsClosed plan userId tenantId organizationId := by
  obtain ⟨hworld, hended⟩ :=
    (Resolution.permissions_weathers plan world userId tenantId organizationId).runFaulty
  constructor
  case unchanged => exact hworld
  case refused =>
    intro error herror
    rw [herror] at hended
    exact hended
  case granted =>
    intro names hnames
    rw [hnames] at hended
    obtain ⟨everywhere, there, rfl, hglobal, horganization⟩ := hended
    refine ⟨_, _, Resolution.runIn_permissions world userId tenantId organizationId,
      Resolution.runIn_permissions world.online userId tenantId organizationId, ?_, ?_⟩
    · apply Permission.lowercase_normalize_mono
      exact List.append_subset.2 ⟨List.subset_append_of_subset_left _ hglobal.subset,
        List.subset_append_of_subset_right _ horganization.subset⟩
    · apply Permission.lowercase_normalize_mono
      exact List.append_subset.2
        ⟨List.subset_append_of_subset_left _ (world.tables.heldEverywhere_subset_online userId),
          List.subset_append_of_subset_right _
            (world.tables.resolvedNamed_subset_online userId organizationId)⟩
  case withoutGlobal =>
    exact Resolution.runFaulty_withoutGlobal world userId tenantId organizationId
  case withoutNames =>
    exact Resolution.runFaulty_withoutNames world userId tenantId organizationId

/-- A user who holds one permission everywhere and another in an organization keeps either half when
the other one is lost, and gets neither when the membership cannot be read. -/
theorem permissions_failClosed_two_halves :
    ∃ world : World, ∀ fault failure,
      world.FailsClosed (.striking "catalog.user_permissions" fault) "u" none (some "a") ∧
      (Resolution.permissions "u" none (some "a")).runFaulty
        (.striking "catalog.user_permissions" fault) world = (.ok ["docs:read"], world) ∧
      (Resolution.permissions "u" none (some "a")).runFaulty
        (.striking "catalog.names_for_ids" fault) world = (.ok ["audit"], world) ∧
      (Resolution.permissions "u" none (some "a")).runFaulty
        (.striking "membership.find" (.fails failure)) world =
          (.error (.storage failure), world) := by
  let tables : Tables :=
    { Tables.empty with
      roles := [
        { id := "r", organizationId := none, tenantId := none, name := "reader"
          description := none, isSystem := false, createdAt := 0, updatedAt := 0 }]
      grants := [
        { id := "g", roleId := "r", permissionId := "p1", organizationId := none
          tenantId := none }]
      memberships := [
        { organizationId := "a", userId := "u", tenantId := none, isPrimary := false
          roles := [⟨"a", "u", "r", none, 0⟩], createdAt := 0, updatedAt := 0 }]
      catalog := [("p1", "docs:read")]
      globalPermissions := [("u", ["audit"])] }
  let world : World := { World.blank [] with tables := tables }
  have hthere : (Resolution.ofNamed "u" (some "a")).runIn world = (.ok ["docs:read"], world) := by
    have hnames : world.tables.resolvedNamed "u" (some "a") = ["docs:read"] := by decide +kernel
    rw [Resolution.runIn_ofNamed, hnames]
  have hglobal : (Resolution.global "u" none).runIn world = (.ok ["audit"], world) := by
    rw [Resolution.runIn_global]
    rfl
  refine ⟨world, fun fault failure => ?_⟩
  have hclosed := permissions_failClosed world (.striking "catalog.user_permissions" fault) "u" none
    (some "a")
  refine ⟨hclosed, ?_, ?_, rfl⟩
  · rw [← hthere]
    exact hclosed.withoutGlobal (FaultPlan.striking_strikesOnly _ fault)
  · obtain ⟨everywhere, hrun, hleft⟩ :=
      (permissions_failClosed world (.striking "catalog.names_for_ids" fault) "u" none
        (some "a")).withoutNames (FaultPlan.striking_strikesOnly _ fault)
    rw [hglobal] at hrun
    cases hrun
    have hsorted : Permission.normalize ["audit"] = ["audit"] := by decide +kernel
    rw [hleft, hsorted]

end Tenancy
