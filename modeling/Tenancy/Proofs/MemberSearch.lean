import Mathlib.Data.List.Infix
import Tenancy.Operation
import Tenancy.Proofs.OrderlyRuns
import Tenancy.Proofs.SearchPatterns
import Tenancy.Proofs.SoloRuns

/-!
# Tenancy - Searching for members

Asking for a page of members makes up to two calls, one to the directory and one to the
store, and has a short cut for each that finds nothing.  This file says what comes out: the
members that match are put in order, and the page is cut out of them.  What a search text
matches is said without patterns.

Main definitions:

- `Text.OccursIn`: a text is part of a value but for the case of letters.
- `Tables.Lists`: the directory shows a text for a user.
- `MemberQuery.Matches`, `Tables.matching`: which members a query is after, in their order.
- `MemberPage.cut`: a page of a list of members.

Main results:

- Theorem `Members.runIn_page`: an answer is a page of the members that match.
- Theorem `memberSearch_literal`: searching finds all and only those members whose address or
  display name contains the text.
-/

namespace Tenancy

/-! ## What contains a text -/

/-- A text is a contiguous part of a value, both lowercased. -/
def Text.OccursIn (text value : String) : Prop :=
  (Text.lowercase text).toList <:+: (Text.lowercase value).toList

instance (text value : String) : Decidable (Text.OccursIn text value) := by
  unfold Text.OccursIn
  infer_instance

/-- The address or the display name of a user contains a text. -/
def User.Shows (user : User) (text : String) : Prop :=
  Text.OccursIn text user.email ∨ ∃ name ∈ user.displayName, Text.OccursIn text name

instance (user : User) (text : String) : Decidable (user.Shows text) := by
  unfold User.Shows
  infer_instance

/-- The directory shows a text for the user with an id. -/
def Tables.Lists (tables : Tables) (text userId : String) : Prop :=
  ∃ user ∈ tables.users, user.id = userId ∧ user.Shows text

instance (tables : Tables) (text userId : String) : Decidable (tables.Lists text userId) := by
  unfold Tables.Lists
  infer_instance

/-- The pattern made from a text finds the users that show it. -/
theorem User.foundBy_containing_iff {user : User} {text : String} :
    user.foundBy (.containing text) = true ↔ user.Shows text := by
  simp only [User.foundBy, User.Shows, Text.OccursIn, Bool.or_eq_true, Option.any_eq_true,
    Text.SearchPattern.accepts_containing_iff, Option.mem_def]

/-! ## What a query is after -/

namespace MemberQuery

variable {tables : Tables} {query : MemberQuery} {member : Membership} {text : String}

/-- The text that a query searches for; a blank one does not count. -/
def searchText (query : MemberQuery) : Option String :=
  (query.search.map Text.trim).filter (· != "")

/-- A member belongs to the organization of a query and is as the query's other parts say. -/
def Selects (query : MemberQuery) (member : Membership) : Prop :=
  member.organizationId = query.organizationId ∧
    (∀ flag ∈ query.isPrimary, member.isPrimary = flag) ∧
    ∀ roleId ∈ query.roleId, roleId ∈ member.roleIds

instance : Decidable (query.Selects member) := by
  unfold Selects
  infer_instance

/-- A member is selected by a query, and the directory shows the text that is searched for. -/
def Matches (query : MemberQuery) (tables : Tables) (member : Membership) : Prop :=
  query.Selects member ∧ ∀ text ∈ query.searchText, tables.Lists text member.userId

instance : Decidable (query.Matches tables member) := by
  unfold Matches
  infer_instance

/-- A text that is not blank is searched for without the blanks at its ends. -/
theorem searchText_of_not_blank (hsearch : query.search = some text)
    (hblank : Text.trim text ≠ "") : query.searchText = some (Text.trim text) := by
  rw [searchText, hsearch, Option.map_some, Option.filter_some, if_pos (by simpa using hblank)]

/-- The filter of a query, with the users that are found. -/
def filter (query : MemberQuery) (userIds : Option (List String)) : MemberFilter :=
  { organizationId := query.organizationId, isPrimary := query.isPrimary
    roleId := query.roleId, userIds := userIds }

/-- A filter lets those members pass that are selected and among the users found. -/
theorem accepts_filter_iff {userIds : Option (List String)} :
    (query.filter userIds).accepts member = true ↔
      query.Selects member ∧ ∀ ids ∈ userIds, member.userId ∈ ids := by
  simp only [filter, MemberFilter.accepts, Selects, Membership.hasRole, Membership.roleIds,
    Bool.and_eq_true, beq_iff_eq, Option.all_eq_true, List.any_eq_true, List.contains_iff_mem,
    List.mem_map, Option.mem_def, and_assoc]

end MemberQuery

namespace Tables

variable {tables : Tables} {query : MemberQuery}

/-- The members that match a query, in the order of pages. -/
def matching (tables : Tables) (query : MemberQuery) : List Membership :=
  (tables.memberships.filter (query.Matches tables ·)).mergeSort memberLE

/-- The ids of the users that a query finds in the directory, if it searches for a text. -/
def found (tables : Tables) (query : MemberQuery) : Option (List String) :=
  query.searchText.map fun text =>
    ((tables.users.filter (·.foundBy (.containing text))).map (·.id)).mergeSort fun a b => a ≤ b

/-- The directory finds the users for which it shows the text. -/
theorem mem_found_iff {userId : String} :
    (∀ ids ∈ tables.found query, userId ∈ ids) ↔
      ∀ text ∈ query.searchText, tables.Lists text userId := by
  simp only [found, Option.mem_def, Option.map_eq_some_iff, forall_exists_index, and_imp,
    forall_apply_eq_imp_iff₂, List.mem_mergeSort, List.mem_map, List.mem_filter,
    User.foundBy_containing_iff, Lists, and_assoc, @and_comm (_ = userId)]

/-- The members that pass the filter of a query are those that match it. -/
theorem filter_accepts_found (tables : Tables) (query : MemberQuery) :
    (tables.memberships.filter (query.filter (tables.found query)).accepts).mergeSort memberLE =
      tables.matching query := by
  have hsame : (query.filter (tables.found query)).accepts =
      fun member => decide (query.Matches tables member) := by
    funext member
    rw [Bool.eq_iff_iff, MemberQuery.accepts_filter_iff, mem_found_iff, decide_eq_true_iff]
    rfl
  rw [hsame, matching]

/-- Nothing matches a text for which no user is found. -/
theorem matching_eq_nil (hfound : tables.found query = some []) : tables.matching query = [] := by
  have hnobody : tables.memberships.filter (query.filter (some [])).accepts = [] := by
    refine List.filter_eq_nil_iff.2 fun member _ haccepts => ?_
    exact List.not_mem_nil ((MemberQuery.accepts_filter_iff.1 haccepts).2 [] rfl)
  rw [← filter_accepts_found, hfound, hnobody, List.mergeSort_nil]

end Tables

/-! ## Pages -/

/-- The page with a number that is cut out of a list of members. -/
def MemberPage.cut (members : List Membership) (number size : Nat) : MemberPage where
  items := (members.drop ((number - 1) * size)).take size
  total := members.length
  page := number
  pageSize := size
  totalPages := Members.pageCount members.length size

/-- A page that is cut out of nothing is the empty one. -/
theorem MemberPage.cut_nil (number size : Nat) : cut [] number size = .empty number size := by
  have hcount : Members.pageCount 0 size = 0 := by
    rw [Members.pageCount, Nat.min_eq_zero_iff, Nat.div_eq_zero_iff]
    omega
  simp [cut, empty, hcount]

namespace Members

variable {world : World} {query : MemberQuery} {limits : Limits}

/-- Looking users up leaves the world as it is. -/
theorem runIn_searchUsers (world : World) (query : MemberQuery) :
    (searchUsers query.search).runIn world = (.ok (world.tables.found query), world) := by
  unfold searchUsers Tables.found MemberQuery.searchText
  split
  · rename_i hnone
    rw [hnone]
    rfl
  · rename_i text hsome
    rw [hsome]
    have hread : (Action.ask (.directory (.searchUserIds (.containing text)))).runIn world =
        (.ok (((world.tables.users.filter (·.foundBy (.containing text))).map
          (·.id)).mergeSort fun a b => a ≤ b), world) := Action.runIn_read rfl rfl
    rw [Action.runIn_bind_ok hread]
    rfl

/-- Asking the store gives a stretch of the members that match, and how many these are. -/
theorem runIn_query (world : World) (query : MemberQuery) (offset limit : Nat) :
    (Action.ask (.memberships (.query (query.filter (world.tables.found query)) offset
      limit))).runIn world =
      (.ok (((world.tables.matching query).drop offset).take limit,
        (world.tables.matching query).length), world) := by
  refine Action.runIn_read rfl ?_
  rw [← Tables.filter_accepts_found]
  rfl

/-- An answer to a query is a page of the members that match it. -/
theorem runIn_page (world : World) (limits : Limits) (query : MemberQuery) :
    (page limits query).runIn world =
      (.ok (.cut (world.tables.matching query) (max (query.page.getD 1) 1)
        (limits.clampPageSize query.pageSize)), world) := by
  let number := max (query.page.getD 1) 1
  let size := limits.clampPageSize query.pageSize
  let members := world.tables.matching query
  have hmembers : world.tables.matching query = members := rfl
  unfold page
  rw [Action.runIn_bind_ok (runIn_searchUsers world query)]
  split
  · rename_i hnobody
    rw [Tables.matching_eq_nil hnobody, MemberPage.cut_nil]
    rfl
  · refine (Action.runIn_bind_ok (runIn_query world query _ _) _).trans ?_
    change Action.runIn (if members.length = 0 then pure (MemberPage.empty number size)
      else pure (MemberPage.cut members number size)) world = _
    split
    · rename_i hnobody
      rw [hmembers, List.length_eq_zero_iff.1 hnobody, MemberPage.cut_nil]
      rfl
    · rfl

end Members

/-! ## Searching -/

/-- What a query finds that searches for a text is what it selects and the directory shows the text
for. -/
theorem Tables.matching_perm_of_search {query : MemberQuery} {text : String} (tables : Tables)
    (hsearch : query.search = some text) (hblank : Text.trim text ≠ "") :
    (tables.matching query).Perm (tables.memberships.filter fun member =>
      query.Selects member ∧ tables.Lists (Text.trim text) member.userId) := by
  refine (List.mergeSort_perm _ _).trans (.of_eq (List.filter_congr fun member _ => ?_))
  simp only [MemberQuery.Matches, MemberQuery.searchText_of_not_blank hsearch hblank,
    Option.mem_some_iff, forall_eq']

/-- Searching for members is searching for a literal text.  The pattern made from a text accepts a
value exactly if the lowercase of the text is a contiguous part of the lowercase of the value.  Thus
a query with a text that is not blank counts all and only the members that it selects and for whose
users the directory shows an address or a name with the trimmed text in it, and its pages are cut
out of one list of these. -/
theorem memberSearch_literal :
    (∀ text value : String, (Text.SearchPattern.containing text).accepts value = true ↔
      (Text.lowercase text).toList <:+: (Text.lowercase value).toList) ∧
    ∀ (world : World) (limits : Limits) (query : MemberQuery) (text : String),
      query.search = some text → Text.trim text ≠ "" →
      ∃ members : List Membership,
        members.Perm (world.tables.memberships.filter fun member =>
          query.Selects member ∧ world.tables.Lists (Text.trim text) member.userId) ∧
        ∀ number : Option Nat, ∃ page : MemberPage,
          (Members.page limits { query with page := number }).runIn world = (.ok page, world) ∧
          page.total = members.length ∧
          page.page = max (number.getD 1) 1 ∧
          page.pageSize = limits.clampPageSize query.pageSize ∧
          page.items = (members.drop ((page.page - 1) * page.pageSize)).take page.pageSize :=
  ⟨Text.SearchPattern.accepts_containing_iff, fun world limits query _ hsearch hblank =>
    ⟨world.tables.matching query, world.tables.matching_perm_of_search hsearch hblank,
      fun number => ⟨_, Members.runIn_page world limits { query with page := number },
        rfl, rfl, rfl, rfl⟩⟩⟩

/-- A search for a text in capitals with wildcards and blanks around finds the user whose name ends
in it, and not one whose name would fit the wildcards. -/
theorem memberSearch_literal_wildcards :
    let user (id name : String) : User :=
      { id := id, email := id, displayName := some name, createdAt := 0 }
    let member (userId : String) : Membership :=
      { organizationId := "a", userId := userId, tenantId := none, isPrimary := false, roles := []
        createdAt := 0, updatedAt := 0 }
    let world := { World.blank [] with
      tables :=
        { Tables.empty with
          users := [user "u" "οδος 1%_", user "v" "οδος 1234"]
          memberships := ["u", "v"].map member } }
    let query : MemberQuery :=
      { organizationId := "a", isPrimary := none, roleId := none, search := some " ΔΟΣ 1%_ "
        page := none, pageSize := none }
    (Text.SearchPattern.containing "ΔΟΣ 1%_").accepts "οδος 1%_" = true ∧
      ∃ page : MemberPage, (Members.page .standard query).runIn world = (.ok page, world) ∧
        page.total = 1 ∧ page.items = [member "u"] := by
  intro user member world query
  obtain ⟨haccepts, hpages⟩ := memberSearch_literal
  refine ⟨(haccepts _ _).2 (by decide +kernel), ?_⟩
  obtain ⟨members, hperm, hpage⟩ := hpages world .standard query _ rfl (by decide +kernel)
  have hone : (world.tables.memberships.filter fun member =>
      query.Selects member ∧ world.tables.Lists (Text.trim " ΔΟΣ 1%_ ") member.userId) =
        [member "u"] := by
    decide +kernel
  rw [hone, List.perm_singleton] at hperm
  obtain ⟨page, hrun, htotal, hnumber, hsize, hitems⟩ := hpage none
  have hitems' : page.items = [member "u"] := by
    rw [hitems, hnumber, hsize, hperm]
    rfl
  exact ⟨page, hrun, by rw [htotal, hperm]; rfl, hitems'⟩

end Tenancy
