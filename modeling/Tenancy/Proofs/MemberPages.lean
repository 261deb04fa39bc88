import Mathlib.Data.List.Sort
import Mathlib.Data.Prod.Lex
import Mathlib.Data.String.Basic
import Tenancy.Proofs.MemberSearch

/-!
# Tenancy - Members page by page

Page numbers and sizes are words of 32 bits, and numbers of members are words of 64 bits.
This file repeats the way to a page with arithmetic that stops where a word does not hold the
outcome, and shows that it never stops.  The pages of an answer are the members that match,
cut into pieces.

Main definitions:

- `Word.sub?`, `Word.add?`, `Word.mul?`, `Word.divCeil?`, `Word.clamp?`: arithmetic that stops.
- `Members.checkedPage`: a page of members with such arithmetic.
- `MemberPage.Paginate`: pages that hold each of some members once, in order.

Main results:

- Theorem `Members.runIn_checkedPage`: the arithmetic never stops.
- Theorem `MemberPage.cut_paginates`: the pages that are cut out of a list hold all of it.
- Theorem `memberPages_complete`: the pages of a query hold each member that matches once.
-/

namespace Tenancy

/-! ## Arithmetic on words -/

namespace Word

/-- A difference, unless it is below zero. -/
def sub? (a b : Nat) : Option Nat :=
  if b ≤ a then some (a - b) else none

/-- A sum, unless it does not fit in 64 bits. -/
def add? (a b : Nat) : Option Nat :=
  if a + b ≤ maxWord64 then some (a + b) else none

/-- A product, unless it does not fit in 64 bits. -/
def mul? (a b : Nat) : Option Nat :=
  if a * b ≤ maxWord64 then some (a * b) else none

/-- A quotient rounded up, unless the divisor is zero: one is added if something is left over. -/
def divCeil? (a b : Nat) : Option Nat :=
  if b = 0 then none
  else if a % b = 0 then some (a / b)
  else add? (a / b) 1

/-- The number between two bounds that is nearest to a value, unless the bounds are crossed. -/
def clamp? (low high value : Nat) : Option Nat :=
  if low ≤ high then some (min (max value low) high) else none

/-- A quotient of a word can be rounded up. -/
theorem divCeil?_eq {a b : Nat} (ha : a ≤ maxWord64) (hb : 0 < b) :
    divCeil? a b = some ((a + b - 1) / b) := by
  have hdivision : a / b * b + a % b = a := Nat.div_add_mod' a b
  have hrest : a % b < b := Nat.mod_lt a hb
  rw [divCeil?, if_neg (by omega)]
  split
  · have hround : (a + b - 1) / b = a / b :=
      Nat.div_eq_of_lt_le (by omega) (by rw [Nat.succ_mul]; omega)
    rw [hround]
  · have hround : (a + b - 1) / b = a / b + 1 :=
      Nat.div_eq_of_lt_le (by rw [Nat.succ_mul]; omega) (by rw [Nat.succ_mul, Nat.succ_mul]; omega)
    -- Something is left over only from a number that is not zero, by a divisor above one.
    have hless : a / b < a := Nat.div_lt_self (by omega) (by omega)
    rw [add?, if_pos (by omega), hround]

end Word

/-! ## Page sizes -/

namespace Limits

variable {limits : Limits} {requested : Option Nat}

/-- The page size for a request, by arithmetic that stops. -/
def clampPageSize? (limits : Limits) (requested : Option Nat) : Option Nat :=
  let largest := max limits.maxPageSize 1
  match requested with
  | none | some 0 => Word.clamp? 1 largest limits.defaultPageSize
  | some size => some (min size largest)

/-- There is a page size for every request. -/
theorem clampPageSize?_eq (limits : Limits) (requested : Option Nat) :
    limits.clampPageSize? requested = some (limits.clampPageSize requested) := by
  have hbounds : 1 ≤ max limits.maxPageSize 1 := le_max_right _ _
  rcases requested with _ | _ | size
  · exact if_pos hbounds
  · exact if_pos hbounds
  · rfl

/-- A page size is at least one and at most the largest, or one if that is zero. -/
theorem clampPageSize_bounds (limits : Limits) (requested : Option Nat) :
    1 ≤ limits.clampPageSize requested ∧
      limits.clampPageSize requested ≤ max 1 limits.maxPageSize := by
  rcases requested with _ | _ | size <;> simp only [clampPageSize] <;> omega

end Limits

/-! ## Pages by arithmetic that stops -/

namespace Members

/-- Where a page begins, by arithmetic that stops. -/
def offset? (number pageSize : Nat) : Option Nat := do
  let before ← Word.sub? number 1
  Word.mul? before pageSize

/-- The number of pages, by arithmetic that stops. -/
def pageCount? (total pageSize : Nat) : Option Nat :=
  (Word.divCeil? total pageSize).map (min · maxWord32)

/-- A page begins somewhere, if its number and its size are words of 32 bits. -/
theorem offset?_eq {number size : Nat} (hstart : 1 ≤ number) (hnumber : number ≤ maxWord32)
    (hsize : size ≤ maxWord32) : offset? number size = some ((number - 1) * size) := by
  have hproduct : (number - 1) * size ≤ maxWord64 :=
    (Nat.mul_le_mul (by omega : number - 1 ≤ maxWord32) hsize).trans (by decide)
  simp [offset?, Word.sub?, Word.mul?, hstart, hproduct]

/-- There is a number of pages, if that of the members is a word of 64 bits. -/
theorem pageCount?_eq {total size : Nat} (htotal : total ≤ maxWord64) (hsize : 1 ≤ size) :
    pageCount? total size = some (pageCount total size) := by
  rw [pageCount?, Word.divCeil?_eq htotal hsize]
  rfl

/-- One page of an organization's members, unless some arithmetic stops; the number of members that
match is cut off to a word of 64 bits. -/
def checkedPage (limits : Limits) (query : MemberQuery) : Action (Option MemberPage) := do
  let number := max (query.page.getD 1) 1
  let some pageSize := limits.clampPageSize? query.pageSize | pure none
  let userIds ← searchUsers query.search
  if userIds = some [] then pure (some (.empty number pageSize))
  else
    let some offset := offset? number pageSize | pure none
    let (items, found) ← Action.ask (.memberships (.query (query.filter userIds) offset pageSize))
    let total := found % (maxWord64 + 1)
    if total = 0 then pure (some (.empty number pageSize))
    else
      let some totalPages := pageCount? total pageSize | pure none
      pure (some { items := items, total := total, page := number, pageSize := pageSize,
                   totalPages := totalPages })

end Members

/-- The page with a number that is cut out of a list of members, if how many these are is cut off to
a word of 64 bits. -/
def MemberPage.cutWord (members : List Membership) (number size : Nat) : MemberPage :=
  let total := members.length % (maxWord64 + 1)
  if total = 0 then .empty number size
  else
    { MemberPage.cut members number size with
      total := total, totalPages := Members.pageCount total size }

theorem MemberPage.cutWord_pageSize (members : List Membership) (number size : Nat) :
    (cutWord members number size).pageSize = size := by
  simp only [cutWord]
  split <;> rfl

/-- Nothing is cut off from a number of members that is a word. -/
theorem MemberPage.cutWord_eq {members : List Membership} (hfits : members.length ≤ maxWord64)
    (number size : Nat) : cutWord members number size = cut members number size := by
  simp only [cutWord, Nat.mod_eq_of_lt (Nat.lt_succ_of_le hfits)]
  split
  · rename_i hnobody
    rw [List.length_eq_zero_iff.1 hnobody, cut_nil]
  · rfl

/-- The arithmetic on the way to a page never stops. -/
theorem Members.runIn_checkedPage {limits : Limits} {query : MemberQuery} (world : World)
    (hlimits : limits.maxPageSize ≤ maxWord32)
    (hnumber : ∀ asked ∈ query.page, asked ≤ maxWord32) :
    (checkedPage limits query).runIn world =
      (.ok (some (.cutWord (world.tables.matching query) (max (query.page.getD 1) 1)
        (limits.clampPageSize query.pageSize))), world) := by
  obtain ⟨hpositive, hlargest⟩ := limits.clampPageSize_bounds query.pageSize
  have hoffset : offset? (max (query.page.getD 1) 1) (limits.clampPageSize query.pageSize) =
      some ((max (query.page.getD 1) 1 - 1) * limits.clampPageSize query.pageSize) := by
    refine offset?_eq (le_max_right _ _) (max_le ?_ (by decide))
      (hlargest.trans (max_le (by decide) hlimits))
    cases hpage : query.page with
    | none => decide
    | some asked => exact hnumber asked hpage
  unfold checkedPage
  simp only [Limits.clampPageSize?_eq, hoffset]
  rw [Action.runIn_bind_ok (runIn_searchUsers world query)]
  split
  · rename_i hnobody
    rw [Tables.matching_eq_nil hnobody]
    rfl
  · refine (Action.runIn_bind_ok (runIn_query world query _ _) _).trans ?_
    have hword : (world.tables.matching query).length % (maxWord64 + 1) ≤ maxWord64 :=
      Nat.le_of_lt_succ (Nat.mod_lt _ (Nat.succ_pos _))
    simp only [pageCount?_eq hword hpositive, MemberPage.cutWord]
    split <;> rfl

/-! ## The order of members -/

namespace Tables

/-- Members are in the order of their times of creation, and of their users at the same time. -/
theorem memberLE_iff {a b : Membership} :
    memberLE a b = true ↔ toLex (a.createdAt, a.userId) ≤ toLex (b.createdAt, b.userId) := by
  simp only [memberLE, Prod.Lex.toLex_le_toLex, Bool.or_eq_true, Bool.and_eq_true,
    decide_eq_true_eq, beq_iff_eq]

/-- The members that match a query are in order. -/
theorem pairwise_matching (tables : Tables) (query : MemberQuery) :
    (tables.matching query).Pairwise fun a b =>
      toLex (a.createdAt, a.userId) ≤ toLex (b.createdAt, b.userId) := by
  have hsorted : (tables.matching query).Pairwise fun a b => memberLE a b = true :=
    pairwise_mergeSort_of_key (fun a b => @memberLE_iff a b) _
  exact hsorted.imp memberLE_iff.1

/-- The members that match a query are those among the stored ones. -/
theorem matching_perm (tables : Tables) (query : MemberQuery) :
    (tables.matching query).Perm (tables.memberships.filter (query.Matches tables ·)) :=
  List.mergeSort_perm _ _

/-- If keys are distinct, no two members that match a query are of the same user. -/
theorem nodup_users_matching {tables : Tables}
    (distinct : (tables.memberships.map Membership.key).Nodup) (query : MemberQuery) :
    ((tables.matching query).map (·.userId)).Nodup := by
  have hkeys : ((tables.matching query).map Membership.key).Nodup :=
    ((tables.matching_perm query).map _).nodup_iff.2 (distinct.sublist (List.filter_sublist.map _))
  rw [List.Nodup, List.pairwise_map] at hkeys ⊢
  refine hkeys.imp_of_mem fun {a b} ha hb hne huser => hne ?_
  have horganization : ∀ member ∈ tables.matching query,
      member.organizationId = query.organizationId := by
    intro member hmem
    have hmatches := List.of_mem_filter ((tables.matching_perm query).mem_iff.1 hmem)
    exact (of_decide_eq_true hmatches).1.1
  rw [Membership.key, Membership.key, horganization a ha, horganization b hb, huser]

/-- If keys are distinct, each member that matches a query comes before the next ones. -/
theorem pairwise_lt_matching {tables : Tables}
    (distinct : (tables.memberships.map Membership.key).Nodup) (query : MemberQuery) :
    (tables.matching query).Pairwise fun a b =>
      toLex (a.createdAt, a.userId) < toLex (b.createdAt, b.userId) := by
  refine ((tables.pairwise_matching query).and
    (List.pairwise_map.1 (nodup_users_matching distinct query))).imp ?_
  rintro a b ⟨hle, hne⟩
  refine lt_of_le_of_ne hle fun heq => hne ?_
  exact congrArg (fun key => (ofLex key).2) heq

end Tables

/-! ## Cutting a list into pages -/

namespace Members

variable {total size : Nat}

/-- If a word can count the pages, it is how many times the size fits in the total, rounded up. -/
theorem pageCount_eq (hsize : 1 ≤ size) (hfits : total ≤ size * maxWord32) :
    pageCount total size = (total + size - 1) / size := by
  refine min_eq_left (Nat.le_of_lt_succ ((Nat.div_lt_iff_lt_mul hsize).2 ?_))
  rw [Nat.succ_mul, Nat.mul_comm]
  omega

/-- A page is among those counted exactly if the pages before it do not hold everything. -/
theorem lt_pageCount_iff (hsize : 1 ≤ size) (hfits : total ≤ size * maxWord32) (before : Nat) :
    before < pageCount total size ↔ before * size < total := by
  rw [pageCount_eq hsize hfits, ← Nat.succ_le_iff, Nat.le_div_iff_mul_le hsize, Nat.succ_mul]
  omega

end Members

namespace MemberPage

/-- Pages of a size hold each of some members once, in order: together they are all members, each
page that is counted holds some and each but the last as many as the size says, the others hold
none, and all pages say the same about the whole. -/
structure Paginate (pages : Nat → MemberPage) (members : List Membership) (size : Nat) :
    Prop where
  total : ∀ number, (pages number).total = members.length
  totalPages : ∀ number, (pages number).totalPages = (members.length + size - 1) / size
  pageSize : ∀ number, (pages number).pageSize = size
  concat : (List.range' 1 (pages 1).totalPages).flatMap (fun number => (pages number).items) =
    members
  nonempty : ∀ number, 1 ≤ number → number ≤ (pages 1).totalPages → (pages number).items ≠ []
  full : ∀ number, 1 ≤ number → number < (pages 1).totalPages →
    (pages number).items.length = size
  short : ∀ number, (pages number).items.length ≤ size
  beyond : ∀ number, (pages 1).totalPages < number → (pages number).items = []

/-- The first pages that are cut out of a list make up its beginning. -/
theorem flatMap_cut (members : List Membership) (size count : Nat) :
    (List.range' 1 count).flatMap (fun number => (cut members number size).items) =
      members.take (count * size) := by
  induction count with
  | zero => simp
  | succ count ih =>
      have hlast : (cut members (1 + count) size).items =
          (members.drop (count * size)).take size := by
        rw [cut, Nat.add_sub_cancel_left]
      rw [List.range'_1_concat, List.flatMap_append, ih, List.flatMap_singleton, hlast,
        Nat.succ_mul, List.take_add]

variable {members : List Membership} {size number : Nat}

theorem length_cut (members : List Membership) (number size : Nat) :
    (cut members number size).items.length =
      min size (members.length - (number - 1) * size) := by
  rw [cut, List.length_take, List.length_drop]

/-- The pages that are cut out of a list hold all of it. -/
theorem cut_paginates (hsize : 1 ≤ size) (hfits : members.length ≤ size * maxWord32) :
    Paginate (fun number => cut members number size) members size where
  total _ := rfl
  totalPages _ := Members.pageCount_eq hsize hfits
  pageSize _ := rfl
  concat := by
    have hall : members.length ≤ Members.pageCount members.length size * size :=
      not_lt.1 fun hless => lt_irrefl _ ((Members.lt_pageCount_iff hsize hfits _).2 hless)
    exact (flatMap_cut members size _).trans (List.take_of_length_le hall)
  nonempty number hfirst hlast := by
    have hbefore := (Members.lt_pageCount_iff hsize hfits (number - 1)).1
      (Nat.lt_of_lt_of_le (Nat.sub_one_lt (by omega)) hlast)
    rw [← List.length_pos_iff, length_cut]
    omega
  full number hfirst hlast := by
    have hbefore := (Members.lt_pageCount_iff hsize hfits number).1 hlast
    have hsucc : number * size = (number - 1) * size + size := by
      rw [← Nat.succ_mul, Nat.succ_eq_add_one, Nat.sub_add_cancel hfirst]
    rw [length_cut]
    omega
  short number := by
    rw [length_cut]
    exact min_le_left _ _
  beyond number hbeyond := by
    have hall := mt (Members.lt_pageCount_iff hsize hfits (number - 1)).2
      (not_lt.2 (Nat.le_sub_one_of_lt hbeyond))
    rw [← List.length_eq_zero_iff, length_cut]
    omega

end MemberPage

/-! ## All pages of a query -/

/-- Whatever the store holds and whatever the limits are: the page size is at least one and at most
the largest, or one if that is zero; no arithmetic on the way to a page stops; and as long as
as many pages as a word can count hold the members that match, the pages of a query hold each of these
once, in the order of creation and then of users. -/
theorem memberPages_complete (world : World) (limits : Limits) (query : MemberQuery)
    (hlimits : limits.maxPageSize ≤ maxWord32) :
    let size := limits.clampPageSize query.pageSize
    let request := fun number : Option Nat => { query with page := number }
    (1 ≤ size ∧ size ≤ max 1 limits.maxPageSize) ∧
    (∀ number : Option Nat, (∀ asked ∈ number, asked ≤ maxWord32) → ∃ page : MemberPage,
      (Members.checkedPage limits (request number)).runIn world = (.ok (some page), world) ∧
      page.pageSize = size) ∧
    ∃ members : List Membership,
      members.Perm (world.tables.memberships.filter (query.Matches world.tables ·)) ∧
      members.Pairwise (fun a b =>
        toLex (a.createdAt, a.userId) ≤ toLex (b.createdAt, b.userId)) ∧
      ((world.tables.memberships.map Membership.key).Nodup → members.Pairwise fun a b =>
        toLex (a.createdAt, a.userId) < toLex (b.createdAt, b.userId)) ∧
      (members.length ≤ size * maxWord32 → ∃ pages : Nat → MemberPage,
        MemberPage.Paginate pages members size ∧
        ∀ number : Option Nat, (∀ asked ∈ number, asked ≤ maxWord32) →
          (Members.page limits (request number)).runIn world =
            (.ok (pages (max (number.getD 1) 1)), world) ∧
          (Members.checkedPage limits (request number)).runIn world =
            (.ok (some (pages (max (number.getD 1) 1))), world)) := by
  intro size request
  obtain ⟨hpositive, hlargest⟩ := limits.clampPageSize_bounds query.pageSize
  have hchecked : ∀ number : Option Nat, (∀ asked ∈ number, asked ≤ maxWord32) →
      (Members.checkedPage limits (request number)).runIn world =
        (.ok (some (.cutWord (world.tables.matching query) (max (number.getD 1) 1) size)), world) :=
    fun number hnumber => Members.runIn_checkedPage world hlimits hnumber
  refine ⟨⟨hpositive, hlargest⟩,
    fun number hnumber => ⟨_, hchecked number hnumber, MemberPage.cutWord_pageSize _ _ _⟩,
    world.tables.matching query, world.tables.matching_perm query,
    world.tables.pairwise_matching query,
    fun distinct => Tables.pairwise_lt_matching distinct query, fun hfits => ?_⟩
  have hword : (world.tables.matching query).length ≤ maxWord64 :=
    hfits.trans ((Nat.mul_le_mul_right _ (hlargest.trans (max_le (by decide) hlimits))).trans
      (by decide))
  refine ⟨_, MemberPage.cut_paginates hpositive hfits, fun number hnumber => ⟨?_, ?_⟩⟩
  · exact Members.runIn_page world limits (request number)
  · rw [hchecked number hnumber, MemberPage.cutWord_eq hword]

/-- Under limits that were not checked and allow no page size, three members are on three pages. -/
theorem memberPages_complete_unchecked_limits :
    let member (userId : String) (createdAt : Nat) : Membership :=
      { organizationId := "a", userId := userId, tenantId := none, isPrimary := false, roles := []
        createdAt := createdAt, updatedAt := createdAt }
    let stored := [member "u" 5, member "v" 3, member "w" 5]
    let world := { World.blank [] with tables := { Tables.empty with memberships := stored } }
    let limits := { Limits.standard with defaultPageSize := 0, maxPageSize := 0 }
    let query : MemberQuery :=
      { organizationId := "a", isPrimary := none, roleId := none, search := none, page := none
        pageSize := some 0 }
    ∃ pages : Nat → MemberPage,
      (∀ number ∈ [1, 2, 3, 4], (Members.page limits { query with page := some number }).runIn
        world = (.ok (pages number), world)) ∧
      ((List.range' 1 3).flatMap fun number => (pages number).items).Perm stored ∧
      (∀ number ∈ [1, 2, 3], (pages number).items ≠ []) ∧ (pages 4).items = [] := by
  intro member stored world limits query
  obtain ⟨-, -, members, hperm, -, -, hpages⟩ :=
    memberPages_complete world limits query (by decide)
  have hstored : world.tables.memberships.filter (query.Matches world.tables ·) = stored := by
    decide +kernel
  rw [hstored] at hperm
  obtain ⟨pages, paginate, hruns⟩ := hpages (by rw [hperm.length_eq]; decide)
  have hrun : ∀ number ∈ [1, 2, 3, 4], (Members.page limits
      { query with page := some number }).runIn world = (.ok (pages number), world) := by
    intro number hmem
    have hsmall : 1 ≤ number ∧ number ≤ 4 := by simp at hmem; omega
    have hword : ∀ asked ∈ some number, asked ≤ maxWord32 := by
      rintro _ ⟨⟩
      exact hsmall.2.trans (by decide)
    simpa only [Option.getD_some, max_eq_left hsmall.1] using (hruns (some number) hword).1
  have hcount : (pages 1).totalPages = 3 := by
    rw [paginate.totalPages, hperm.length_eq]
    decide
  refine ⟨pages, hrun, ?_, fun number hmem => ?_, paginate.beyond 4 (by omega)⟩
  · rw [← hcount, paginate.concat]
    exact hperm
  · simp only [List.mem_cons, List.not_mem_nil, or_false] at hmem
    exact paginate.nonempty number (by omega) (by omega)

end Tenancy
