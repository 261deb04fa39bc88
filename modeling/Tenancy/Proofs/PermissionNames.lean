import Mathlib.Data.List.Sort
import Mathlib.Data.Prod.Lex
import Mathlib.Data.String.Basic
import Tenancy.Proofs.LowercaseBlanks
import Tenancy.Proofs.PermissionViews

/-!
# Tenancy - From names to permissions and back

Permissions are asked for by name.  The names are normalized, each is looked up in
the catalog up to case, and later the ids are turned into names again and those are
normalized.  The names that come back differ from the ones asked for by case only,
and they come in the same order.

Main definitions:

- `Permission.idUnder`: the permission that a lowercase name stands for.
- `Permission.wantedIds`: the permissions that a list of names asks for.

Main results:

- Theorem `Permission.pairwise_lowercase_normalize`: normalized names ascend strictly.
- Theorem `Permission.normalize_normalize`: normalizing twice is normalizing once.
- Theorem `Roles.resolveNames_eq_ok`, `Roles.resolveNames_eq_error`: what resolving
  names comes to.
- Theorem `Permission.lowercase_normalize_namesOf`: the names of the wanted
  permissions are the names asked for.
-/

namespace Tenancy
namespace Permission

/-! ## The order of names -/

/-- Names are ordered by lowercase form first. -/
theorem nameLE_iff {a b : String} :
    nameLE a b = true ↔ toLex (Text.lowercase a, a) ≤ toLex (Text.lowercase b, b) := by
  rw [Prod.Lex.toLex_le_toLex]
  simp only [nameLE, Bool.or_eq_true, Bool.and_eq_true, decide_eq_true_eq, beq_iff_eq,
    le_iff_lt_or_eq]

/-- Normalized names are in order. -/
theorem pairwise_normalize (names : List String) :
    (normalize names).Pairwise fun a b => nameLE a b = true :=
  Tables.pairwise_mergeSort_of_key (fun a b => @nameLE_iff a b) _

/-- The lowercase forms of normalized names ascend strictly. -/
theorem pairwise_lowercase_normalize (names : List String) :
    ((normalize names).map Text.lowercase).Pairwise (· < ·) := by
  have hdistinct : ((normalize names).map Text.lowercase).Nodup :=
    ((List.mergeSort_perm _ nameLE).map Text.lowercase).nodup_iff.2 Text.nodup_map_keepFirst
  rw [List.Nodup, List.pairwise_map] at hdistinct
  rw [List.pairwise_map]
  refine ((pairwise_normalize names).and hdistinct).imp ?_
  rintro a b ⟨hle, hne⟩
  rcases Prod.Lex.toLex_le_toLex.1 (nameLE_iff.1 hle) with hlt | ⟨heq, -⟩
  · exact hlt
  · exact absurd heq hne

/-- The lowercase forms of normalized names are determined by which ones there are. -/
theorem lowercase_normalize_ext {names others : List String}
    (hsame : ∀ key, key ∈ (Text.trimmedTexts names).map Text.lowercase ↔
      key ∈ (Text.trimmedTexts others).map Text.lowercase) :
    (normalize names).map Text.lowercase = (normalize others).map Text.lowercase := by
  refine (pairwise_lowercase_normalize names).eq_of_mem_iff
    (pairwise_lowercase_normalize others) fun key => ?_
  rw [mem_lowercase_normalize, mem_lowercase_normalize, hsame]

/-- A trimmed name that normalizing drops differs by case only from one that it keeps. -/
theorem exists_mem_normalize {names : List String} {name : String}
    (hmem : name ∈ Text.trimmedTexts names) :
    ∃ kept ∈ normalize names, Text.lowercase kept = Text.lowercase name :=
  List.mem_map.1 (mem_lowercase_normalize.2 (List.mem_map_of_mem hmem))

/-- Normalized names are trimmed ones. -/
theorem mem_trimmedTexts_of_mem_normalize {names : List String} {name : String}
    (hmem : name ∈ normalize names) : name ∈ Text.trimmedTexts names :=
  Text.keepFirst_sublist.subset ((List.mergeSort_perm _ nameLE).mem_iff.1 hmem)

/-- Up to case, more names are normalized to more names. -/
theorem lowercase_normalize_mono {names more : List String} (hsub : names ⊆ more) :
    (normalize names).map Text.lowercase ⊆ (normalize more).map Text.lowercase := by
  intro name hname
  rw [mem_lowercase_normalize] at hname ⊢
  have htrimmed : Text.trimmedTexts names ⊆ Text.trimmedTexts more := by
    unfold Text.trimmedTexts
    exact List.filter_subset _ (List.map_subset _ hsub)
  exact List.map_subset _ htrimmed hname

/-- Names that are in order once they are trimmed and told apart are normalized in that order. -/
theorem normalize_of_sorted {names kept : List String}
    (hkept : Text.keepFirst Text.lowercase [] (Text.trimmedTexts names) = kept)
    (hsorted : kept.Pairwise fun a b => nameLE a b = true) : normalize names = kept := by
  rw [normalize, hkept]
  exact List.mergeSort_of_pairwise hsorted

/-- Normalizing twice is normalizing once. -/
theorem normalize_normalize (names : List String) :
    normalize (normalize names) = normalize names := by
  have hdistinct : ((normalize names).map Text.lowercase).Nodup :=
    (pairwise_lowercase_normalize names).imp fun hlt => ne_of_lt hlt
  have htidy : ∀ name ∈ normalize names, Text.IsTidy name := fun name hname =>
    Text.isTidy_of_mem_trimmedTexts (mem_trimmedTexts_of_mem_normalize hname)
  refine normalize_of_sorted ?_ (pairwise_normalize names)
  rw [Text.trimmedTexts_eq_self htidy,
    Text.keepFirst_eq_self hdistinct fun _ _ => List.not_mem_nil]

/-! ## Looking names up -/

/-- The id of the first permission of a catalog whose name has the given lowercase form. -/
def idUnder (catalog : List (String × String)) (key : String) : Option String :=
  (catalog.find? fun entry => Text.lowercase entry.2 == key).map (·.1)

/-- No permission of the catalog has the name, in any case. -/
def IsUnknown (catalog : List (String × String)) (name : String) : Prop :=
  ∀ entry ∈ catalog, Text.lowercase entry.2 ≠ Text.lowercase name

/-- The ids of the permissions that a list of names asks for, each once. -/
def wantedIds (catalog : List (String × String)) (names : List String) : List String :=
  Text.keepFirst id [] (((normalize names).map Text.lowercase).filterMap (idUnder catalog))

variable {catalog : List (String × String)}

/-- An unknown name has no id. -/
theorem idUnder_eq_none_iff {name : String} :
    idUnder catalog (Text.lowercase name) = none ↔ IsUnknown catalog name := by
  simp [idUnder, IsUnknown, List.find?_eq_none]

/-- A permission is wanted if a name asks for it. -/
theorem mem_wantedIds {names : List String} {permissionId : String} :
    permissionId ∈ wantedIds catalog names ↔
      ∃ key ∈ (normalize names).map Text.lowercase, idUnder catalog key = some permissionId := by
  rw [wantedIds, Text.mem_keepFirst_id, List.mem_filterMap]

theorem nodup_wantedIds (names : List String) : (wantedIds catalog names).Nodup := by
  have hkeys : ((wantedIds catalog names).map id).Nodup := Text.nodup_map_keepFirst
  simpa using hkeys

/-- In a catalog where each id has one entry, an id has the name of its entry. -/
theorem lookup_of_mem (keyed : (catalog.map (·.1)).Nodup) {id name : String}
    (hmem : (id, name) ∈ catalog) : catalog.lookup id = some name := by
  induction catalog with
  | nil => cases hmem
  | cons head rest ih =>
      rw [List.map_cons, List.nodup_cons] at keyed
      rcases List.mem_cons.1 hmem with rfl | hrest
      · simp
      · have hne : id ≠ head.1 := by
          rintro rfl
          exact keyed.1 (List.mem_map.2 ⟨_, hrest, rfl⟩)
        rw [List.lookup_cons, beq_false_of_ne hne]
        exact ih keyed.2 hrest

/-- In a catalog where each id has one entry, a permission that was found under a tidy name has that
name and no other. -/
theorem names_idUnder (keyed : (catalog.map (·.1)).Nodup) {key permissionId : String}
    (htidy : Text.IsTidy key) (hfind : idUnder catalog key = some permissionId) (name : String) :
    Names catalog permissionId name ↔ name = key := by
  obtain ⟨entry, hentry, rfl⟩ := Option.map_eq_some_iff.1 hfind
  have hkey : Text.lowercase entry.2 = key := by simpa using List.find?_some hentry
  have hlookup : catalog.lookup entry.1 = some entry.2 :=
    lookup_of_mem keyed (List.mem_of_find?_eq_some hentry)
  have hname : Text.IsTidy entry.2 := by
    rw [← Text.isTidy_lowercase, hkey]
    exact htidy
  unfold Names
  rw [hlookup]
  constructor
  · rintro ⟨_, ⟨⟩, -, rfl⟩
    rw [hname.trim, hkey]
  · rintro rfl
    exact ⟨entry.2, rfl, hname.trim.symm ▸ hname.ne, hname.trim.symm ▸ hkey⟩

/-- The names of the wanted permissions are, up to case, the names asked for, in their order. -/
theorem lowercase_normalize_namesOf (keyed : (catalog.map (·.1)).Nodup) {names ids : List String}
    (hknown : ∀ name ∈ normalize names, ¬IsUnknown catalog name)
    (hids : ∀ id, id ∈ ids ↔ id ∈ wantedIds catalog names) :
    (normalize (namesOf catalog ids)).map Text.lowercase =
      (normalize names).map Text.lowercase := by
  have htidy : ∀ key ∈ (normalize names).map Text.lowercase, Text.IsTidy key := by
    intro key hkey
    obtain ⟨name, hname, rfl⟩ := List.mem_map.1 hkey
    rw [Text.isTidy_lowercase]
    exact Text.isTidy_of_mem_trimmedTexts (mem_trimmedTexts_of_mem_normalize hname)
  refine (pairwise_lowercase_normalize _).eq_of_mem_iff (pairwise_lowercase_normalize _)
    fun name => ?_
  rw [mem_lowercase_normalize_namesOf]
  constructor
  · rintro ⟨permissionId, hid, hnames⟩
    obtain ⟨key, hkey, hfind⟩ := mem_wantedIds.1 ((hids permissionId).1 hid)
    rw [(names_idUnder keyed (htidy key hkey) hfind name).1 hnames]
    exact hkey
  · intro hkey
    obtain ⟨permissionId, hfind⟩ : ∃ permissionId, idUnder catalog name = some permissionId := by
      obtain ⟨spelled, hspelled, rfl⟩ := List.mem_map.1 hkey
      exact Option.ne_none_iff_exists'.1 fun hnone =>
        hknown spelled hspelled (idUnder_eq_none_iff.1 hnone)
    have hwanted : permissionId ∈ wantedIds catalog names := mem_wantedIds.2 ⟨name, hkey, hfind⟩
    exact ⟨permissionId, (hids permissionId).2 hwanted,
      (names_idUnder keyed (htidy name hkey) hfind name).2 rfl⟩

end Permission

/-! ## Resolving names -/

namespace Tables

/-- The catalog answers a lookup of the names it was asked for with the first permission that has
them. -/
theorem lookup_idsForNames {catalog : List (String × String)} {names : List String} {name : String}
    (hmem : name ∈ names) :
    (idsForNames catalog names).lookup (Text.lowercase name) =
      Permission.idUnder catalog (Text.lowercase name) := by
  have hwanted : (names.map Text.lowercase).contains (Text.lowercase name) = true :=
    List.contains_iff_mem.2 (List.mem_map_of_mem hmem)
  unfold idsForNames Permission.idUnder
  dsimp only
  induction catalog with
  | nil => rfl
  | cons entry rest ih =>
      by_cases hsame : Text.lowercase entry.2 = Text.lowercase name
      · simp only [List.filterMap_cons, hsame, hwanted, if_true, List.find?_cons, beq_self_eq_true,
          List.lookup_cons, Option.map_some]
      · have hne : (Text.lowercase name == Text.lowercase entry.2) = false :=
          beq_false_of_ne (Ne.symm hsame)
        have hskip : (Text.lowercase entry.2 == Text.lowercase name) = false :=
          beq_false_of_ne hsame
        rw [List.find?_cons, hskip, ← ih, List.filterMap_cons]
        split
        · rfl
        · rename_i found hfound
          split at hfound
          · rw [← Option.some.inj hfound, List.lookup_cons, hne]
          · cases hfound

end Tables

namespace Roles

variable {known : List (String × String)} {names : List String}

/-- Known names are resolved to their ids. -/
theorem resolveNames_eq_ok (hknown : ∀ name ∈ names, known.lookup (Text.lowercase name) ≠ none) :
    resolveNames known names =
      .ok ((names.map Text.lowercase).filterMap fun key => known.lookup key) := by
  induction names with
  | nil => rfl
  | cons name rest ih =>
      obtain ⟨id, hid⟩ := Option.ne_none_iff_exists'.1 (hknown name List.mem_cons_self)
      have hrest := ih fun other hmem => hknown other (List.mem_cons_of_mem _ hmem)
      simp only [resolveNames, hid, hrest, List.map_cons, List.filterMap_cons, Except.map]

/-- A name that is not known refuses them all. -/
theorem resolveNames_eq_error
    (hunknown : ∃ name ∈ names, known.lookup (Text.lowercase name) = none) :
    ∃ name ∈ names, known.lookup (Text.lowercase name) = none ∧
      resolveNames known names = .error (.unknownPermission name) := by
  induction names with
  | nil =>
      obtain ⟨name, hmem, -⟩ := hunknown
      cases hmem
  | cons head rest ih =>
      cases hhead : known.lookup (Text.lowercase head) with
      | none => exact ⟨head, List.mem_cons_self, hhead, by simp only [resolveNames, hhead]⟩
      | some id =>
          have hother : ∃ name ∈ rest, known.lookup (Text.lowercase name) = none := by
            obtain ⟨name, hmem, hnone⟩ := hunknown
            rcases List.mem_cons.1 hmem with rfl | hmem
            · rw [hhead] at hnone
              cases hnone
            · exact ⟨name, hmem, hnone⟩
          obtain ⟨name, hmem, hnone, herror⟩ := ih hother
          refine ⟨name, List.mem_cons_of_mem _ hmem, hnone, ?_⟩
          simp only [resolveNames, hhead, herror, Except.map]

end Roles
end Tenancy
