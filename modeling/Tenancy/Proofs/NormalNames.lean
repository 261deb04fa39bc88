import Tenancy.Proofs.PermissionNames

/-!
# Tenancy - Normal lists of names

Normalizing a list of names drops blank names and repetitions up to case and sorts the
rest.  Four laws say which list comes out: its names are tidy, their lowercase forms
ascend strictly, they are the ones of the list, and each name is spelled as where it
first occurs.  Only one list satisfies all four, so the laws leave nothing open.

Main definitions:

- `Permission.IsNormalFormOf`: the laws.
- `Permission.IsMergeOf`: inherited and own names of a role, joined.

Main results:

- Theorem `Permission.isNormalFormOf_iff`: normalizing gives the list that satisfies
  the laws.
- Theorem `Permission.merge_isMergeOf`: what joining inherited and own names gives.
- Theorem `permissionNames_lawful`: both, with the laws of repeating and of reordering.
-/

namespace Tenancy
namespace Permission

/-- The lowercase forms of the names in a list, trimmed and without blank ones. -/
def lowercases (names : List String) : List String :=
  (Text.trimmedTexts names).map Text.lowercase

/-- A list of names is the normal form of another: its names are tidy, their lowercase forms ascend
strictly and are those of the other list, and each name is the first with its lowercase form among
the trimmed names there. -/
structure IsNormalFormOf (kept names : List String) : Prop where
  tidy : ∀ name ∈ kept, Text.IsTidy name
  ascending : (kept.map Text.lowercase).Pairwise (· < ·)
  lowercases : ∀ key, key ∈ kept.map Text.lowercase ↔ key ∈ lowercases names
  first : ∀ name ∈ kept,
    (Text.trimmedTexts names).find? (Text.lowercase · == Text.lowercase name) = some name

/-- Inherited and own names are joined: own names are normal, and what is in effect is also normal,
has the lowercase forms of both, in the inherited spelling where there is one, and contains every
own name up to case. -/
structure IsMergeOf (merged : RolePermissions) (baseline explicit : List String) : Prop where
  own : merged.explicit = normalize explicit
  joined : IsNormalFormOf merged.effective (baseline ++ explicit)
  union : ∀ key, key ∈ merged.effective.map Text.lowercase ↔
    key ∈ lowercases baseline ∨ key ∈ lowercases explicit
  inheritedSpelling : ∀ name ∈ merged.effective, Text.lowercase name ∈ lowercases baseline →
    name ∈ normalize baseline
  ownSpelling : ∀ name ∈ merged.effective, Text.lowercase name ∉ lowercases baseline →
    name ∈ normalize explicit
  contains : ∀ name ∈ merged.explicit, ∃ held ∈ merged.effective,
    Text.lowercase held = Text.lowercase name

variable {names kept : List String} {name : String}

/-! ## Normal forms -/

/-- Normalizing keeps exactly the first trimmed name of each lowercase form. -/
theorem mem_normalize_iff :
    name ∈ normalize names ↔
      (Text.trimmedTexts names).find? (Text.lowercase · == Text.lowercase name) = some name := by
  have hfirst : ∀ kept ∈ normalize names,
      (Text.trimmedTexts names).find? (Text.lowercase · == Text.lowercase kept) = some kept :=
    fun kept hkept => Text.find_of_mem_keepFirst ((List.mergeSort_perm _ nameLE).mem_iff.1 hkept)
  refine ⟨hfirst name, fun hfind => ?_⟩
  obtain ⟨kept, hkept, hsame⟩ := exists_mem_normalize (List.mem_of_find?_eq_some hfind)
  have hother := hfirst kept hkept
  rw [hsame, hfind] at hother
  rw [Option.some.inj hother]
  exact hkept

/-- Normalizing gives a normal form. -/
theorem normalize_isNormalFormOf (names : List String) :
    IsNormalFormOf (normalize names) names where
  tidy _ hmem := Text.isTidy_of_mem_trimmedTexts (mem_trimmedTexts_of_mem_normalize hmem)
  ascending := pairwise_lowercase_normalize names
  lowercases _ := mem_lowercase_normalize
  first _ hmem := mem_normalize_iff.1 hmem

/-- The names of a normal form are found under their lowercase forms. -/
theorem IsNormalFormOf.eq_filterMap (normal : IsNormalFormOf kept names) :
    kept = (kept.map Text.lowercase).filterMap fun key =>
      (Text.trimmedTexts names).find? (Text.lowercase · == key) := by
  rw [List.filterMap_map]
  refine Eq.trans ?_ (List.filterMap_congr fun name hmem => (normal.first name hmem).symm)
  exact List.filterMap_some.symm

/-- Normalizing gives the only normal form. -/
theorem isNormalFormOf_iff : IsNormalFormOf kept names ↔ kept = normalize names := by
  constructor
  · intro normal
    have normalized := normalize_isNormalFormOf names
    have hsame : kept.map Text.lowercase = (normalize names).map Text.lowercase :=
      normal.ascending.eq_of_mem_iff normalized.ascending fun key =>
        (normal.lowercases key).trans (normalized.lowercases key).symm
    rw [normal.eq_filterMap, hsame]
    exact normalized.eq_filterMap.symm
  · rintro rfl
    exact normalize_isNormalFormOf names

/-- The lowercase forms of a reordered list are the same. -/
theorem mem_lowercases_of_perm {others : List String} (hperm : names.Perm others) {key : String} :
    key ∈ lowercases names ↔ key ∈ lowercases others :=
  (((hperm.map Text.trim).filter _).map Text.lowercase).mem_iff

/-! ## Inherited names -/

section Merge

variable {baseline explicit : List String}

/-- The lowercase forms of two lists in a row are those of both. -/
theorem mem_lowercases_append {key : String} :
    key ∈ lowercases (baseline ++ explicit) ↔
      key ∈ lowercases baseline ∨ key ∈ lowercases explicit := by
  rw [lowercases, Text.trimmedTexts_append, List.map_append, List.mem_append]
  rfl

/-- No name of a list has a lowercase form that is not among those of the list. -/
theorem find_eq_none_of_not_mem_lowercases {key : String} (hnone : key ∉ lowercases baseline) :
    (Text.trimmedTexts baseline).find? (Text.lowercase · == key) = none := by
  rw [List.find?_eq_none]
  intro name hmem hsame
  exact hnone (List.mem_map.2 ⟨name, hmem, by simpa using hsame⟩)

/-- A name of the first list stays as it is spelled there when the second list follows. -/
theorem mem_normalize_of_mem_append (hmem : name ∈ normalize (baseline ++ explicit))
    (hkey : Text.lowercase name ∈ lowercases baseline) : name ∈ normalize baseline := by
  rw [mem_normalize_iff, Text.trimmedTexts_append, List.find?_append] at hmem
  obtain ⟨spelled, hspelled, hsame⟩ := List.mem_map.1 hkey
  cases hfind : (Text.trimmedTexts baseline).find?
      (Text.lowercase · == Text.lowercase name) with
  | none =>
      have hmissed := List.find?_eq_none.1 hfind spelled hspelled
      simp [hsame] at hmissed
  | some found =>
      rw [hfind, Option.some_or] at hmem
      rw [mem_normalize_iff, hfind, hmem]

/-- A name that is not in the first list stays as it is spelled in the second. -/
theorem mem_normalize_of_not_mem_append (hmem : name ∈ normalize (baseline ++ explicit))
    (hkey : Text.lowercase name ∉ lowercases baseline) : name ∈ normalize explicit := by
  rw [mem_normalize_iff, Text.trimmedTexts_append, List.find?_append,
    find_eq_none_of_not_mem_lowercases hkey, Option.none_or] at hmem
  exact mem_normalize_iff.2 hmem

/-- Merging joins inherited and own names. -/
theorem merge_isMergeOf (baseline explicit : List String) :
    IsMergeOf (merge baseline explicit) baseline explicit where
  own := rfl
  joined := normalize_isNormalFormOf _
  union _ := mem_lowercase_normalize.trans mem_lowercases_append
  inheritedSpelling _ hmem hkey := mem_normalize_of_mem_append hmem hkey
  ownSpelling _ hmem hkey := mem_normalize_of_not_mem_append hmem hkey
  contains name hmem := by
    have hkey : Text.lowercase name ∈ (normalize explicit).map Text.lowercase :=
      List.mem_map_of_mem hmem
    exact List.mem_map.1
      (lowercase_normalize_mono (List.subset_append_right baseline explicit) hkey)

end Merge
end Permission

/-- Normalizing gives the one list of names that satisfies the laws of normal forms; normalizing it
again changes nothing, and of a reordered list only spellings may differ.  Merging joins inherited
and own names. -/
theorem permissionNames_lawful :
    (∀ kept names, Permission.IsNormalFormOf kept names ↔ kept = Permission.normalize names) ∧
    (∀ names, Permission.normalize (Permission.normalize names) = Permission.normalize names) ∧
    (∀ names others : List String, names.Perm others →
      (Permission.normalize names).map Text.lowercase =
        (Permission.normalize others).map Text.lowercase) ∧
    ∀ baseline explicit,
      Permission.IsMergeOf (Permission.merge baseline explicit) baseline explicit := by
  refine ⟨fun _ _ => Permission.isNormalFormOf_iff, Permission.normalize_normalize, ?_,
    Permission.merge_isMergeOf⟩
  intro names others hperm
  exact Permission.lowercase_normalize_ext fun _ => Permission.mem_lowercases_of_perm hperm

/-- Two orders of one list are normalized to different spellings of the same names. -/
theorem permissionNames_lawful_spellings :
    ["Read ", "WRITE", "", "read"].Perm ["read", "WRITE", "Read ", ""] ∧
      Permission.normalize ["Read ", "WRITE", "", "read"] = ["Read", "WRITE"] ∧
      Permission.normalize ["read", "WRITE", "Read ", ""] = ["read", "WRITE"] ∧
      (Permission.normalize ["Read ", "WRITE", "", "read"]).map Text.lowercase =
        (Permission.normalize ["read", "WRITE", "Read ", ""]).map Text.lowercase := by
  have hperm : ["Read ", "WRITE", "", "read"].Perm ["read", "WRITE", "Read ", ""] := by decide
  exact ⟨hperm, Permission.normalize_of_sorted (by decide +kernel) (by decide +kernel),
    Permission.normalize_of_sorted (by decide +kernel) (by decide +kernel),
    permissionNames_lawful.2.2.1 _ _ hperm⟩

end Tenancy
