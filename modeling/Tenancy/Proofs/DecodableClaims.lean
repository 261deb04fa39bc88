import Tenancy.Proofs.PermissionNames
import Tenancy.Token

/-!
# Tenancy - Decoding the permissions claim

The permissions claim is the normalized names joined by spaces.  Nothing is escaped, so
splitting the claim at single spaces gives the names back exactly if none of them has a
space inside, and a name with a space inside reads as several names.

Main definitions:

- `Text.splitAtSpaces`: the pieces of a text between single spaces.
- `Permission.WithoutSpaces`: names that have no spaces once they are normalized.

Main results:

- Theorem `Text.splitAtSpaces_intercalate_iff`: when splitting undoes joining.
- Theorem `TokenClaims.filter_permissions`: there is one permissions claim, or none.
- Theorem `permissions_decodable`: what the permissions claim tells of the names.
- Theorem `not_permissions_decodable_space`: a name with a space cannot be told from two
  names.
-/

namespace Tenancy

/-! ## Splitting at spaces -/

namespace Text

/-- The pieces of a text between single spaces. -/
def splitAtSpaces (s : String) : List String :=
  (s.toList.splitOn ' ').map String.ofList

/-- No piece contains what was split at. -/
theorem not_mem_of_mem_splitOn {separator : Char} {s piece : List Char}
    (hpiece : piece ∈ s.splitOn separator) : separator ∉ piece := by
  induction s generalizing piece with
  | nil =>
      rw [List.splitOn_nil, List.mem_singleton] at hpiece
      simp [hpiece]
  | cons c rest ih =>
      rw [List.splitOn_cons_eq_if_modifyHead] at hpiece
      split at hpiece
      · rcases List.mem_cons.1 hpiece with rfl | hlater
        · exact List.not_mem_nil
        · exact ih hlater
      · rename_i hother
        obtain ⟨first, later, hsplit⟩ :=
          List.exists_cons_of_ne_nil (List.splitOn_ne_nil separator rest)
        rw [hsplit, List.modifyHead_cons] at hpiece
        rcases List.mem_cons.1 hpiece with rfl | hlater
        · have hfirst : separator ∉ first := ih (by simp [hsplit])
          rw [List.mem_cons, not_or]
          exact ⟨fun hsame => hother (by simp [hsame]), hfirst⟩
        · exact ih (hsplit ▸ List.mem_cons_of_mem _ hlater)

/-- Splitting at spaces undoes joining by spaces exactly if no part has a space. -/
theorem splitAtSpaces_intercalate_iff {parts : List String} (hsome : parts ≠ []) :
    splitAtSpaces (" ".intercalate parts) = parts ↔ ∀ part ∈ parts, ' ' ∉ part.toList := by
  have hspace : " ".toList = [' '] := rfl
  rw [splitAtSpaces, String.toList_intercalate, hspace]
  constructor
  · intro hsplit part hpart
    rw [← hsplit] at hpart
    obtain ⟨piece, hpiece, rfl⟩ := List.mem_map.1 hpart
    rw [String.toList_ofList]
    exact not_mem_of_mem_splitOn hpiece
  · intro hspaces
    rw [List.splitOn_intercalate ' ' (by simpa using hspaces) (by simpa using hsome),
      List.map_map]
    simp

end Text

/-! ## The permissions claim -/

/-- No name has a space once the names are normalized. -/
def Permission.WithoutSpaces (names : List String) : Prop :=
  ∀ name ∈ normalize names, ' ' ∉ name.toList

instance (names : List String) : Decidable (Permission.WithoutSpaces names) :=
  inferInstanceAs (Decidable (∀ name ∈ Permission.normalize names, ' ' ∉ name.toList))

namespace TokenClaims

variable {names others : List String} {context : Context}

/-- The permissions claim depends on the names alone. -/
theorem permissions_ofPermissions (names : List String) (context : Context) :
    (ofPermissions names context).permissions = permissionsText names := by
  unfold ofPermissions
  split <;> rfl

/-- There is a permissions claim exactly if some name is left after normalizing. -/
theorem permissionsText_eq_none_iff :
    permissionsText names = none ↔ Permission.normalize names = [] := by
  unfold permissionsText
  split <;> simp_all

/-- The permissions claim is the normalized names joined by spaces. -/
theorem permissionsText_eq_some {value : String} (hvalue : permissionsText names = some value) :
    Permission.normalize names ≠ [] ∧ value = " ".intercalate (Permission.normalize names) := by
  unfold permissionsText at hvalue
  split at hvalue
  · cases hvalue
  · rename_i hsome
    exact ⟨hsome, (Option.some.inj hvalue).symm⟩

/-- There is one permissions claim, or none. -/
theorem filter_permissions (names : List String) (context : Context) :
    (ofPermissions names context).toList.filter (·.name == "permissions") =
      ((permissionsText names).map (Claim.mk "permissions")).toList := by
  rw [← permissions_ofPermissions names context]
  obtain ⟨permissions, organizationId, organizationSlug, organizationName⟩ :=
    ofPermissions names context
  cases permissions <;> cases organizationId <;> cases organizationSlug <;>
    cases organizationName <;> rfl

/-- So it is the only claim of that name. -/
theorem mem_toList_permissions {claim : Claim} :
    claim ∈ (ofPermissions names context).toList ∧ claim.name = "permissions" ↔
      ∃ value, permissionsText names = some value ∧ ⟨"permissions", value⟩ = claim := by
  have hfilter : claim ∈ (ofPermissions names context).toList.filter (·.name == "permissions") ↔
      claim ∈ (ofPermissions names context).toList ∧ claim.name = "permissions" := by
    simp
  rw [← hfilter, filter_permissions, Option.mem_toList, Option.map_eq_some_iff]

/-- Without spaces, names are read off the permissions claim. -/
theorem normalize_of_permissionsText (hnames : Permission.WithoutSpaces names)
    (hothers : Permission.WithoutSpaces others)
    (hsame : permissionsText names = permissionsText others) :
    Permission.normalize names = Permission.normalize others := by
  cases hvalue : permissionsText names with
  | none =>
      rw [permissionsText_eq_none_iff.1 hvalue, permissionsText_eq_none_iff.1 (hsame ▸ hvalue)]
  | some value =>
      obtain ⟨hsome, hjoined⟩ := permissionsText_eq_some hvalue
      obtain ⟨hothersSome, hothersJoined⟩ := permissionsText_eq_some (hsame ▸ hvalue)
      rw [← (Text.splitAtSpaces_intercalate_iff hsome).2 hnames, ← hjoined, hothersJoined,
        (Text.splitAtSpaces_intercalate_iff hothersSome).2 hothers]

end TokenClaims

/-- For every list of names and every context: there is a permissions claim exactly if some name is
left after normalizing; splitting it at single spaces gives the normalized names exactly if none of
them has a space; and two lists without such names that are rendered to the same claim have the same
normalized names, so they have the same names up to case. -/
theorem permissions_decodable (names : List String) (context : Context) :
    ((∃ claim ∈ (TokenClaims.ofPermissions names context).toList, claim.name = "permissions") ↔
      Permission.normalize names ≠ []) ∧
    (∀ claim ∈ (TokenClaims.ofPermissions names context).toList, claim.name = "permissions" →
      (Text.splitAtSpaces claim.value = Permission.normalize names ↔
        Permission.WithoutSpaces names)) ∧
    ∀ others second, Permission.WithoutSpaces names → Permission.WithoutSpaces others →
      (TokenClaims.ofPermissions names context).permissions =
        (TokenClaims.ofPermissions others second).permissions →
      Permission.normalize names = Permission.normalize others ∧
        ∀ key, key ∈ (Text.trimmedTexts names).map Text.lowercase ↔
          key ∈ (Text.trimmedTexts others).map Text.lowercase := by
  refine ⟨?emitted, ?split, ?same⟩
  case emitted =>
    simp only [TokenClaims.mem_toList_permissions]
    rw [ne_eq, ← TokenClaims.permissionsText_eq_none_iff, ← ne_eq, Option.ne_none_iff_exists']
    constructor
    · rintro ⟨_, value, hvalue, -⟩
      exact ⟨value, hvalue⟩
    · rintro ⟨value, hvalue⟩
      exact ⟨_, value, hvalue, rfl⟩
  case split =>
    intro claim hmem hname
    obtain ⟨value, hvalue, rfl⟩ := TokenClaims.mem_toList_permissions.1 ⟨hmem, hname⟩
    obtain ⟨hsome, rfl⟩ := TokenClaims.permissionsText_eq_some hvalue
    exact Text.splitAtSpaces_intercalate_iff hsome
  case same =>
    intro others second hnames hothers hsame
    rw [TokenClaims.permissions_ofPermissions, TokenClaims.permissions_ofPermissions] at hsame
    have hnormalized := TokenClaims.normalize_of_permissionsText hnames hothers hsame
    refine ⟨hnormalized, fun key => ?_⟩
    rw [← Permission.mem_lowercase_normalize, hnormalized, Permission.mem_lowercase_normalize]

/-- Names that are padded in one list, and repeated with other letters in another. -/
theorem permissions_decodable_repeated :
    Text.splitAtSpaces "docs:read Docs:write" = Permission.normalize ["docs:read", "Docs:write "] ∧
      ∀ key, key ∈ (Text.trimmedTexts ["docs:read", "Docs:write "]).map Text.lowercase ↔
        key ∈ (Text.trimmedTexts ["docs:read", "Docs:write", "", "DOCS:WRITE"]).map
          Text.lowercase := by
  have hpadded : Permission.normalize ["docs:read", "Docs:write "] = ["docs:read", "Docs:write"] :=
    Permission.normalize_of_sorted (by decide +kernel) (by decide +kernel)
  have hrepeated : Permission.normalize ["docs:read", "Docs:write", "", "DOCS:WRITE"] =
      ["docs:read", "Docs:write"] :=
    Permission.normalize_of_sorted (by decide +kernel) (by decide +kernel)
  have hspaces : Permission.WithoutSpaces ["docs:read", "Docs:write "] := by
    rw [Permission.WithoutSpaces, hpadded]
    decide
  obtain ⟨-, hsplit, hsame⟩ :=
    permissions_decodable ["docs:read", "Docs:write "] ⟨some "a", none, none⟩
  constructor
  · refine (hsplit ⟨"permissions", "docs:read Docs:write"⟩ ?_ rfl).2 hspaces
    rw [TokenClaims.ofPermissions, TokenClaims.permissionsText, hpadded]
    decide
  · refine (hsame ["docs:read", "Docs:write", "", "DOCS:WRITE"] .empty hspaces ?_ ?_).2
    · rw [Permission.WithoutSpaces, hrepeated]
      decide
    · rw [TokenClaims.permissions_ofPermissions, TokenClaims.permissions_ofPermissions,
        TokenClaims.permissionsText, TokenClaims.permissionsText, hpadded, hrepeated]

/-- A name with a space inside has the claim of two names, and is read as these. -/
theorem not_permissions_decodable_space :
    (TokenClaims.ofPermissions ["a b"] .empty).toList = [⟨"permissions", "a b"⟩] ∧
      (TokenClaims.ofPermissions ["a", "b"] .empty).toList = [⟨"permissions", "a b"⟩] ∧
      Text.splitAtSpaces "a b" ≠ Permission.normalize ["a b"] ∧
      "a b" ∈ (Text.trimmedTexts ["a b"]).map Text.lowercase ∧
      "a b" ∉ (Text.trimmedTexts ["a", "b"]).map Text.lowercase := by
  have hone : Permission.normalize ["a b"] = ["a b"] :=
    Permission.normalize_of_sorted (by decide +kernel) (by decide)
  have htwo : Permission.normalize ["a", "b"] = ["a", "b"] :=
    Permission.normalize_of_sorted (by decide +kernel) (by decide +kernel)
  refine ⟨?_, ?_, ?_, by decide +kernel, by decide +kernel⟩
  · rw [TokenClaims.ofPermissions, TokenClaims.permissionsText, hone]
    decide
  · rw [TokenClaims.ofPermissions, TokenClaims.permissionsText, htwo]
    decide
  · rw [hone]
    decide

end Tenancy
