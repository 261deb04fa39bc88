import Tenancy.Proofs.NormalForms
import Tenancy.Service.Validation

/-!
# Tenancy - What passes the checks on requests

A check on a request returns a value in its stored form or refuses the request.
This file says of each check what the values are that it returns, and that it
returns them exactly then.

Main definitions:

- `Text.IsTidyWithin`: tidy texts of limited length.
- `Text.IsPatched`: what becomes of a name under a patch.
- `Limits.AllowsMetadata`: metadata within limits.

Main results:

- Theorem `checkName_eq_ok_iff`, `Limits.checkDescription_eq_ok_iff`: names and
  descriptions are trimmed texts within their limits.
- Theorem `Limits.checkSlug_eq_ok_iff`: slugs are tokens within their limit.
- Theorem `Limits.checkMetadata_eq_ok_iff`: what metadata is let through.
- Theorem `checkEmail_eq_ok_iff`: addresses are valid ones in their normal form.
-/

namespace Tenancy

/-! ## Names and descriptions -/

/-- Tidy texts of at most `limit` characters. -/
structure Text.IsTidyWithin (limit : Nat) (s : String) : Prop where
  tidy : IsTidy s
  length_le : length s ≤ limit

/-- A trimmed text is tidy exactly if it is not empty. -/
theorem Text.isTidy_trim_iff {s : String} : IsTidy (trim s) ↔ trim s ≠ "" :=
  ⟨fun htidy => htidy.ne, fun hne => ⟨trim_trim s, hne⟩⟩

/-- The check of a name returns the trimmed text, if that is tidy and not too long. -/
theorem checkName_eq_ok_iff {field text name : String} {limit : Nat} :
    checkName field limit text = .ok name ↔
      name = Text.trim text ∧ Text.IsTidyWithin limit name := by
  unfold checkName
  dsimp only
  by_cases hempty : Text.trim text = ""
  · rw [if_pos hempty]
    constructor
    · intro hcheck
      cases hcheck
    · rintro ⟨rfl, hname⟩
      exact absurd hempty hname.tidy.ne
  · rw [if_neg hempty]
    by_cases hlong : limit < Text.length (Text.trim text)
    · rw [if_pos hlong]
      constructor
      · intro hcheck
        cases hcheck
      · rintro ⟨rfl, hname⟩
        exact absurd hname.length_le (Nat.not_le.2 hlong)
    · rw [if_neg hlong]
      constructor
      · intro hcheck
        rw [← Except.ok.inj hcheck]
        exact ⟨rfl, Text.isTidy_trim_iff.2 hempty, Nat.not_lt.1 hlong⟩
      · rintro ⟨rfl, -⟩
        rfl

/-- What becomes of a name under a patch: the old name, or the trimmed one that is asked for, which
is tidy and not too long. -/
structure Text.IsPatched (limit : Nat) (asked : Option String) (old name : String) : Prop where
  name_eq : name = (asked.map trim).getD old
  within : ∀ text, asked = some text → IsTidyWithin limit (trim text)

/-- Where no name is asked for, the old one stays. -/
theorem Text.IsPatched.none {limit : Nat} {old : String} : IsPatched limit none old old where
  name_eq := rfl
  within := nofun

/-- A name that is asked for and passes the check takes the place of the old one. -/
theorem Text.IsPatched.of_checkName {field text name old : String} {limit : Nat}
    (hcheck : checkName field limit text = .ok name) : IsPatched limit (some text) old name where
  name_eq := (checkName_eq_ok_iff.1 hcheck).1
  within := by
    rintro _ ⟨⟩
    obtain ⟨rfl, hwithin⟩ := checkName_eq_ok_iff.1 hcheck
    exact hwithin

namespace Limits

variable {limits : Limits}

/-- The check of a description returns none for a blank text, and else the trimmed text, if that is
not too long. -/
theorem checkDescription_eq_ok_iff {text description : Option String} :
    limits.checkDescription text = .ok description ↔
      description = (text.map Text.trim).filter (· ≠ "") ∧
        ∀ kept, description = some kept →
          Text.IsTidyWithin limits.roleDescriptionLength kept := by
  unfold checkDescription
  cases text with
  | none =>
      constructor
      · intro hcheck
        rw [← Except.ok.inj hcheck]
        exact ⟨rfl, nofun⟩
      · rintro ⟨rfl, -⟩
        rfl
  | some text =>
      by_cases hempty : Text.trim text = ""
      · simp only [Option.map_some, hempty, if_true]
        constructor
        · intro hcheck
          rw [← Except.ok.inj hcheck]
          exact ⟨rfl, nofun⟩
        · rintro ⟨rfl, -⟩
          rfl
      · have hkept : (some (Text.trim text)).filter (· ≠ "") = some (Text.trim text) := by
          simp [Option.filter, hempty]
        simp only [Option.map_some, if_neg hempty, hkept]
        by_cases hlong : limits.roleDescriptionLength < Text.length (Text.trim text)
        · rw [if_pos hlong]
          constructor
          · intro hcheck
            cases hcheck
          · rintro ⟨rfl, hwithin⟩
            exact absurd (hwithin _ rfl).length_le (Nat.not_le.2 hlong)
        · rw [if_neg hlong]
          constructor
          · intro hcheck
            rw [← Except.ok.inj hcheck]
            refine ⟨rfl, ?_⟩
            rintro _ ⟨⟩
            exact ⟨Text.isTidy_trim_iff.2 hempty, Nat.not_lt.1 hlong⟩
          · rintro ⟨rfl, -⟩
            rfl

/-! ## Slugs -/

/-- The check of a slug returns the trimmed lowercase text, if that is a token and not too long. -/
theorem checkSlug_eq_ok_iff {text slug : String} :
    limits.checkSlug text = .ok slug ↔
      slug = Text.lowercase (Text.trim text) ∧ Text.Slug.IsToken slug.toList ∧
        Text.length slug ≤ limits.slugLength := by
  rw [← Text.Slug.normalize_eq_ok_iff]
  unfold checkSlug
  cases Text.Slug.normalize limits.slugLength text with
  | error flaw => exact ⟨nofun, nofun⟩
  | ok token =>
      constructor
      · exact fun hslug => congrArg Except.ok (Except.ok.inj hslug)
      · exact fun hslug => congrArg Except.ok (Except.ok.inj hslug)

/-! ## Metadata -/

/-- Metadata within limits: no key is blank, keys and values are not too long, and neither is the
whole as it is written out. -/
structure AllowsMetadata (limits : Limits) (metadata : Metadata) : Prop where
  keys : ∀ entry ∈ metadata.entries, Text.trim entry.1 ≠ ""
  keyLengths : ∀ entry ∈ metadata.entries, Text.length entry.1 ≤ limits.metadataKeyLength
  valueLengths : ∀ entry ∈ metadata.entries, Text.length entry.2 ≤ limits.metadataValueLength
  size : metadata.encodedSize ≤ limits.metadataBytes

/-- Nothing is wrong with an entry exactly if its key is not blank and neither its key nor its value
is too long. -/
theorem metadataFlaw?_eq_none_iff {entry : String × String} :
    limits.metadataFlaw? entry = none ↔
      Text.trim entry.1 ≠ "" ∧ Text.length entry.1 ≤ limits.metadataKeyLength ∧
        Text.length entry.2 ≤ limits.metadataValueLength := by
  unfold metadataFlaw? Text.isBlankText
  by_cases hblank : Text.trim entry.1 = ""
  · simp [hblank]
  · by_cases hkey : limits.metadataKeyLength < Text.length entry.1
    · simp [hblank, hkey, Nat.not_le.2 hkey]
    · by_cases hvalue : limits.metadataValueLength < Text.length entry.2
      · simp [hblank, hkey, hvalue]
      · simp [hblank, hkey, hvalue, Nat.not_lt.1 hkey, Nat.not_lt.1 hvalue]

/-- Metadata passes the check exactly if it is within limits. -/
theorem checkMetadata_eq_ok_iff {metadata : Metadata} :
    limits.checkMetadata metadata = .ok () ↔ limits.AllowsMetadata metadata := by
  unfold checkMetadata
  split
  · rename_i flaw hflaw
    obtain ⟨entry, hentry, hfound⟩ := List.exists_of_findSome?_eq_some hflaw
    constructor
    · intro hcheck
      cases hcheck
    · intro hallows
      have hnone := metadataFlaw?_eq_none_iff.2
        ⟨hallows.keys entry hentry, hallows.keyLengths entry hentry,
          hallows.valueLengths entry hentry⟩
      rw [hnone] at hfound
      cases hfound
  · rename_i hnone
    have hentries := fun entry hentry =>
      metadataFlaw?_eq_none_iff.1 (List.findSome?_eq_none_iff.1 hnone entry hentry)
    by_cases hlarge : limits.metadataBytes < metadata.encodedSize
    · rw [if_pos hlarge]
      constructor
      · intro hcheck
        cases hcheck
      · intro hallows
        exact absurd hallows.size (Nat.not_le.2 hlarge)
    · rw [if_neg hlarge]
      constructor
      · intro _
        exact
          { keys := fun entry hentry => (hentries entry hentry).1
            keyLengths := fun entry hentry => (hentries entry hentry).2.1
            valueLengths := fun entry hentry => (hentries entry hentry).2.2
            size := Nat.not_lt.1 hlarge }
      · intro _
        rfl

end Limits

/-! ## Email addresses -/

/-- The check of an address returns its normal form, if that is valid. -/
theorem checkEmail_eq_ok_iff {address email : String} :
    checkEmail address = .ok email ↔
      email = Text.Email.normalize address ∧ Text.Email.isValid email = true := by
  unfold checkEmail
  dsimp only
  by_cases hvalid : Text.Email.isValid (Text.Email.normalize address) = true
  · rw [if_pos hvalid]
    constructor
    · intro hcheck
      rw [← Except.ok.inj hcheck]
      exact ⟨rfl, hvalid⟩
    · rintro ⟨rfl, -⟩
      rfl
  · rw [if_neg hvalid]
    constructor
    · intro hcheck
      cases hcheck
    · rintro ⟨rfl, hother⟩
      exact absurd hother hvalid

/-- An address that was returned by its check is in normal form. -/
theorem normalize_of_checkEmail_eq_ok {address email : String}
    (hcheck : checkEmail address = .ok email) : Text.Email.normalize email = email := by
  obtain ⟨rfl, -⟩ := checkEmail_eq_ok_iff.1 hcheck
  exact Text.Email.normalize_normalize address

end Tenancy
