import Tenancy.Proofs.LowercaseBlanks
import Tenancy.Text.Email
import Tenancy.Text.Slug

/-!
# Tenancy - Normal forms of texts

Addresses and slugs are kept trimmed and in lowercase.  What is in lowercase stays
as it is when it is lowercased again, also where a sigma ends a word, so a stored
address or slug is the normal form of itself.  A stored slug is a token: no capital
letter of ASCII passes the check, because lowercasing leaves none.

Main definitions:

- `Text.hasLower`: characters with a lowercase other than themselves.
- `Text.Slug.IsToken`: texts of lowercase letters, digits, dots, underscores and
  hyphens that begin with a letter or digit.

Main results:

- Theorem `Text.lowercase_lowercase`: lowercasing twice is lowercasing once.
- Theorem `Text.Email.normalize_normalize`: a normal address is its own normal form.
- Theorem `Text.Slug.normalize_eq_ok_iff`: the texts that spell a slug, and which.
-/

namespace Tenancy
namespace Text

/-! ## Characters in lowercase -/

/-- The capital I with dot above, which the table leaves out, as a run of its own. -/
def dottedRun : CaseRun :=
  { first := 0x130, last := 0x130, stride := 1, target := 0x69 }

/-- Whether a run covers none of the characters that another run maps to. -/
def CaseRun.misses (run other : CaseRun) : Bool :=
  other.target + (other.last - other.first) < run.first || run.last < other.target ||
    ((other.stride == 2 || other.first == other.last) && run.stride == 2 &&
      (other.target + run.first) % 2 == 1)

/-- A run covers the code points in its range that its stride meets. -/
theorem CaseRun.covers_iff {run : CaseRun} {code : Nat} :
    run.covers code = true ↔
      run.first ≤ code ∧ code ≤ run.last ∧ (code - run.first) % run.stride = 0 := by
  simp only [covers, Bool.and_eq_true, decide_eq_true_eq, beq_iff_eq, and_assoc]

/-- A run that misses another one covers nothing that the other maps to. -/
theorem CaseRun.covers_eq_false {run other : CaseRun} (hmisses : run.misses other = true)
    {code : Nat} (hcovers : other.covers code = true) :
    run.covers (other.target + (code - other.first)) = false := by
  obtain ⟨hfirst, hlast, hstride⟩ := covers_iff.1 hcovers
  rw [Bool.eq_false_iff]
  intro hcovered
  obtain ⟨habove, hbelow, hremainder⟩ := covers_iff.1 hcovered
  simp only [misses, Bool.or_eq_true, Bool.and_eq_true, decide_eq_true_eq, beq_iff_eq] at hmisses
  rcases hmisses with (hbefore | hafter) | ⟨⟨hsteps, htwo⟩, hodd⟩
  · omega
  · omega
  · -- Both runs go in steps of two, and they are out of step with each other.
    rw [htwo] at hremainder
    rcases hsteps with hsteps | hsingle
    · rw [hsteps] at hstride
      omega
    · omega

/-- No run of the table covers what a run maps to, and none maps to the capital I with dot above. -/
theorem caseRuns_miss :
    caseRuns.all (fun other => (dottedRun :: caseRuns).all (·.misses other)) = true := by
  decide +kernel

/-- Whether a character has a lowercase other than itself. -/
def hasLower (c : Char) : Bool :=
  (dottedRun :: caseRuns).any (·.covers c.toNat)

/-- The null character is in lowercase. -/
theorem hasLower_null : hasLower '\x00' = false := by
  decide +kernel

/-- A character without a lowercase other than itself is its own lowercase. -/
theorem lowerChar_of_not_hasLower {c : Char} (hlower : hasLower c = false) : lowerChar c = c := by
  have hnone : caseRuns.find? (·.covers c.toNat) = none := by
    rw [List.find?_eq_none]
    intro run hrun hcovers
    rw [hasLower, List.any_eq_false] at hlower
    exact hlower run (List.mem_cons_of_mem _ hrun) hcovers
  simp only [lowerChar, hnone]

/-- The lowercase of a character is in lowercase. -/
theorem hasLower_lowerChar {c : Char} (hdotted : c ≠ 'İ') : hasLower (lowerChar c) = false := by
  unfold lowerChar
  split
  · rename_i run hfind
    have hcovers : run.covers c.toNat = true := by simpa using List.find?_some hfind
    rcases toNat_ofNat_or (run.target + (c.toNat - run.first)) with hcode | hnull
    · rw [hasLower, hcode, List.any_eq_false]
      intro other hother
      have hmisses := List.all_eq_true.1
        (List.all_eq_true.1 caseRuns_miss run (List.mem_of_find?_eq_some hfind)) other hother
      simp [CaseRun.covers_eq_false hmisses hcovers]
    · rw [hnull]
      exact hasLower_null
  · rename_i hnone
    rw [hasLower, List.any_cons, Bool.or_eq_false_iff]
    constructor
    · -- The only character that this run covers is the one that is ruled out.
      rw [Bool.eq_false_iff]
      intro hcovers
      obtain ⟨hfirst, hlast, -⟩ := CaseRun.covers_iff.1 hcovers
      have hcode : c.toNat = 0x130 := Nat.le_antisymm hlast hfirst
      exact hdotted (Char.toNat_inj.1 hcode)
    · rw [List.any_eq_false]
      exact fun run hrun => List.find?_eq_none.1 hnone run hrun

/-- In any context, a character becomes characters in lowercase. -/
theorem hasLower_of_mem_lowerInContext {before after : List Char} {c lower : Char}
    (hmem : lower ∈ lowerInContext before c after) : hasLower lower = false := by
  unfold lowerInContext at hmem
  split at hmem
  · rw [List.mem_singleton.1 hmem]
    split <;> decide +kernel
  · split at hmem
    · rcases List.mem_pair.1 hmem with rfl | rfl <;> decide +kernel
    · rename_i hdotted
      rw [List.mem_singleton.1 hmem]
      exact hasLower_lowerChar hdotted

/-- A character in lowercase stays as it is in any context. -/
theorem lowerInContext_of_not_hasLower {c : Char} (hlower : hasLower c = false)
    (before after : List Char) : lowerInContext before c after = [c] := by
  have hsigma : c ≠ 'Σ' := by
    rintro rfl
    exact absurd hlower (by decide +kernel)
  have hdotted : c ≠ 'İ' := by
    rintro rfl
    exact absurd hlower (by decide +kernel)
  rw [lowerInContext, if_neg hsigma, if_neg hdotted, lowerChar_of_not_hasLower hlower]

/-! ## Texts in lowercase -/

/-- The characters of a lowercase text are in lowercase. -/
theorem hasLower_of_mem_lowerFrom {before s : List Char} {c : Char}
    (hmem : c ∈ lowerFrom before s) : hasLower c = false := by
  induction s generalizing before with
  | nil => cases hmem
  | cons head rest ih =>
      rw [lowerFrom] at hmem
      rcases List.mem_append.1 hmem with hhead | hrest
      · exact hasLower_of_mem_lowerInContext hhead
      · exact ih hrest

/-- A text whose characters are in lowercase stays as it is. -/
theorem lowerFrom_eq_self {before s : List Char} (hlower : ∀ c ∈ s, hasLower c = false) :
    lowerFrom before s = s := by
  induction s generalizing before with
  | nil => rfl
  | cons head rest ih =>
      have hhead := lowerInContext_of_not_hasLower (hlower head List.mem_cons_self) before rest
      have hrest : lowerFrom (head :: before) rest = rest :=
        ih fun c hmem => hlower c (List.mem_cons_of_mem _ hmem)
      rw [lowerFrom, hhead, hrest, List.singleton_append]

/-- The characters of a lowercase text are in lowercase. -/
theorem hasLower_of_mem_lowercase {s : String} {c : Char} (hmem : c ∈ (lowercase s).toList) :
    hasLower c = false := by
  rw [lowercase, String.toList_ofList] at hmem
  exact hasLower_of_mem_lowerFrom hmem

/-- Lowercasing twice is lowercasing once. -/
@[simp]
theorem lowercase_lowercase (s : String) : lowercase (lowercase s) = lowercase s := by
  have hsame : lowerList (lowercase s).toList = (lowercase s).toList :=
    lowerFrom_eq_self fun _ hmem => hasLower_of_mem_lowercase hmem
  rw [lowercase, hsame, String.ofList_toList]

/-- The lowercase of a trimmed text is trimmed. -/
@[simp]
theorem trim_lowercase_trim (s : String) : trim (lowercase (trim s)) = lowercase (trim s) :=
  (trim_lowercase_eq_self_iff (trim s)).2 (trim_trim s)

/-! ## Addresses -/

/-- A normal address is its own normal form. -/
theorem Email.normalize_normalize (address : String) :
    Email.normalize (Email.normalize address) = Email.normalize address := by
  simp [Email.normalize]

/-! ## Slugs -/

namespace Slug

/-- A lowercase letter or a digit of ASCII. -/
def opensToken (c : Char) : Bool :=
  ('a' ≤ c && c ≤ 'z') || ('0' ≤ c && c ≤ '9')

/-- A character that may follow in a token: also a dot, an underscore or a hyphen. -/
def continuesToken (c : Char) : Bool :=
  opensToken c || c == '.' || c == '_' || c == '-'

/-- A letter or digit, then letters, digits, dots, underscores and hyphens, all in lowercase. -/
inductive IsToken : List Char → Prop
  | mk {first : Char} {rest : List Char} (opens : opensToken first = true)
      (continues : ∀ c ∈ rest, continuesToken c = true) : IsToken (first :: rest)

/-- No capital letter of ASCII is in lowercase. -/
theorem isUpper_of_not_hasLower {c : Char} (hlower : hasLower c = false) : c.isUpper = false := by
  rw [Bool.eq_false_iff]
  intro hupper
  obtain ⟨hlow, hhigh⟩ : 0x41 ≤ c.toNat ∧ c.toNat ≤ 0x5a := of_decide_eq_true hupper
  -- The first run of the table maps the capital letters of ASCII.
  rw [hasLower, List.any_eq_false] at hlower
  refine hlower ⟨0x41, 0x5a, 1, 0x61⟩ (List.mem_cons_of_mem _ List.mem_cons_self) ?_
  exact CaseRun.covers_iff.2 ⟨hlow, hhigh, Nat.mod_one _⟩

/-- Among characters in lowercase, letters and digits are those that open a token. -/
theorem isStart_eq_opensToken {c : Char} (hlower : hasLower c = false) :
    isStart c = opensToken c := by
  have hparts : isStart c = ((c.isUpper || c.isLower) || c.isDigit) := rfl
  rw [hparts, isUpper_of_not_hasLower hlower, Bool.false_or]
  rfl

/-- Among characters in lowercase, those that may follow in a slug are those that continue a
token. -/
theorem isPart_eq_continuesToken {c : Char} (hlower : hasLower c = false) :
    isPart c = continuesToken c := by
  have hstart : c.isAlphanum = opensToken c := isStart_eq_opensToken hlower
  rw [isPart, continuesToken, hstart]
  cases opensToken c <;> cases c == '-' <;> cases c == '_' <;> cases c == '.' <;> rfl

/-- A text passes the check exactly if its first character and all others are allowed where they
are, and it is not too long. -/
theorem check_cons_eq_ok_iff {limit : Nat} {first : Char} {rest slug : List Char} :
    check limit (first :: rest) = .ok slug ↔
      slug = first :: rest ∧ isStart first = true ∧ (∀ c ∈ rest, isPart c = true) ∧
        (first :: rest).length ≤ limit := by
  rw [check]
  split
  · rename_i hstart
    constructor
    · intro hcheck
      cases hcheck
    · rintro ⟨-, hopens, -, -⟩
      simp [hopens] at hstart
  · rename_i hstart
    have hopens : isStart first = true := by simpa using hstart
    cases hfind : rest.find? (!isPart ·) with
    | some c =>
        have hbad : isPart c = false := by simpa using List.find?_some hfind
        constructor
        · intro hcheck
          cases hcheck
        · rintro ⟨-, -, hparts, -⟩
          rw [hparts c (List.mem_of_find?_eq_some hfind)] at hbad
          cases hbad
    | none =>
        have hparts : ∀ c ∈ rest, isPart c = true := by
          intro c hmem
          simpa using List.find?_eq_none.1 hfind c hmem
        by_cases hlong : limit < (first :: rest).length
        · simp only [if_pos hlong]
          constructor
          · intro hcheck
            cases hcheck
          · rintro ⟨-, -, -, hshort⟩
            omega
        · simp only [if_neg hlong, Except.ok.injEq]
          constructor
          · rintro rfl
            exact ⟨rfl, hopens, hparts, by omega⟩
          · rintro ⟨rfl, -, -, -⟩
            rfl

/-- A lowercase text passes the check exactly if it is a token that is not too long. -/
theorem check_eq_ok_iff {limit : Nat} {s slug : List Char} (hlower : ∀ c ∈ s, hasLower c = false) :
    check limit s = .ok slug ↔ slug = s ∧ IsToken s ∧ s.length ≤ limit := by
  cases s with
  | nil =>
      constructor
      · intro hcheck
        cases hcheck
      · rintro ⟨-, htoken, -⟩
        cases htoken
  | cons first rest =>
      have hfirst := isStart_eq_opensToken (hlower first List.mem_cons_self)
      have hrest : ∀ c ∈ rest, isPart c = continuesToken c := fun c hmem =>
        isPart_eq_continuesToken (hlower c (List.mem_cons_of_mem _ hmem))
      rw [check_cons_eq_ok_iff, hfirst]
      constructor
      · rintro ⟨rfl, hopens, hparts, hlength⟩
        exact ⟨rfl, .mk hopens fun c hmem => (hrest c hmem).symm.trans (hparts c hmem), hlength⟩
      · rintro ⟨rfl, htoken, hlength⟩
        cases htoken with
        | mk opens continues =>
            exact ⟨rfl, opens, fun c hmem => (hrest c hmem).trans (continues c hmem), hlength⟩

/-- A text spells a slug exactly if its trimmed lowercase is a token that is not too long, and that
is the slug. -/
theorem normalize_eq_ok_iff {limit : Nat} {text slug : String} :
    normalize limit text = .ok slug ↔
      slug = lowercase (trim text) ∧ IsToken slug.toList ∧ length slug ≤ limit := by
  have hlower : ∀ c ∈ (lowercase (trim text)).toList, hasLower c = false :=
    fun _ hmem => hasLower_of_mem_lowercase hmem
  unfold normalize length
  generalize lowercase (trim text) = lower at hlower ⊢
  constructor
  · intro hnormal
    cases hcheck : check limit lower.toList with
    | error flaw =>
        rw [hcheck] at hnormal
        cases hnormal
    | ok token =>
        obtain ⟨rfl, htoken, hlength⟩ := (check_eq_ok_iff hlower).1 hcheck
        rw [hcheck] at hnormal
        have hslug : slug = lower := by
          rw [← Except.ok.inj hnormal, String.ofList_toList]
        rw [hslug]
        exact ⟨rfl, htoken, hlength⟩
  · rintro ⟨rfl, htoken, hlength⟩
    have hcheck : check limit slug.toList = .ok slug.toList :=
      (check_eq_ok_iff hlower).2 ⟨rfl, htoken, hlength⟩
    rw [hcheck, Except.map, String.ofList_toList]

end Slug
end Text
end Tenancy
