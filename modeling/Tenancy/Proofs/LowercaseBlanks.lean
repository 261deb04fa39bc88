import Tenancy.Proofs.TidyTexts

/-!
# Tenancy - Blanks and lowercase

Lowercasing changes letters only: no blank character has a lowercase of its own and
none is the lowercase of another.  So a text and its lowercase begin and end with
blanks alike, and two texts that differ by case only are both trimmed or both not.

Main definitions:

- `Text.CharClass.isApart`: a range of code points that a class has none of.
- `Text.CharClass.ofList`: the class of the listed characters.
- `Text.CharClass.isCaseless`: classes that lowercasing neither leads into nor out of.

Main results:

- Theorem `Text.CharClass.contains_of_mem_lowerInContext`: in any context, a character is in a
  caseless class exactly if what it becomes is.
- Theorems `Text.CharClass.head?_lowerFrom`, `Text.CharClass.getLast?_lowerFrom`: the ends of a text
  and those of its lowercase are in the same caseless classes.
- Theorem `Text.trimList_eq_self_iff`: trimmed texts neither begin nor end with blanks.
- Theorem `Text.isTidy_lowercase`: a text is tidy exactly if its lowercase is.
-/

namespace Tenancy
namespace Text

/-! ## Single characters -/

/-- Whether a class has no code point between two bounds. -/
def CharClass.isApart (ranges : CharClass) (low high : Nat) : Bool :=
  ranges.all fun range => high < range.1 || range.2 < low

/-- A class does not hold what lies between bounds that it is apart from. -/
theorem CharClass.contains_eq_false {ranges : CharClass} {low high : Nat}
    (hapart : ranges.isApart low high = true) {c : Char} (hlow : low ≤ c.toNat)
    (hhigh : c.toNat ≤ high) : ranges.contains c = false := by
  unfold contains
  rw [List.any_eq_false]
  intro range hmem
  have hrange := List.all_eq_true.1 hapart range hmem
  simp only [Bool.or_eq_true, decide_eq_true_eq] at hrange
  simp only [Bool.and_eq_true, decide_eq_true_eq]
  omega

/-- The class of the listed characters. -/
def CharClass.ofList (characters : List Char) : CharClass :=
  characters.map fun c => (c.toNat, c.toNat)

/-- The class of the listed characters has these and no others. -/
@[simp]
theorem CharClass.contains_ofList (characters : List Char) (c : Char) :
    (ofList characters).contains c = characters.contains c := by
  induction characters with
  | nil => rfl
  | cons head rest ih =>
      have hhead : (decide (head.toNat ≤ c.toNat) && decide (c.toNat ≤ head.toNat)) =
          (c == head) := by
        rw [Bool.eq_iff_iff, Bool.and_eq_true, decide_eq_true_eq, decide_eq_true_eq, beq_iff_eq,
          ← Char.toNat_inj]
        omega
      rw [List.contains_cons, ← ih, ← hhead]
      rfl

/-- Whether neither a letter that has a lowercase nor a lowercase belongs to a class: no run of the
table maps a code point of the class or to one, and the letters that the context decides on are not
in it. -/
def CharClass.isCaseless (ranges : CharClass) : Bool :=
  caseRuns.all (fun run => ranges.isApart run.first run.last &&
    ranges.isApart run.target (run.target + (run.last - run.first))) &&
  ['\x00', 'Σ', 'σ', 'ς', 'İ', 'i', '\u0307'].all (!ranges.contains ·)

/-- Blank characters are caseless. -/
theorem CharClass.isCaseless_blank : CharClass.blank.isCaseless = true := by
  decide +kernel

/-- A code point is that of its character, or the character is the null character. -/
theorem toNat_ofNat_or (code : Nat) :
    (Char.ofNat code).toNat = code ∨ Char.ofNat code = '\x00' := by
  by_cases hvalid : code.isValidChar
  · have hchar : Char.ofNat code = Char.ofNatAux code hvalid := dif_pos hvalid
    rw [hchar]
    exact .inl rfl
  · exact .inr (dif_neg hvalid)

/-- A character is in a caseless class exactly if its lowercase is. -/
theorem CharClass.contains_lowerChar {ranges : CharClass} (hcaseless : ranges.isCaseless = true)
    (c : Char) : ranges.contains (lowerChar c) = ranges.contains c := by
  obtain ⟨hruns, hletters⟩ := Bool.and_eq_true_iff.1 hcaseless
  unfold lowerChar
  split
  · rename_i run hfind
    have hcovers : run.covers c.toNat = true := by simpa using List.find?_some hfind
    simp only [CaseRun.covers, Bool.and_eq_true, decide_eq_true_eq] at hcovers
    obtain ⟨⟨hfirst, hlast⟩, -⟩ := hcovers
    have hapart := List.all_eq_true.1 hruns run (List.mem_of_find?_eq_some hfind)
    obtain ⟨hsource, htarget⟩ := Bool.and_eq_true_iff.1 hapart
    rw [CharClass.contains_eq_false hsource hfirst hlast]
    rcases toNat_ofNat_or (run.target + (c.toNat - run.first)) with hcode | hnull
    · exact CharClass.contains_eq_false htarget (by omega) (by omega)
    · rw [hnull]
      simpa using List.all_eq_true.1 hletters '\x00' (by simp)
  · rfl

/-- In any context, a character becomes characters that are in a caseless class if it is. -/
theorem CharClass.contains_of_mem_lowerInContext {ranges : CharClass}
    (hcaseless : ranges.isCaseless = true) {before after : List Char} {c lower : Char}
    (hmem : lower ∈ lowerInContext before c after) : ranges.contains lower = ranges.contains c := by
  have houtside : ∀ letter ∈ ['\x00', 'Σ', 'σ', 'ς', 'İ', 'i', '\u0307'],
      ranges.contains letter = false := by
    intro letter hletter
    simpa using List.all_eq_true.1 (Bool.and_eq_true_iff.1 hcaseless).2 letter hletter
  unfold lowerInContext at hmem
  split at hmem
  · rename_i hsigma
    rw [hsigma, List.mem_singleton.1 hmem, houtside 'Σ' (by simp)]
    split <;> exact houtside _ (by simp)
  · split at hmem
    · rename_i hdotted
      rw [hdotted, houtside 'İ' (by simp)]
      rcases List.mem_pair.1 hmem with rfl | rfl <;> exact houtside _ (by simp)
    · rw [List.mem_singleton.1 hmem, contains_lowerChar hcaseless]

/-- A character does not vanish. -/
theorem lowerInContext_ne_nil (before after : List Char) (c : Char) :
    lowerInContext before c after ≠ [] := by
  unfold lowerInContext
  split
  · simp
  · split <;> simp

/-! ## The ends of a text -/

/-- Of a text and its lowercase, both or neither begin with a character of a caseless class. -/
theorem CharClass.head?_lowerFrom {ranges : CharClass} (hcaseless : ranges.isCaseless = true)
    (before s : List Char) :
    (lowerFrom before s).head?.map ranges.contains = s.head?.map ranges.contains := by
  cases s with
  | nil => rfl
  | cons c after =>
      obtain ⟨lower, rest, heq⟩ := List.exists_cons_of_ne_nil (lowerInContext_ne_nil before after c)
      have hmem : lower ∈ lowerInContext before c after := by simp [heq]
      rw [lowerFrom, heq]
      exact congrArg some (contains_of_mem_lowerInContext hcaseless hmem)

/-- Of a text and its lowercase, both or neither end with a character of a caseless class. -/
theorem CharClass.getLast?_lowerFrom {ranges : CharClass} (hcaseless : ranges.isCaseless = true)
    (before s : List Char) :
    (lowerFrom before s).getLast?.map ranges.contains = s.getLast?.map ranges.contains := by
  induction s generalizing before with
  | nil => rfl
  | cons c after ih =>
      rw [lowerFrom, List.getLast?_append, List.getLast?_cons]
      cases hlast : after.getLast? with
      | none =>
          have hafter : after = [] := List.getLast?_eq_none_iff.1 hlast
          have hlower := List.getLast?_eq_some_getLast (lowerInContext_ne_nil before after c)
          subst hafter
          rw [hlower]
          exact congrArg some (contains_of_mem_lowerInContext hcaseless (List.getLast_mem _))
      | some last =>
          have hrest := ih (c :: before)
          rw [hlast] at hrest
          obtain ⟨lower, hlower, hclass⟩ := Option.map_eq_some_iff.1 hrest
          rw [hlower]
          exact congrArg some hclass

/-- Trimmed texts neither begin nor end with blanks. -/
theorem trimList_eq_self_iff (s : List Char) :
    trimList s = s ↔ s.head?.map isBlank ≠ some true ∧ s.getLast?.map isBlank ≠ some true := by
  have hfront : s.dropWhile isBlank = s ↔ s.head?.map isBlank ≠ some true := by
    cases s with
    | nil => simp
    | cons c after => simp [List.dropWhile_eq_self_iff]
  have hback : s.rdropWhile isBlank = s ↔ s.getLast?.map isBlank ≠ some true := by
    by_cases hnil : s = []
    · simp [hnil]
    · simp [List.rdropWhile_eq_self_iff, hnil, List.getLast?_eq_some_getLast]
  rw [← hfront, ← hback, trimList_eq]
  constructor
  · intro htrim
    have hlength := (List.rdropWhile_prefix isBlank (s.dropWhile isBlank)).length_le
    rw [htrim] at hlength
    have hsame : s.dropWhile isBlank = s := (List.dropWhile_suffix isBlank).eq_of_length_le hlength
    rw [hsame] at htrim
    exact ⟨hsame, htrim⟩
  · rintro ⟨hfront, hback⟩
    rw [hfront, hback]

/-! ## A text and its lowercase -/

/-- A text is trimmed exactly if its lowercase is. -/
theorem trim_lowercase_eq_self_iff (s : String) :
    trim (lowercase s) = lowercase s ↔ trim s = s := by
  have hlists : ∀ t : String, trim t = t ↔ trimList t.toList = t.toList := by
    intro t
    rw [trim, ← String.toList_inj, String.toList_ofList]
  have hhead : (lowerFrom [] s.toList).head?.map isBlank = s.toList.head?.map isBlank :=
    CharClass.head?_lowerFrom CharClass.isCaseless_blank [] s.toList
  have hlast : (lowerFrom [] s.toList).getLast?.map isBlank = s.toList.getLast?.map isBlank :=
    CharClass.getLast?_lowerFrom CharClass.isCaseless_blank [] s.toList
  rw [hlists, hlists, lowercase, String.toList_ofList, trimList_eq_self_iff, trimList_eq_self_iff,
    lowerList, hhead, hlast]

/-- Only the empty text has an empty lowercase. -/
theorem lowercase_eq_empty_iff (s : String) : lowercase s = "" ↔ s = "" := by
  have hhead := CharClass.head?_lowerFrom CharClass.isCaseless_blank [] s.toList
  rw [lowercase, ← String.toList_inj, ← String.toList_inj, String.toList_ofList, lowerList]
  constructor
  · intro hempty
    rw [hempty] at hhead
    have hnone : s.toList.head? = none := by simpa using hhead.symm
    exact List.head?_eq_none_iff.1 hnone
  · intro hempty
    rw [hempty]
    rfl

/-- A text is tidy exactly if its lowercase is. -/
theorem isTidy_lowercase (s : String) : IsTidy (lowercase s) ↔ IsTidy s := by
  constructor
  · intro htidy
    refine ⟨(trim_lowercase_eq_self_iff s).1 htidy.trim, fun hempty => htidy.ne ?_⟩
    exact (lowercase_eq_empty_iff s).2 hempty
  · intro htidy
    refine ⟨(trim_lowercase_eq_self_iff s).2 htidy.trim, fun hempty => htidy.ne ?_⟩
    exact (lowercase_eq_empty_iff s).1 hempty

end Text
end Tenancy
