import Mathlib.Data.List.TakeDrop
import Tenancy.Proofs.NormalForms

/-!
# Tenancy - The form of addresses

An address is valid exactly if, blanks around it apart, it is a local part, one at sign and
a domain that holds a dot but neither starts nor ends with one.  Lowercasing can change the
letters of an address and their number; it neither makes nor takes away at signs and dots,
also next to a sigma that ends a word, so an address is valid exactly if its normal form is.

Main definitions:

- `Text.Email.IsAddress`: the grammar of addresses.
- `Text.Email.passesTests`: the form check by splitting, one test after the other.

Main results:

- Theorem `Text.exists_lowerFrom_append`: what a stretch becomes in front of the rest of a text.
- Theorem `Text.Email.isAddress_iff`: the form check accepts the grammar.
- Theorem `Text.Email.isAddress_eq_passesTests`: splitting decides the same, and its last test
  never refuses.
- Theorem `Text.Email.isAddress_lowerFrom`: a text has the form exactly if its lowercase has.
- Theorem `emailAddresses_lawful`: which addresses are valid, and that normalizing changes
  nothing about it and nothing more when it is repeated.
-/

namespace Tenancy
namespace Text

/-! ## Stretches of a text in lowercase -/

/-- A character becomes characters of a caseless class if it is in it. -/
theorem CharClass.any_lowerInContext {ranges : CharClass} (hcaseless : ranges.isCaseless = true)
    (before : List Char) (c : Char) (after : List Char) :
    (lowerInContext before c after).any ranges.contains = ranges.contains c := by
  rw [Bool.eq_iff_iff, List.any_eq_true]
  constructor
  · rintro ⟨lower, hmem, hclass⟩
    rwa [← contains_of_mem_lowerInContext hcaseless hmem]
  · intro hclass
    obtain ⟨lower, hmem⟩ := List.exists_mem_of_ne_nil _ (lowerInContext_ne_nil before after c)
    exact ⟨lower, hmem, by rwa [contains_of_mem_lowerInContext hcaseless hmem]⟩

/-- A stretch of a text becomes a stretch of its lowercase, an empty one only if it is empty, and
with characters of the same caseless classes. -/
theorem exists_lowerFrom_append (before s rest : List Char) :
    ∃ lower, lowerFrom before (s ++ rest) = lower ++ lowerFrom (s.reverse ++ before) rest ∧
      (lower = [] ↔ s = []) ∧
      ∀ ranges : CharClass, ranges.isCaseless = true →
        lower.any ranges.contains = s.any ranges.contains := by
  induction s generalizing before with
  | nil => exact ⟨[], rfl, Iff.rfl, fun _ _ => rfl⟩
  | cons c s ih =>
      obtain ⟨lower, hlower, -, hclasses⟩ := ih (c :: before)
      refine ⟨lowerInContext before c (s ++ rest) ++ lower, ?_, ?_, ?_⟩
      · rw [List.cons_append, lowerFrom, hlower, List.append_assoc, List.reverse_cons,
          List.append_assoc, List.singleton_append]
      · simp [lowerInContext_ne_nil]
      · intro ranges hcaseless
        rw [List.any_append, CharClass.any_lowerInContext hcaseless, hclasses ranges hcaseless,
          List.any_cons]

/-! ## Characters that are caseless on their own -/

/-- The class of one character holds that one. -/
theorem CharClass.contains_ofList_singleton (c other : Char) :
    (ofList [c]).contains other = (other == c) := by
  rw [contains_ofList, List.contains_cons, List.contains_nil, Bool.or_false]

/-- A text has a character of the class of one if it has that one. -/
theorem CharClass.any_ofList_singleton (c : Char) (s : List Char) :
    s.any (ofList [c]).contains = s.contains c := by
  have hclass : (ofList [c]).contains = (c == ·) := by
    funext other
    rw [contains_ofList_singleton, Bool.beq_comm]
  rw [hclass, List.contains_eq_any_beq]

/-- Lowercasing neither makes nor takes away a character that is caseless on its own. -/
theorem contains_lowerFrom {c : Char} (hcaseless : (CharClass.ofList [c]).isCaseless = true)
    (before s : List Char) : (lowerFrom before s).contains c = s.contains c := by
  obtain ⟨lower, hlower, -, hclasses⟩ := exists_lowerFrom_append before s []
  rw [List.append_nil, lowerFrom, List.append_nil] at hlower
  rw [hlower, ← CharClass.any_ofList_singleton, ← CharClass.any_ofList_singleton,
    hclasses _ hcaseless]

/-- An end of a text is a character exactly if it is in the class of that one. -/
theorem CharClass.bne_some_eq (c : Char) (found : Option Char) :
    (found != some c) = (found.map (ofList [c]).contains != some true) := by
  cases found with
  | none => rfl
  | some other =>
      rw [Option.map_some, contains_ofList_singleton, bne, bne, Option.some_beq_some,
        Option.some_beq_some, beq_true]

namespace Email

/-! ## At signs and dots -/

/-- At signs are caseless. -/
theorem isCaseless_at : (CharClass.ofList ['@']).isCaseless = true := by
  decide +kernel

/-- Dots are caseless. -/
theorem isCaseless_dot : (CharClass.ofList ['.']).isCaseless = true := by
  decide +kernel

/-- An at sign stays as it is in any context. -/
theorem lowerInContext_at (before after : List Char) : lowerInContext before '@' after = ['@'] :=
  lowerInContext_of_not_hasLower (by decide +kernel) before after

/-- A text has the form of a domain exactly if its lowercase has. -/
theorem isDomain_lowerFrom (before domain : List Char) :
    isDomain (lowerFrom before domain) = isDomain domain := by
  simp only [isDomain, CharClass.bne_some_eq, contains_lowerFrom isCaseless_dot,
    CharClass.head?_lowerFrom isCaseless_dot, CharClass.getLast?_lowerFrom isCaseless_dot]

/-! ## The form check -/

variable {text localPart domain : List Char}

/-- The characters of a text without an at sign are other ones. -/
theorem bne_at_of_not_mem (hmissing : '@' ∉ text) : ∀ c ∈ text, (c != '@') = true := by
  intro c hmem
  simpa using ne_of_mem_of_not_mem hmem hmissing

/-- A text without an at sign has not the form of an address. -/
theorem isAddress_of_not_mem (hmissing : '@' ∉ text) : isAddress text = false := by
  have hdrop : text.dropWhile (· != '@') = [] :=
    List.dropWhile_eq_nil_iff.2 (bne_at_of_not_mem hmissing)
  simp only [isAddress, List.span_eq_takeWhile_dropWhile, hdrop]

/-- A text is split at its first at sign into a local part and a domain. -/
theorem isAddress_append (hfirst : '@' ∉ localPart) (domain : List Char) :
    isAddress (localPart ++ '@' :: domain) =
      (!localPart.isEmpty && !domain.contains '@' && isDomain domain) := by
  have htake : (localPart ++ '@' :: domain).takeWhile (· != '@') = localPart := by
    rw [List.takeWhile_append_of_pos (bne_at_of_not_mem hfirst)]
    simp
  have hdrop : (localPart ++ '@' :: domain).dropWhile (· != '@') = '@' :: domain := by
    rw [List.dropWhile_append_of_pos (bne_at_of_not_mem hfirst)]
    simp
  simp only [isAddress, List.span_eq_takeWhile_dropWhile, htake, hdrop]

/-- A text has the form of an address exactly if its lowercase has. -/
theorem isAddress_lowerFrom (before text : List Char) :
    isAddress (lowerFrom before text) = isAddress text := by
  by_cases hmem : '@' ∈ text
  · obtain ⟨localPart, domain, rfl, hfirst⟩ := List.eq_append_cons_of_mem hmem
    obtain ⟨lower, hlower, hempty, hclasses⟩ :=
      exists_lowerFrom_append before localPart ('@' :: domain)
    have hsame := hclasses _ isCaseless_at
    rw [CharClass.any_ofList_singleton, CharClass.any_ofList_singleton] at hsame
    have hlowerFirst : '@' ∉ lower := by
      rw [← List.contains_iff_mem, hsame, List.contains_iff_mem]
      exact hfirst
    have hisEmpty : lower.isEmpty = localPart.isEmpty := by
      rw [Bool.eq_iff_iff, List.isEmpty_iff, List.isEmpty_iff, hempty]
    rw [hlower, lowerFrom, lowerInContext_at, List.singleton_append, isAddress_append hlowerFirst,
      isAddress_append hfirst, hisEmpty, contains_lowerFrom isCaseless_at, isDomain_lowerFrom]
  · have hmissing : '@' ∉ lowerFrom before text := by
      rw [← List.contains_iff_mem, contains_lowerFrom isCaseless_at, List.contains_iff_mem]
      exact hmem
    rw [isAddress_of_not_mem hmem, isAddress_of_not_mem hmissing]

/-- An address is valid if it has the form once it is trimmed. -/
theorem isValid_eq (address : String) : isValid address = isAddress (trim address).toList := by
  rw [isValid, trim, String.toList_ofList]

/-- An address is valid exactly if its normal form is. -/
theorem isValid_normalize (address : String) : isValid (normalize address) = isValid address := by
  have hlower : (lowercase (trim address)).toList = lowerFrom [] (trim address).toList := by
    rw [lowercase, String.toList_ofList, lowerList]
  rw [isValid_eq, isValid_eq, normalize, trim_lowercase_trim, hlower, isAddress_lowerFrom]

/-! ## The grammar -/

/-- A local part, one at sign and a domain: the local part is not empty, and the domain holds a dot
but neither starts nor ends with one. -/
inductive IsAddress : String → Prop
  | mk {localPart domain : String} (named : localPart ≠ "") (noneBefore : '@' ∉ localPart.toList)
      (noneAfter : '@' ∉ domain.toList) (dotted : '.' ∈ domain.toList)
      (start : ¬['.'] <+: domain.toList) (stop : ¬['.'] <:+ domain.toList) :
      IsAddress (localPart ++ "@" ++ domain)

/-- A domain holds a dot but neither starts nor ends with one. -/
theorem isDomain_iff :
    isDomain domain = true ↔ '.' ∈ domain ∧ ¬['.'] <+: domain ∧ ¬['.'] <:+ domain := by
  have hstart : domain.head? = some '.' ↔ ['.'] <+: domain := by
    rw [List.head?_eq_some_iff]
    exact exists_congr fun _ => eq_comm
  have hstop : domain.getLast? = some '.' ↔ ['.'] <:+ domain := by
    rw [List.getLast?_eq_some_iff]
    exact exists_congr fun _ => eq_comm
  simp only [isDomain, Bool.and_eq_true, bne_iff_ne, List.contains_iff_mem, ne_eq, hstart, hstop,
    and_assoc]

/-- A text that is split at its first at sign has the form of an address exactly if its parts have
theirs. -/
theorem isAddress_append_iff (hfirst : '@' ∉ localPart) :
    isAddress (localPart ++ '@' :: domain) = true ↔
      localPart ≠ [] ∧ '@' ∉ domain ∧ '.' ∈ domain ∧ ¬['.'] <+: domain ∧ ¬['.'] <:+ domain := by
  rw [isAddress_append hfirst, Bool.and_eq_true, Bool.and_eq_true, isDomain_iff, and_assoc]
  simp

/-- The form check accepts the grammar. -/
theorem isAddress_iff (text : String) : isAddress text.toList = true ↔ IsAddress text := by
  constructor
  · intro haddress
    have hmem : '@' ∈ text.toList := by
      by_contra hmissing
      rw [isAddress_of_not_mem hmissing] at haddress
      cases haddress
    obtain ⟨localPart, domain, hsplit, hfirst⟩ := List.eq_append_cons_of_mem hmem
    rw [hsplit, isAddress_append_iff hfirst] at haddress
    obtain ⟨named, noneAfter, dotted, start, stop⟩ := haddress
    have htext : text = String.ofList localPart ++ "@" ++ String.ofList domain := by
      rw [← String.toList_inj, hsplit]
      simp
    rw [htext]
    refine .mk ?_ ?_ ?_ ?_ ?_ ?_ <;> simpa
  · intro haddress
    cases haddress with
    | @mk localPart domain named noneBefore noneAfter dotted start stop =>
        have hsplit : (localPart ++ "@" ++ domain).toList =
            localPart.toList ++ '@' :: domain.toList := by
          simp
        rw [hsplit, isAddress_append_iff noneBefore]
        exact ⟨by simpa using named, noneAfter, dotted, start, stop⟩

/-- A valid address is in the grammar, blanks around it apart. -/
theorem isValid_iff (address : String) : isValid address = true ↔ IsAddress (trim address) := by
  rw [isValid_eq, isAddress_iff]

/-! ## Splitting -/

/-- The tests of a domain, one after the other: it holds a dot, neither starts nor ends with one,
and what follows its last dot is not empty. -/
def passesDomainTests (domain : List Char) : Bool :=
  domain.contains '.' && !(domain.head? == some '.' || domain.getLast? == some '.') &&
    (domain.splitOn '.').getLast? != some []

/-- The form check by splitting: there is one at sign, the local part is not empty, and the domain
passes its tests. -/
def passesTests (text : List Char) : Bool :=
  match text.splitOn '@' with
  | [localPart, domain] => !localPart.isEmpty && passesDomainTests domain
  | _ => false

/-- What follows the last dot of a domain is empty exactly if the domain ends with a dot. -/
theorem getLast?_splitOn (hdot : '.' ∈ domain) :
    (domain.splitOn '.').getLast? = some [] ↔ domain.getLast? = some '.' := by
  obtain ⟨later, earlier, hreverse, hlast⟩ :=
    List.eq_append_cons_of_mem (List.mem_reverse.2 hdot)
  have hsplit : domain = earlier.reverse ++ '.' :: later.reverse := by
    rw [← List.reverse_reverse domain, hreverse]
    simp
  have hlast : '.' ∉ later.reverse := by simpa using hlast
  have hpieces : domain.splitOn '.' = earlier.reverse.splitOn '.' ++ [later.reverse] := by
    rw [hsplit, List.splitOn_append_cons_self, List.splitOn_eq_singleton hlast]
  rw [hpieces, List.getLast?_concat, Option.some_inj, List.reverse_eq_nil_iff, hsplit]
  constructor
  · rintro rfl
    simp
  · intro hends
    by_contra hsome
    have hlater : later.reverse ≠ [] := by simpa using hsome
    rw [List.getLast?_append_of_ne_nil _ (List.cons_ne_nil _ _), List.getLast?_cons,
      List.getLast?_eq_some_getLast hlater] at hends
    exact hlast (Option.some.inj hends ▸ List.getLast_mem hlater)

/-- The tests decide the form of a domain, and the last of them refuses nothing that comes to it. -/
theorem isDomain_eq_passesDomainTests (domain : List Char) :
    isDomain domain = passesDomainTests domain := by
  unfold isDomain passesDomainTests
  by_cases hdot : '.' ∈ domain
  · have hlast : ((domain.splitOn '.').getLast? != some []) = (domain.getLast? != some '.') := by
      rw [Bool.eq_iff_iff, bne_iff_ne, bne_iff_ne, Ne, getLast?_splitOn hdot]
    rw [hlast, bne, bne]
    cases domain.contains '.' <;> cases domain.head? == some '.' <;>
      cases domain.getLast? == some '.' <;> rfl
  · have hnone : domain.contains '.' = false := by simpa using hdot
    simp only [hnone, Bool.false_and]

/-- Splitting decides the form of an address. -/
theorem isAddress_eq_passesTests (text : List Char) : isAddress text = passesTests text := by
  by_cases hmem : '@' ∈ text
  · obtain ⟨localPart, domain, rfl, hfirst⟩ := List.eq_append_cons_of_mem hmem
    rw [isAddress_append hfirst, passesTests, List.splitOn_append_cons_self_of_not_mem hfirst]
    by_cases hsecond : '@' ∈ domain
    · -- A second at sign makes a third piece.
      obtain ⟨second, others, hsplit, hother⟩ := List.eq_append_cons_of_mem hsecond
      obtain ⟨third, later, hpieces⟩ := List.exists_cons_of_ne_nil (List.splitOn_ne_nil '@' others)
      rw [List.contains_iff_mem.2 hsecond, hsplit, List.splitOn_append_cons_self_of_not_mem hother,
        hpieces]
      simp
    · have hone : domain.contains '@' = false := by simpa using hsecond
      rw [List.splitOn_eq_singleton hsecond, hone, isDomain_eq_passesDomainTests]
      simp
  · rw [isAddress_of_not_mem hmem, passesTests, List.splitOn_eq_singleton hmem]

end Email
end Text

open Text

/-- An address is valid exactly if, blanks around it apart, it is in the grammar: a local part that
is not empty, one at sign, and a domain that holds a dot but neither starts nor ends with one.  The
tests of its pieces, one after the other, decide the same.  The normal form of an address is valid
exactly if the address is, and it is its own normal form. -/
theorem emailAddresses_lawful :
    (∀ address, Email.isValid address = true ↔ Email.IsAddress (trim address)) ∧
      (∀ address, Email.isValid address = Email.passesTests (trim address).toList) ∧
      ∀ address, Email.isValid (Email.normalize address) = Email.isValid address ∧
        Email.normalize (Email.normalize address) = Email.normalize address := by
  refine ⟨Email.isValid_iff, fun address => ?_, fun address => ?_⟩
  · rw [Email.isValid_eq, Email.isAddress_eq_passesTests]
  · exact ⟨Email.isValid_normalize address, Email.normalize_normalize address⟩

-- The first sigma ends a word; the second one does not, because dots are passed over and a letter
-- follows.
example : Email.normalize " ΟΔΟΣ@ΠΌΛΙΣ.GR" = "οδος@πόλισ.gr" := by
  decide +kernel

end Tenancy
