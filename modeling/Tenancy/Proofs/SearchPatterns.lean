import Mathlib.Data.List.Infix
import Tenancy.Proofs.NormalForms
import Tenancy.Text.SearchPattern

/-!
# Tenancy - What search patterns find

A pattern is read into tokens, and the tokens say which texts fit.  Deciding that row by
row comes to the same: after some tokens, the row marks the beginnings of the text that
fit these tokens.  A pattern made from search text is written before it is lowercased,
but no special character has a lowercase or is one, and none matters to the letters
around it, so it stands for the lowercase of the text between two stretches.

Main definitions:

- `SearchPattern.marks`: the row that marks the beginnings of a text that pass a test.
- `SearchPattern.specials`: the special characters as a class.

Main results:

- Theorem `SearchPattern.lastRow_eq`: what the row after some tokens marks.
- Theorem `SearchPattern.accepts_eq_fits`: rows decide what fits.
- Theorem `SearchPattern.lowerFrom_escape`: escaping and lowercasing commute.
- Theorem `SearchPattern.accepts_containing_iff`: a pattern made from a text accepts the
  values whose lowercase has the text's lowercase as a part.
-/

namespace Tenancy
namespace Text
namespace SearchPattern

/-! ## What fits some tokens and one more -/

/-- Some end part of a text satisfies a test exactly if there is one that does. -/
theorem anySuffix_iff {test : List Char → Bool} {text : List Char} :
    anySuffix test text = true ↔ ∃ back, back <:+ text ∧ test back = true := by
  induction text with
  | nil => simp [anySuffix]
  | cons c rest ih =>
      rw [anySuffix, Bool.or_eq_true, ih]
      constructor
      · rintro (hall | ⟨back, hback, htest⟩)
        · exact ⟨_, List.suffix_refl _, hall⟩
        · exact ⟨back, hback.trans (List.suffix_cons c rest), htest⟩
      · rintro ⟨back, hback, htest⟩
        rcases List.suffix_cons_iff.1 hback with rfl | hback
        · exact .inl htest
        · exact .inr ⟨back, hback, htest⟩

/-- A text that fits two lists of tokens in sequence falls into two parts that fit them. -/
theorem fits_append_iff {first last : List Token} {text : List Char} :
    fits (first ++ last) text = true ↔
      ∃ front back, front ++ back = text ∧ fits first front = true ∧ fits last back = true := by
  induction first generalizing text with
  | nil => simp [fits]
  | cons token first ih =>
      cases token with
      | literal c =>
          cases text with
          | nil => simp [fits]
          | cons d rest =>
              simp only [List.cons_append, fits, Bool.and_eq_true, beq_iff_eq, ih]
              constructor
              · rintro ⟨rfl, front, back, rfl, hfront, hback⟩
                exact ⟨c :: front, back, rfl, by simp [hfront], hback⟩
              · rintro ⟨_ | ⟨e, front⟩, back, hsplit, hfront, hback⟩
                · simp at hfront
                · obtain ⟨rfl, rfl⟩ := List.cons.inj hsplit
                  simp only [Bool.and_eq_true, beq_iff_eq] at hfront
                  exact ⟨hfront.1, front, back, rfl, hfront.2, hback⟩
      | anyOne =>
          cases text with
          | nil => simp [fits]
          | cons d rest =>
              simp only [List.cons_append, fits, ih]
              constructor
              · rintro ⟨front, back, rfl, hfront, hback⟩
                exact ⟨d :: front, back, rfl, hfront, hback⟩
              · rintro ⟨_ | ⟨e, front⟩, back, hsplit, hfront, hback⟩
                · simp at hfront
                · obtain ⟨rfl, rfl⟩ := List.cons.inj hsplit
                  exact ⟨front, back, rfl, hfront, hback⟩
      | anyStretch =>
          simp only [List.cons_append, fits, anySuffix_iff, ih]
          constructor
          · rintro ⟨_, ⟨skipped, rfl⟩, front, back, rfl, hfront, hback⟩
            exact ⟨skipped ++ front, back, List.append_assoc .., ⟨front, ⟨skipped, rfl⟩, hfront⟩,
              hback⟩
          · rintro ⟨_, back, rfl, ⟨front, ⟨skipped, rfl⟩, hfront⟩, hback⟩
            exact ⟨front ++ back, ⟨skipped, (List.append_assoc ..).symm⟩, front, back, rfl, hfront,
              hback⟩

section One

variable {tokens : List Token} {token : Token} {passes : Char → Bool}
  (htoken : ∀ text, fits [token] text = true ↔ ∃ c, text = [c] ∧ passes c = true)

include htoken

/-- The empty text does not fit where a character is wanted at the end. -/
theorem fits_concat_nil : fits (tokens ++ [token]) [] = false := by
  rw [Bool.eq_false_iff, ne_eq, fits_append_iff]
  rintro ⟨front, back, hsplit, -, hback⟩
  obtain ⟨d, rfl, -⟩ := (htoken back).1 hback
  simp at hsplit

/-- Where a character is wanted at the end, the last one has to pass and the rest has to fit. -/
theorem fits_concat_concat (front : List Char) (c : Char) :
    fits (tokens ++ [token]) (front ++ [c]) = (fits tokens front && passes c) := by
  rw [Bool.eq_iff_iff, fits_append_iff, Bool.and_eq_true]
  constructor
  · rintro ⟨before, back, hsplit, hbefore, hback⟩
    obtain ⟨d, rfl, hpasses⟩ := (htoken back).1 hback
    obtain ⟨rfl, hsame⟩ := List.append_inj' hsplit rfl
    rw [← List.singleton_inj.1 hsame]
    exact ⟨hbefore, hpasses⟩
  · rintro ⟨hfront, hpasses⟩
    exact ⟨front, [c], rfl, hfront, (htoken [c]).2 ⟨c, rfl, hpasses⟩⟩

end One

/-- What fits some tokens and then any stretch begins with something that fits the tokens. -/
theorem fits_concat_anyStretch {tokens : List Token} {text : List Char} :
    fits (tokens ++ [.anyStretch]) text = true ↔
      ∃ front, front <+: text ∧ fits tokens front = true := by
  rw [fits_append_iff]
  constructor
  · rintro ⟨front, back, hsplit, hfront, -⟩
    exact ⟨front, ⟨back, hsplit⟩, hfront⟩
  · rintro ⟨front, ⟨back, hsplit⟩, hfront⟩
    refine ⟨front, back, hsplit, hfront, ?_⟩
    rw [fits, anySuffix_iff]
    exact ⟨[], List.nil_suffix, rfl⟩

/-! ## Rows -/

/-- The row that marks the beginnings of a text that pass a test. -/
def marks (test : List Char → Bool) (text : List Char) : List Bool :=
  text.inits.map test

variable {test next : List Char → Bool} {text : List Char}

/-- The place of a row after some characters marks the beginning that they make. -/
theorem getElem_marks {place : Nat} (hplace : place < (marks test text).length) :
    (marks test text)[place] = test (text.take place) := by
  simp [marks]

/-- The last place of a row marks the whole text. -/
theorem getLastD_marks (test : List Char → Bool) (text : List Char) :
    (marks test text).getLastD false = test text := by
  have hlength : (marks test text).length = text.length + 1 := by simp [marks]
  have hlast : (marks test text).getLast? = some (test text) := by
    rw [List.getLast?_eq_getElem?, hlength, Nat.add_sub_cancel,
      List.getElem?_eq_getElem (by omega), getElem_marks, List.take_length]
  rw [List.getLastD_eq_getLast?, hlast, Option.getD_some]

/-- Before the first token, the empty beginning is marked. -/
theorem startRow_eq (text : List Char) : startRow text = marks (fits []) text := by
  refine List.ext_getElem (by simp [startRow, marks]) fun place hstart hmarks => ?_
  have hlength : place < text.length + 1 := by simpa [startRow] using hstart
  rw [getElem_marks]
  cases place with
  | zero => rfl
  | succ before =>
      have htake : text.take (before + 1) ≠ [] := by
        rw [ne_eq, List.take_eq_nil_iff]
        rintro (hzero | rfl)
        · cases hzero
        · simp at hlength
      simp [startRow, fits, htake]

/-- Moving the marks by a character marks what is longer by one that passes. -/
theorem shift_marks {passes : Char → Bool} (hnil : next [] = false)
    (hconcat : ∀ front c, next (front ++ [c]) = (test front && passes c)) (text : List Char) :
    shift passes (marks test text) text = marks next text := by
  refine List.ext_getElem (by simp [shift, marks]) fun place hshift hmarks => ?_
  rw [getElem_marks]
  cases place with
  | zero =>
      rw [List.take_zero, hnil]
      rfl
  | succ before =>
      have hbefore : before < text.length := by simpa [marks] using hmarks
      rw [← List.take_append_getElem hbefore, hconcat]
      simp [shift, getElem_marks]

/-- After spreading, a place is marked if it or an earlier one was. -/
theorem getElem_spread {marked : Bool} {row : List Bool} {place : Nat}
    (hplace : place < (spread marked row).length) :
    (spread marked row)[place] = true ↔
      marked = true ∨ ∃ earlier, earlier ≤ place ∧ row[earlier]? = some true := by
  induction row generalizing marked place with
  | nil => simp [spread] at hplace
  | cons here rest ih =>
      cases place with
      | zero => simp [spread]
      | succ before =>
          simp only [spread, List.getElem_cons_succ]
          rw [ih, Bool.or_eq_true, or_assoc]
          refine or_congr_right ?_
          constructor
          · rintro (hhere | ⟨earlier, hle, hmark⟩)
            · exact ⟨0, Nat.zero_le _, by simp [hhere]⟩
            · exact ⟨earlier + 1, by omega, by simpa using hmark⟩
          · rintro ⟨_ | earlier, hle, hmark⟩
            · exact .inl (by simpa using hmark)
            · exact .inr ⟨earlier, by omega, by simpa using hmark⟩

/-- Spreading the marks marks what has a beginning that was marked. -/
theorem spread_marks
    (hnext : ∀ text, next text = true ↔ ∃ front, front <+: text ∧ test front = true)
    (text : List Char) : spread false (marks test text) = marks next text := by
  have hlength : ∀ marked row, (spread marked row).length = row.length := by
    intro marked row
    induction row generalizing marked with
    | nil => rfl
    | cons here rest ih => simp [spread, ih]
  refine List.ext_getElem (by simp [hlength, marks]) fun place hspread hmarks => ?_
  have hbound : place < text.length + 1 := by simpa [marks] using hmarks
  rw [Bool.eq_iff_iff, getElem_spread, getElem_marks, hnext]
  constructor
  · rintro (hfalse | ⟨earlier, hle, hmark⟩)
    · cases hfalse
    · obtain ⟨_, hmark⟩ := List.getElem?_eq_some_iff.1 hmark
      rw [getElem_marks] at hmark
      exact ⟨_, List.take_prefix_take_left hle, hmark⟩
  · rintro ⟨front, hfront, htest⟩
    have hle : front.length ≤ place := by
      have hshort := hfront.length_le
      rw [List.length_take] at hshort
      omega
    have hsame : text.take front.length = front :=
      (List.prefix_iff_eq_take.1 (hfront.trans (List.take_prefix place text))).symm
    refine .inr ⟨front.length, hle, ?_⟩
    rw [List.getElem?_eq_getElem (by simp [marks]; omega), getElem_marks, hsame, htest]

/-- A token turns the row for some tokens into the row for these and itself. -/
theorem nextRow_marks (tokens : List Token) (text : List Char) (token : Token) :
    token.nextRow text (marks (fits tokens) text) = marks (fits (tokens ++ [token])) text := by
  have hone : ∀ passes : Char → Bool,
      (∀ text, fits [token] text = true ↔ ∃ c, text = [c] ∧ passes c = true) →
      shift passes (marks (fits tokens) text) text = marks (fits (tokens ++ [token])) text :=
    fun _ htoken => shift_marks (fits_concat_nil htoken) (fits_concat_concat htoken) text
  cases token with
  | literal c =>
      refine hone (c == ·) fun text => ?_
      rcases text with _ | ⟨d, _ | ⟨e, rest⟩⟩ <;> simp [fits]
  | anyOne =>
      refine hone (fun _ => true) fun text => ?_
      rcases text with _ | ⟨d, _ | ⟨e, rest⟩⟩ <;> simp [fits]
  | anyStretch => exact spread_marks (fun _ => fits_concat_anyStretch) text

/-- The row after some tokens marks the beginnings of the text that fit them. -/
theorem lastRow_eq (tokens : List Token) (text : List Char) :
    lastRow tokens text = marks (fits tokens) text := by
  induction tokens using List.reverseRecOn with
  | nil => exact startRow_eq text
  | append_singleton tokens token ih =>
      have hstep : lastRow (tokens ++ [token]) text =
          token.nextRow text (lastRow tokens text) := by
        rw [lastRow, List.foldl_append]
        rfl
      rw [hstep, ih, nextRow_marks]

/-- A pattern accepts the values that fit it, both lowercased. -/
theorem accepts_eq_fits (pattern : SearchPattern) (value : String) :
    pattern.accepts value =
      fits (tokenize (lowerList pattern.text.toList)) (lowerList value.toList) := by
  simp only [accepts, lastRow_eq, getLastD_marks]

/-! ## Special characters -/

/-- The special characters as a class. -/
def specials : CharClass :=
  [(0x25, 0x25), (0x5c, 0x5c), (0x5f, 0x5f)]

/-- A character is special if it is one of the three. -/
theorem isSpecial_iff {c : Char} : isSpecial c = true ↔ c = '\\' ∨ c = '%' ∨ c = '_' := by
  simp only [isSpecial, Bool.or_eq_true, beq_iff_eq, or_assoc]

/-- The special characters make up their class. -/
theorem contains_specials (c : Char) : specials.contains c = isSpecial c := by
  have hlisted : specials.contains c = ['%', '\\', '_'].contains c :=
    CharClass.contains_ofList ['%', '\\', '_'] c
  rw [hlisted, Bool.eq_iff_iff, isSpecial_iff, List.contains_iff_mem]
  simp only [List.mem_cons, List.not_mem_nil, or_false]
  tauto

/-- In any context, a character becomes characters that are special if it is. -/
theorem isSpecial_of_mem_lowerInContext {before after : List Char} {c lower : Char}
    (hmem : lower ∈ lowerInContext before c after) : isSpecial lower = isSpecial c := by
  have hcaseless : specials.isCaseless = true := by decide +kernel
  have hclass := CharClass.contains_of_mem_lowerInContext hcaseless hmem
  rwa [contains_specials, contains_specials] at hclass

/-- A special character stays as it is in any context. -/
theorem lowerInContext_of_isSpecial {c : Char} (hspecial : isSpecial c = true)
    (before after : List Char) : lowerInContext before c after = [c] := by
  refine lowerInContext_of_not_hasLower ?_ before after
  rcases isSpecial_iff.1 hspecial with rfl | rfl | rfl <;> decide +kernel

/-- Behind a special character, the letters further on do not matter. -/
theorem startsCased_of_isSpecial {c : Char} (hspecial : isSpecial c = true) (rest : List Char) :
    startsCased (c :: rest) = false := by
  have hclasses : CharClass.caseIgnorable.contains c = false ∧
      CharClass.cased.contains c = false := by
    rcases isSpecial_iff.1 hspecial with rfl | rfl | rfl <;> decide +kernel
  rw [startsCased, List.dropWhile_cons_of_neg (by simp [hclasses.1])]
  exact hclasses.2

/-! ## Escaping and lowercasing -/

/-- Whether a cased letter comes first is up to the first character, unless it is ignored. -/
theorem startsCased_cons_congr {first second : List Char}
    (hsame : startsCased first = startsCased second) (c : Char) :
    startsCased (c :: first) = startsCased (c :: second) := by
  unfold startsCased at hsame ⊢
  by_cases hignored : CharClass.caseIgnorable.contains c = true
  · rw [List.dropWhile_cons_of_pos hignored, List.dropWhile_cons_of_pos hignored]
    exact hsame
  · rw [List.dropWhile_cons_of_neg hignored, List.dropWhile_cons_of_neg hignored]

/-- A text escaped and in front of a special character begins with a cased letter if it does. -/
theorem startsCased_escape {c : Char} (hspecial : isSpecial c = true) (s rest : List Char) :
    startsCased (escape s ++ c :: rest) = startsCased s := by
  induction s with
  | nil => exact startsCased_of_isSpecial hspecial rest
  | cons head tail ih =>
      rw [escape]
      split
      · rename_i hhead
        exact (startsCased_of_isSpecial rfl _).trans (startsCased_of_isSpecial hhead _).symm
      · exact startsCased_cons_congr ih head

/-- Characters that are not special need no escape. -/
theorem escape_append_of_not_special {front : List Char}
    (hplain : ∀ c ∈ front, isSpecial c = false) (back : List Char) :
    escape (front ++ back) = front ++ escape back := by
  induction front with
  | nil => rfl
  | cons c rest ih =>
      have hrest := ih fun d hmem => hplain d (List.mem_cons_of_mem _ hmem)
      rw [List.cons_append, escape, hplain c List.mem_cons_self, hrest]
      rfl

/-- What a character becomes depends on no more of its context than whether a cased letter precedes
it and whether one follows. -/
theorem lowerInContext_congr {before after before' after' : List Char}
    (hbefore : startsCased before = startsCased before')
    (hafter : startsCased after = startsCased after') (c : Char) :
    lowerInContext before c after = lowerInContext before' c after' := by
  unfold lowerInContext endsWord
  rw [hbefore, hafter]

/-- Escaping a text that a special character follows and then lowercasing is lowercasing it and then
escaping. -/
theorem lowerFrom_escape {before written : List Char} {c : Char}
    (hspecial : isSpecial c = true) (hbefore : startsCased written = startsCased before)
    (s : List Char) :
    lowerFrom written (escape s ++ [c]) = escape (lowerFrom before s) ++ [c] := by
  induction s generalizing before written with
  | nil => simp [escape, lowerFrom, lowerInContext_of_isSpecial hspecial]
  | cons head tail ih =>
      rw [escape, lowerFrom]
      split
      · rename_i hhead
        have hboth : startsCased (head :: '\\' :: written) = startsCased (head :: before) :=
          (startsCased_of_isSpecial hhead _).trans (startsCased_of_isSpecial hhead _).symm
        have hbackslash : isSpecial '\\' = true := rfl
        simp only [List.cons_append, lowerFrom, lowerInContext_of_isSpecial hhead,
          lowerInContext_of_isSpecial hbackslash, List.nil_append, ih hboth, escape, hhead,
          if_true]
      · rename_i hhead
        have hafter := startsCased_escape hspecial tail []
        have hplain : ∀ lower ∈ lowerInContext before head tail, isSpecial lower = false := by
          intro lower hmem
          rw [isSpecial_of_mem_lowerInContext hmem]
          simpa using hhead
        rw [List.cons_append, lowerFrom, lowerInContext_congr hbefore hafter,
          ih (startsCased_cons_congr hbefore head), escape_append_of_not_special hplain,
          List.append_assoc]

/-- The lowercase of a pattern made from a text is made from the lowercase of the text. -/
theorem lowerList_containing (text : String) :
    lowerList (containing text).text.toList =
      '%' :: (escape (lowerList text.toList) ++ ['%']) := by
  have hpercent : isSpecial '%' = true := rfl
  have hstart : startsCased ['%'] = startsCased [] := startsCased_of_isSpecial hpercent []
  rw [containing, String.toList_ofList, lowerList, lowerFrom,
    lowerInContext_of_isSpecial hpercent, lowerFrom_escape hpercent hstart]
  rfl

/-! ## Patterns made from texts -/

/-- An escaped text is read as its characters. -/
theorem tokenize_escape (s rest : List Char) :
    tokenize (escape s ++ rest) = s.map .literal ++ tokenize rest := by
  induction s with
  | nil => rfl
  | cons c tail ih =>
      rw [escape]
      split
      · simp [tokenize, ih]
      · rename_i hplain
        rw [isSpecial_iff] at hplain
        push Not at hplain
        obtain ⟨hbackslash, hpercent, hunderscore⟩ := hplain
        rw [List.cons_append, tokenize, if_neg hpercent, if_neg hunderscore, ih]
        · rfl
        · rintro d _ rfl
          exact absurd rfl hbackslash

/-- Only a text itself fits its characters. -/
theorem fits_literals_iff {s text : List Char} :
    fits (s.map .literal) text = true ↔ text = s := by
  induction s generalizing text with
  | nil => simp [fits]
  | cons c tail ih =>
      cases text with
      | nil => simp [fits]
      | cons d rest =>
          rw [List.map_cons, fits, Bool.and_eq_true, beq_iff_eq, ih, List.cons.injEq,
            @eq_comm _ c d]

/-- A pattern made from a text accepts a value exactly if the lowercase of the text is a contiguous
part of the lowercase of the value. -/
theorem accepts_containing_iff (text value : String) :
    (containing text).accepts value = true ↔
      (lowercase text).toList <:+: (lowercase value).toList := by
  have htokens : tokenize ('%' :: (escape (lowerList text.toList) ++ ['%'])) =
      .anyStretch :: ((lowerList text.toList).map .literal ++ [.anyStretch]) := by
    rw [tokenize, if_pos rfl, tokenize_escape]
    · rfl
    · rintro _ _ ⟨⟩
  rw [accepts_eq_fits, lowerList_containing, htokens, fits, anySuffix_iff, lowercase, lowercase,
    String.toList_ofList, String.toList_ofList, List.infix_iff_prefix_suffix]
  refine exists_congr fun back => ?_
  rw [and_comm, fits_concat_anyStretch]
  refine and_congr_left fun _ => ?_
  simp only [fits_literals_iff, exists_eq_right]

end SearchPattern
end Text
end Tenancy
