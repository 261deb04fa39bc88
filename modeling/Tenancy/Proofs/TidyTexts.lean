import Mathlib.Data.List.DropRight
import Mathlib.Data.List.Nodup
import Tenancy.Permission

/-!
# Tenancy - Lists of tidy texts

Requests name roles and permissions by texts that are trimmed, and blank and
repeated ones are passed over.  Ids that are trimmed and not blank pass through
unchanged.

Main definitions:

- `Text.IsTidy`: texts that trimming leaves as they are and that are not blank.

Main results:

- Theorem `Text.trim_trim`: trimming twice is trimming once.
- Theorem `Text.mem_map_keepFirst`, `Text.nodup_map_keepFirst`: keeping the first
  element of each key keeps all keys, each once.
- Theorem `Text.mem_distinctTrimmed`: what a list of requested ids comes to.
- Theorem `Permission.mem_lowercase_normalize`: the names that normalizing keeps.
-/

namespace Tenancy
namespace Text

/-! ## Trimming -/

/-- Dropping blanks at the end of a list that starts with none leaves a list that starts with
none. -/
theorem dropWhile_rdropWhile {p : Char → Bool} (s : List Char) :
    ((s.dropWhile p).rdropWhile p).dropWhile p = (s.dropWhile p).rdropWhile p := by
  rw [List.dropWhile_eq_self_iff]
  intro hlength
  have hbegins : (s.dropWhile p).rdropWhile p <+: s.dropWhile p := List.rdropWhile_prefix p _
  rw [hbegins.getElem hlength]
  exact List.dropWhile_get_zero_not p s _

/-- Trimming is dropping blanks at the front, then at the end. -/
theorem trimList_eq (s : List Char) :
    trimList s = (s.dropWhile isBlank).rdropWhile isBlank :=
  rfl

/-- Trimming a list twice is trimming it once. -/
theorem trimList_trimList (s : List Char) : trimList (trimList s) = trimList s := by
  rw [trimList_eq, trimList_eq, dropWhile_rdropWhile, List.rdropWhile_idempotent]

/-- Trimming twice is trimming once. -/
@[simp]
theorem trim_trim (s : String) : trim (trim s) = trim s := by
  simp only [trim, String.toList_ofList, trimList_trimList]

/-- Texts that trimming leaves as they are and that are not blank. -/
structure IsTidy (s : String) : Prop where
  trim : Text.trim s = s
  ne : s ≠ ""

instance (s : String) : Decidable (IsTidy s) :=
  decidable_of_iff (trim s = s ∧ s ≠ "") ⟨fun h => ⟨h.1, h.2⟩, fun h => ⟨h.trim, h.ne⟩⟩

/-- Trimmed texts are tidy. -/
theorem isTidy_of_mem_trimmedTexts {texts : List String} {s : String}
    (hmem : s ∈ trimmedTexts texts) : IsTidy s := by
  obtain ⟨hmem, hne⟩ := List.mem_filter.1 hmem
  obtain ⟨t, -, rfl⟩ := List.mem_map.1 hmem
  exact ⟨trim_trim t, by simpa using hne⟩

/-- A tidy text of a list is among the trimmed texts. -/
theorem mem_trimmedTexts_of_isTidy {texts : List String} {s : String} (htidy : IsTidy s)
    (hmem : s ∈ texts) : s ∈ trimmedTexts texts := by
  refine List.mem_filter.2 ⟨List.mem_map.2 ⟨s, hmem, htidy.trim⟩, ?_⟩
  simpa using htidy.ne

/-- Trimming leaves tidy texts as they are. -/
theorem trimmedTexts_eq_self {texts : List String} (htidy : ∀ s ∈ texts, IsTidy s) :
    trimmedTexts texts = texts := by
  have hmap : texts.map trim = texts := by
    rw [List.map_congr_left fun s hs => (htidy s hs).trim, List.map_id']
  rw [trimmedTexts, hmap, List.filter_eq_self]
  intro s hs
  simpa using (htidy s hs).ne

/-- The trimmed texts of two lists are those of the first before those of the second. -/
theorem trimmedTexts_append (texts others : List String) :
    trimmedTexts (texts ++ others) = trimmedTexts texts ++ trimmedTexts others := by
  rw [trimmedTexts, List.map_append, List.filter_append]
  rfl

/-! ## Keeping first elements -/

section KeepFirst

variable {α κ : Type} [BEq κ] [LawfulBEq κ] {key : α → κ} {seen : List κ} {records : List α}

/-- Keeping the first element of each key keeps all keys that were not seen before. -/
theorem mem_map_keepFirst {k : κ} :
    k ∈ (keepFirst key seen records).map key ↔ k ∈ records.map key ∧ k ∉ seen := by
  induction records generalizing seen with
  | nil => simp [keepFirst]
  | cons head rest ih =>
      unfold keepFirst
      split
      · rename_i hseen
        have hhead : key head ∈ seen := List.contains_iff_mem.1 hseen
        rw [ih, List.map_cons, List.mem_cons]
        constructor
        · exact fun h => ⟨.inr h.1, h.2⟩
        · rintro ⟨rfl | hrest, hnew⟩
          · exact absurd hhead hnew
          · exact ⟨hrest, hnew⟩
      · rename_i hseen
        have hhead : key head ∉ seen := fun h => hseen (List.contains_iff_mem.2 h)
        rw [List.map_cons, List.mem_cons, ih, List.map_cons, List.mem_cons, List.mem_cons, not_or]
        constructor
        · rintro (rfl | ⟨hrest, -, hnew⟩)
          · exact ⟨.inl rfl, hhead⟩
          · exact ⟨.inr hrest, hnew⟩
        · rintro ⟨heq | hrest, hnew⟩
          · exact .inl heq
          · by_cases hsame : k = key head
            · exact .inl hsame
            · exact .inr ⟨hrest, hsame, hnew⟩

/-- Keeping the first element of each key keeps each key once. -/
theorem nodup_map_keepFirst : ((keepFirst key seen records).map key).Nodup := by
  induction records generalizing seen with
  | nil => exact List.nodup_nil
  | cons head rest ih =>
      unfold keepFirst
      split
      · exact ih
      · rw [List.map_cons, List.nodup_cons]
        exact ⟨fun hmem => (mem_map_keepFirst.1 hmem).2 List.mem_cons_self, ih⟩

/-- Keeping the first element of each key changes nothing where each key occurs once. -/
theorem keepFirst_eq_self (hdistinct : (records.map key).Nodup)
    (hnew : ∀ record ∈ records, key record ∉ seen) : keepFirst key seen records = records := by
  induction records generalizing seen with
  | nil => rfl
  | cons head rest ih =>
      rw [List.map_cons, List.nodup_cons] at hdistinct
      have hhead : seen.contains (key head) = false := by simpa using hnew head List.mem_cons_self
      rw [keepFirst, hhead, if_neg Bool.false_ne_true, ih hdistinct.2]
      intro record hrecord
      rw [List.mem_cons, not_or]
      refine ⟨fun hsame => hdistinct.1 ?_, hnew record (List.mem_cons_of_mem _ hrecord)⟩
      exact hsame ▸ List.mem_map_of_mem hrecord

/-- What is kept is the first element of its key. -/
theorem find_of_mem_keepFirst {record : α} (hmem : record ∈ keepFirst key seen records) :
    records.find? (key · == key record) = some record := by
  induction records generalizing seen with
  | nil => cases hmem
  | cons head rest ih =>
      have hnew : key record ∉ seen := (mem_map_keepFirst.1 (List.mem_map_of_mem hmem)).2
      unfold keepFirst at hmem
      split at hmem
      · rename_i hseen
        have hne : (key head == key record) = false := by
          rw [beq_eq_false_iff_ne]
          rintro hsame
          exact hnew (hsame ▸ List.contains_iff_mem.1 hseen)
        rw [List.find?_cons, hne]
        exact ih hmem
      · rcases List.mem_cons.1 hmem with rfl | hrest
        · rw [List.find?_cons, beq_self_eq_true]
        · have hlater : key record ∉ key head :: seen :=
            (mem_map_keepFirst.1 (List.mem_map_of_mem hrest)).2
          have hne : (key head == key record) = false :=
            beq_eq_false_iff_ne.2 fun hsame => hlater (hsame ▸ List.mem_cons_self)
          rw [List.find?_cons, hne]
          exact ih hrest

omit [LawfulBEq κ] in
/-- Keeping the first element of each key drops the others. -/
theorem keepFirst_sublist : (keepFirst key seen records).Sublist records := by
  induction records generalizing seen with
  | nil => exact .slnil
  | cons head rest ih =>
      unfold keepFirst
      split
      · exact ih.cons head
      · exact ih.cons_cons head

end KeepFirst

/-- Keeping each text once keeps the same texts. -/
@[simp]
theorem mem_keepFirst_id {texts : List String} {s : String} :
    s ∈ keepFirst id [] texts ↔ s ∈ texts := by
  have hkeys : s ∈ (keepFirst id [] texts).map id ↔ s ∈ texts.map id ∧ s ∉ [] := mem_map_keepFirst
  simpa using hkeys

/-- Whether nothing is left after keeping each text once shows in the texts. -/
@[simp]
theorem isEmpty_keepFirst_id {texts : List String} :
    (keepFirst id [] texts).isEmpty = texts.isEmpty := by
  cases texts <;> simp [keepFirst]

/-! ## Requested ids -/

/-- The distinct trimmed texts are the trimmed ones. -/
theorem mem_distinctTrimmed {texts : List String} {s : String} :
    s ∈ distinctTrimmed texts ↔ s ∈ trimmedTexts texts :=
  mem_keepFirst_id

/-- The distinct trimmed texts are tidy. -/
theorem isTidy_of_mem_distinctTrimmed {texts : List String} {s : String}
    (hmem : s ∈ distinctTrimmed texts) : IsTidy s :=
  isTidy_of_mem_trimmedTexts (mem_distinctTrimmed.1 hmem)

/-- The distinct trimmed texts are distinct. -/
theorem nodup_distinctTrimmed (texts : List String) : (distinctTrimmed texts).Nodup := by
  have hkeys : ((keepFirst id [] (trimmedTexts texts)).map id).Nodup := nodup_map_keepFirst
  simpa [distinctTrimmed] using hkeys

/-- The distinct trimmed texts of tidy ones are those texts. -/
theorem mem_distinctTrimmed_of_tidy {texts : List String} (htidy : ∀ s ∈ texts, IsTidy s)
    {s : String} : s ∈ distinctTrimmed texts ↔ s ∈ texts := by
  rw [mem_distinctTrimmed, trimmedTexts_eq_self htidy]

/-- Tidy texts that are distinct are the distinct trimmed ones of themselves. -/
theorem distinctTrimmed_eq_self {texts : List String} (htidy : ∀ s ∈ texts, IsTidy s)
    (hdistinct : texts.Nodup) : distinctTrimmed texts = texts := by
  rw [distinctTrimmed, trimmedTexts_eq_self htidy]
  exact keepFirst_eq_self (by simpa using hdistinct) nofun

end Text

/-! ## Permission names -/

namespace Permission

/-- Up to case, normalizing keeps exactly the trimmed names. -/
theorem mem_lowercase_normalize {names : List String} {name : String} :
    name ∈ (normalize names).map Text.lowercase ↔
      name ∈ (Text.trimmedTexts names).map Text.lowercase := by
  rw [normalize, ((List.mergeSort_perm _ nameLE).map Text.lowercase).mem_iff,
    Text.mem_map_keepFirst]
  simp

end Permission
end Tenancy
