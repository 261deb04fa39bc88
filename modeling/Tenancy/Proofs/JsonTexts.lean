import Mathlib.Tactic.SplitIfs
import Tenancy.Json.Reader
import Tenancy.Json.Records

/-!
# Tenancy - Texts in JSON

Metadata and the roles of invitations are stored as JSON: an object of texts, and an
array of texts.  Whatever the texts are, quotes, backslashes and control characters
included, what is written is read back as it was.

Main definitions:

- `Json.partOf`: the element of a string literal that a character is read as.
- `Json.textMembers`: the members of an object of texts.

Main results:

- Theorem `Json.readString_writeText`: a string literal is read back as its text.
- Theorem `Json.readItems_writeItems`, `Json.readMembers_writeMembers`: the texts of an
  array and of an object are read back, whatever follows them.
- Theorem `Json.read_render_list`, `Json.read_render_record`: so are whole arrays and
  objects of texts.
- Theorem `Metadata.ofJson_encoded`, `Invitation.roleIds_encoded`: metadata and invited
  roles are read back.
-/

namespace Tenancy
namespace Json

/-! ## String literals -/

/-- The element of a string literal that a character is read as: a control character without a short
escape is written as its code. -/
def partOf (c : Char) : LiteralPart :=
  if c = '\n' ∨ c = '\r' ∨ c = '\t' ∨ c = '\x08' ∨ c = '\x0c' then .char c
  else if c.toNat < 0x20 then .unit c.toNat
  else .char c

/-- The two digits of a code below 32 are read as the code. -/
theorem hexUnit_hexDigit {code : Nat} (hlow : code < 0x20) :
    hexUnit? '0' '0' (hexDigit (code / 16)) (hexDigit (code % 16)) = some code := by
  have hall : ∀ code : Fin 0x20,
      hexUnit? '0' '0' (hexDigit (code / 16)) (hexDigit (code % 16)) = some code.val := by
    decide +kernel
  exact hall ⟨code, hlow⟩

/-- A short escape is read as the character that it stands for. -/
theorem readLiteral_short {letter meant : Char} (hshort : shortEscape? letter = some meant)
    (s : List Char) :
    readLiteral ('\\' :: letter :: s) =
      (readLiteral s).map fun read => (.char meant :: read.1, read.2) := by
  have hletter : letter ≠ 'u' := by
    rintro rfl
    cases hshort
  rw [readLiteral]
  · rw [hshort, Option.map_eq_bind]
    rfl
  · intro _ _ _ _ _ hu _
    exact hletter hu

/-- A long escape is read as its code. -/
theorem readLiteral_long {a b c d : Char} {code : Nat} (hcode : hexUnit? a b c d = some code)
    (s : List Char) :
    readLiteral ('\\' :: 'u' :: a :: b :: c :: d :: s) =
      (readLiteral s).map fun read => (.unit code :: read.1, read.2) := by
  rw [readLiteral, hcode, Option.map_eq_bind]
  rfl

/-- A character that needs no escape is read as it is. -/
theorem readLiteral_plain {c : Char} (hquote : c ≠ '"') (hbackslash : c ≠ '\\')
    (hcontrol : ¬c.toNat < 0x20) (s : List Char) :
    readLiteral (c :: s) = (readLiteral s).map fun read => (.char c :: read.1, read.2) := by
  rw [readLiteral]
  · rw [if_neg hcontrol, Option.map_eq_bind]
    rfl
  · exact fun hsame => hquote hsame
  · exact fun _ _ _ _ _ hsame => absurd hsame hbackslash
  · exact fun _ _ hsame => absurd hsame hbackslash

/-- A character that is written is read as one element. -/
theorem readLiteral_writeChar (c : Char) (s : List Char) :
    readLiteral (writeChar c ++ s) =
      (readLiteral s).map fun read => (partOf c :: read.1, read.2) := by
  unfold writeChar
  split_ifs with hquote hbackslash hnewline hreturn htab hback hfeed hcontrol
  · subst hquote
    exact readLiteral_short rfl s
  · subst hbackslash
    exact readLiteral_short rfl s
  · subst hnewline
    exact readLiteral_short rfl s
  · subst hreturn
    exact readLiteral_short rfl s
  · subst htab
    exact readLiteral_short rfl s
  · subst hback
    exact readLiteral_short rfl s
  · subst hfeed
    exact readLiteral_short rfl s
  · have hpart : partOf c = .unit c.toNat := by
      simp only [partOf, hnewline, hreturn, htab, hback, hfeed, hcontrol, or_self, if_false,
        if_true]
    rw [hpart]
    exact readLiteral_long (hexUnit_hexDigit hcontrol) s
  · have hpart : partOf c = .char c := by
      simp only [partOf, hcontrol, if_false, ite_self]
    rw [hpart]
    exact readLiteral_plain hquote hbackslash hcontrol s

/-- Characters that are written are read up to the closing quote. -/
theorem readLiteral_writeText (value rest : List Char) :
    readLiteral (value.flatMap writeChar ++ '"' :: rest) = some (value.map partOf, rest) := by
  induction value with
  | nil => rfl
  | cons c value ih =>
      rw [List.flatMap_cons, List.append_assoc, readLiteral_writeChar, ih]
      rfl

/-- A code that is no surrogate denotes a character of its own. -/
theorem joinUnits_unit {code : Nat} (hlow : code < 0xd800) (parts : List LiteralPart) :
    joinUnits (.unit code :: parts) = (joinUnits parts).map (Char.ofNat code :: ·) := by
  have hhigh : isHighSurrogate code = false := by
    simp only [isHighSurrogate, Bool.and_eq_false_iff, decide_eq_false_iff_not]
    omega
  have hlow : isLowSurrogate code = false := by
    simp only [isLowSurrogate, Bool.and_eq_false_iff, decide_eq_false_iff_not]
    omega
  cases parts with
  | nil => simp [joinUnits, hhigh, hlow]
  | cons part parts =>
      cases part with
      | char c => simp [joinUnits, hhigh, hlow]
      | unit other => simp [joinUnits, hhigh, hlow]

/-- The element that a character is read as denotes the character. -/
theorem joinUnits_partOf (c : Char) (parts : List LiteralPart) :
    joinUnits (partOf c :: parts) = (joinUnits parts).map (c :: ·) := by
  unfold partOf
  split
  · rfl
  · split
    · rename_i hcontrol
      rw [joinUnits_unit (by omega), Char.ofNat_toNat]
    · rfl

/-- The elements that characters are read as denote the characters. -/
theorem joinUnits_map_partOf (value : List Char) : joinUnits (value.map partOf) = some value := by
  induction value with
  | nil => rfl
  | cons c value ih =>
      rw [List.map_cons, joinUnits_partOf, ih]
      rfl

/-- A string literal is read back as its text. -/
theorem readString_writeText (value : String) (rest : List Char) :
    readString (value.toList.flatMap writeChar ++ '"' :: rest) = some (some value, rest) := by
  rw [readString, readLiteral_writeText, Option.map_some]
  dsimp only
  rw [joinUnits_map_partOf, Option.map_some, String.ofList_toList]

/-- A text is written between quotes. -/
theorem write_text (value : String) (rest : List Char) :
    write (.text value) ++ rest = '"' :: (value.toList.flatMap writeChar ++ '"' :: rest) := by
  simp [write, text, writeString, writeText]

/-- A text is read back, whatever follows it. -/
theorem readValue_text (fuel : Nat) (value : String) (rest : List Char) :
    readValue (fuel + 1) (write (.text value) ++ rest) = some (.text value, rest) := by
  rw [write_text, readValue]
  simp [skipBlanks, readString_writeText, text]

/-! ## Arrays of texts -/

/-- An element before a closing bracket is the last one. -/
theorem readItems_last {fuel : Nat} {s rest : List Char} {item : Json}
    (hitem : readValue fuel s = some (item, ']' :: rest)) :
    readItems (fuel + 1) s = some ([item], rest) := by
  rw [readItems, hitem]
  rfl

/-- An element before a comma is followed by more. -/
theorem readItems_more {fuel : Nat} {s later : List Char} {item : Json}
    (hitem : readValue fuel s = some (item, ',' :: later)) :
    readItems (fuel + 1) s =
      (readItems fuel later).map fun read => (item :: read.1, read.2) := by
  rw [readItems, hitem]
  rfl

/-- The texts of an array are read back up to the closing bracket. -/
theorem readItems_writeItems (texts : List String) (hsome : texts ≠ []) {fuel : Nat}
    (hfuel : texts.length < fuel) (rest : List Char) :
    readItems fuel (writeItems (texts.map text) ++ ']' :: rest) = some (texts.map text, rest) := by
  induction texts generalizing fuel with
  | nil => exact absurd rfl hsome
  | cons first later ih =>
      rw [List.length_cons] at hfuel
      obtain ⟨fuel, rfl⟩ : ∃ more, fuel = more + 2 := ⟨fuel - 2, by omega⟩
      cases later with
      | nil =>
          rw [List.map_singleton, writeItems]
          exact readItems_last (readValue_text fuel first (']' :: rest))
      | cons second later =>
          have hwritten : writeItems ((first :: second :: later).map text) ++ ']' :: rest =
              write (text first) ++
                ',' :: (writeItems ((second :: later).map text) ++ ']' :: rest) := by
            simp [writeItems]
          rw [hwritten, readItems_more (readValue_text fuel first _),
            ih (List.cons_ne_nil _ _) (by omega)]
          rfl

/-- A text takes at least two characters in writing. -/
theorem length_write_text (value : String) : 2 ≤ (write (text value)).length := by
  have hlength := congrArg List.length (write_text value [])
  simp only [List.append_nil, List.length_cons, List.length_append] at hlength
  omega

/-- There are no more texts in an array than characters in its writing. -/
theorem length_le_writeItems (texts : List String) :
    texts.length ≤ (writeItems (texts.map text)).length := by
  induction texts with
  | nil => exact Nat.zero_le _
  | cons first later ih =>
      have hfirst := length_write_text first
      cases later with
      | nil =>
          rw [List.map_singleton, writeItems]
          simp only [List.length_singleton]
          omega
      | cons second later =>
          simp only [List.map_cons, writeItems, List.length_append, List.length_cons] at ih ⊢
          omega

/-- An array that starts with a text starts with its quote. -/
theorem exists_writeItems (first : String) (later : List Json) (rest : List Char) :
    ∃ s, writeItems (text first :: later) ++ rest = '"' :: s := by
  cases later with
  | nil => exact ⟨_, write_text first rest⟩
  | cons second later =>
      have hwritten : writeItems (text first :: second :: later) ++ rest =
          write (text first) ++ (',' :: writeItems (second :: later) ++ rest) := by
        simp [writeItems]
      exact ⟨_, hwritten.trans (write_text first _)⟩

/-- Elements that start with a text make an array. -/
theorem readValue_array {fuel : Nat} {s rest : List Char} {items : List Json}
    (hitems : readItems fuel ('"' :: s) = some (items, rest)) :
    readValue (fuel + 1) ('[' :: '"' :: s) = some (.array items, rest) := by
  have hvalue : readValue (fuel + 1) ('[' :: '"' :: s) =
      (readItems fuel ('"' :: s)).map fun read => (.array read.1, read.2) := by
    rw [readValue]
    rfl
  rw [hvalue, hitems]
  rfl

/-- A value with nothing after it is what the whole text spells. -/
theorem read_of_readValue {value : Json} {s : List Char}
    (hvalue : readValue (2 * s.length + 2) s = some (value, [])) :
    read (String.ofList s) = some value := by
  rw [read, String.toList_ofList, hvalue]
  rfl

/-- An array of texts is read back. -/
theorem read_render_list (texts : List String) :
    read (render (list text texts)) = some (list text texts) := by
  refine read_of_readValue ?_
  cases texts with
  | nil => rfl
  | cons first later =>
      have hwritten : write (list text (first :: later)) =
          '[' :: (writeItems ((first :: later).map text) ++ [']']) := rfl
      have hcount := length_le_writeItems (first :: later)
      obtain ⟨s, hs⟩ := exists_writeItems first (later.map text) [']']
      have hlength := congrArg List.length hs
      rw [hwritten, List.map_cons, hs]
      refine readValue_array ?_
      rw [← hs, ← List.map_cons]
      refine readItems_writeItems _ (List.cons_ne_nil _ _) ?_ []
      simp only [List.length_append, List.length_cons, List.map_cons] at hcount hlength ⊢
      omega

/-! ## Objects of texts -/

/-- The members of an object of texts. -/
def textMembers (settings : List (String × String)) : List (Option String × Json) :=
  settings.map fun setting => (some setting.1, text setting.2)

/-- A member before a closing brace is the last one. -/
theorem readMembers_last {fuel : Nat} {s t rest : List Char} {key : Option String} {value : Json}
    (hkey : readString s = some (key, ':' :: t))
    (hvalue : readValue fuel t = some (value, '}' :: rest)) :
    readMembers (fuel + 1) ('"' :: s) = some ([(key, value)], rest) := by
  have hquote : skipBlanks ('"' :: s) = '"' :: s := rfl
  have hcolon : skipBlanks (':' :: t) = ':' :: t := rfl
  have hbrace : skipBlanks ('}' :: rest) = '}' :: rest := rfl
  simp only [readMembers, hquote, hkey, hcolon, hvalue, hbrace]

/-- A member before a comma is followed by more. -/
theorem readMembers_more {fuel : Nat} {s t later : List Char} {key : Option String} {value : Json}
    (hkey : readString s = some (key, ':' :: t))
    (hvalue : readValue fuel t = some (value, ',' :: later)) :
    readMembers (fuel + 1) ('"' :: s) =
      (readMembers fuel later).map fun read => ((key, value) :: read.1, read.2) := by
  have hquote : skipBlanks ('"' :: s) = '"' :: s := rfl
  have hcolon : skipBlanks (':' :: t) = ':' :: t := rfl
  have hcomma : skipBlanks (',' :: later) = ',' :: later := rfl
  simp only [readMembers, hquote, hkey, hcolon, hvalue, hcomma]

/-- A member is its key, a colon and its text, and what follows it. -/
theorem writeMembers_cons (setting : String × String) (later : List (String × String))
    (rest : List Char) :
    writeMembers (textMembers (setting :: later)) ++ rest =
      '"' :: (setting.1.toList.flatMap writeChar ++ '"' :: ':' :: (write (text setting.2) ++
        match later with
        | [] => rest
        | _ :: _ => ',' :: (writeMembers (textMembers later) ++ rest))) := by
  cases later with
  | nil => simp [textMembers, writeMembers, writeString, writeText]
  | cons second later => simp [textMembers, writeMembers, writeString, writeText]

/-- The members of an object are read back up to the closing brace. -/
theorem readMembers_writeMembers (settings : List (String × String)) (hsome : settings ≠ [])
    {fuel : Nat} (hfuel : settings.length < fuel) (rest : List Char) :
    readMembers fuel (writeMembers (textMembers settings) ++ '}' :: rest) =
      some (textMembers settings, rest) := by
  induction settings generalizing fuel with
  | nil => exact absurd rfl hsome
  | cons first later ih =>
      rw [List.length_cons] at hfuel
      obtain ⟨fuel, rfl⟩ : ∃ more, fuel = more + 2 := ⟨fuel - 2, by omega⟩
      rw [writeMembers_cons]
      cases later with
      | nil => exact readMembers_last (readString_writeText _ _) (readValue_text fuel _ _)
      | cons second later =>
          dsimp only
          rw [readMembers_more (readString_writeText _ _) (readValue_text fuel _ _),
            ih (List.cons_ne_nil _ _) (by omega)]
          rfl

/-- There are no more members in an object than characters in its writing. -/
theorem length_le_writeMembers (settings : List (String × String)) :
    settings.length ≤ (writeMembers (textMembers settings)).length := by
  induction settings with
  | nil => exact Nat.zero_le _
  | cons first later ih =>
      have hlength := congrArg List.length (writeMembers_cons first later [])
      cases later with
      | nil =>
          simp only [List.append_nil, List.length_cons, List.length_append, List.length_nil]
            at hlength ⊢
          omega
      | cons second later =>
          simp only [List.append_nil, List.length_cons, List.length_append] at ih hlength ⊢
          omega

/-- Members make an object. -/
theorem readValue_object {fuel : Nat} {s rest : List Char} {members : List (Option String × Json)}
    (hmembers : readMembers fuel ('"' :: s) = some (members, rest)) :
    readValue (fuel + 1) ('{' :: '"' :: s) = some (.object members, rest) := by
  have hvalue : readValue (fuel + 1) ('{' :: '"' :: s) =
      (readMembers fuel ('"' :: s)).map fun read => (.object read.1, read.2) := by
    rw [readValue]
    rfl
  rw [hvalue, hmembers]
  rfl

/-- An object of texts is read back. -/
theorem read_render_record (settings : List (String × String)) :
    read (render (.object (textMembers settings))) = some (.object (textMembers settings)) := by
  refine read_of_readValue ?_
  cases settings with
  | nil => rfl
  | cons first later =>
      have hwritten : write (.object (textMembers (first :: later))) =
          '{' :: (writeMembers (textMembers (first :: later)) ++ ['}']) := by
        rw [write]
      have hcount := length_le_writeMembers (first :: later)
      have hmembers := writeMembers_cons first later ['}']
      have hlength := congrArg List.length hmembers
      rw [hwritten, hmembers]
      refine readValue_object ?_
      rw [← hmembers]
      refine readMembers_writeMembers _ (List.cons_ne_nil _ _) ?_ []
      simp only [List.length_append, List.length_cons] at hcount hlength ⊢
      omega

end Json

/-! ## Metadata -/

namespace Metadata

/-- A key above all others is put at the end. -/
theorem insertEntry_of_above {key : String} (value : String) {entries : List (String × String)}
    (habove : ∀ entry ∈ entries, entry.1 < key) :
    insertEntry key value entries = entries ++ [(key, value)] := by
  induction entries with
  | nil => rfl
  | cons entry rest ih =>
      have hbelow : entry.1 < key := habove entry List.mem_cons_self
      have hother : key ≠ entry.1 := fun hsame => String.lt_irrefl _ (hsame ▸ hbelow)
      rw [insertEntry, if_neg (String.lt_asymm hbelow), if_neg hother,
        ih fun entry hentry => habove entry (List.mem_cons_of_mem _ hentry)]
      rfl

/-- Entries that ascend beyond those of a map are added after them. -/
theorem entries_insertAll (metadata : Metadata) (settings : List (String × String))
    (hascending : (metadata.entries ++ settings).Pairwise fun a b => a.1 < b.1) :
    (metadata.insertAll settings).entries = metadata.entries ++ settings := by
  induction settings generalizing metadata with
  | nil => simp [insertAll]
  | cons setting rest ih =>
      have habove : ∀ entry ∈ metadata.entries, entry.1 < setting.1 := fun entry hentry =>
        (List.pairwise_append.1 hascending).2.2 entry hentry setting List.mem_cons_self
      have hinsert : (metadata.insert setting.1 setting.2).entries =
          metadata.entries ++ [setting] := insertEntry_of_above setting.2 habove
      have hrest := ih (metadata.insert setting.1 setting.2)
        (by rwa [hinsert, List.append_assoc])
      rw [hinsert, List.append_assoc] at hrest
      exact hrest

/-- Maps with the same entries are the same. -/
theorem eq_of_entries {first second : Metadata} (hentries : first.entries = second.entries) :
    first = second := by
  cases first
  cases second
  cases hentries
  rfl

/-- The entries of a map make the map. -/
theorem ofList_entries (metadata : Metadata) : ofList metadata.entries = metadata :=
  eq_of_entries (entries_insertAll empty metadata.entries metadata.ascending)

/-- The settings of an object of texts are the settings that it was made of. -/
theorem settings_textMembers (settings : List (String × String)) :
    settings? (Json.textMembers settings) = some settings := by
  unfold settings? Json.textMembers
  induction settings with
  | nil => rfl
  | cons setting rest ih =>
      rw [List.map_cons, List.mapM_cons, ih]
      rfl

/-- Metadata that are written are read back. -/
theorem ofJson_encoded (metadata : Metadata) :
    (Json.read metadata.encoded).bind ofJson? = some metadata := by
  have hjson : metadata.toJson = .object (Json.textMembers metadata.entries) := by
    simp only [toJson, Json.record, Json.textMembers, List.map_map]
    rfl
  rw [encoded, hjson, Json.read_render_record, Option.bind_some, ofJson?, settings_textMembers,
    Option.map_some, ofList_entries]

end Metadata

/-! ## Invited roles -/

/-- Invited roles that are written are read back. -/
theorem Invitation.roleIds_encoded (roleIds : List String) :
    (Json.read (roleIdsJson roleIds).render).bind roleIds? = some roleIds := by
  rw [roleIdsJson, Json.read_render_list, Option.bind_some]
  unfold roleIds? Json.listOf? Json.list
  dsimp only
  induction roleIds with
  | nil => rfl
  | cons roleId rest ih =>
      rw [List.map_cons, List.mapM_cons, ih]
      rfl

end Tenancy
