/-!
# Tenancy - Metadata

Metadata maps keys to values, both plain text.  It is kept in ascending order
of keys, each key once, so that equal maps are equal values.

Main definitions:

- `Metadata`: a map in ascending order of keys.
- `Metadata.insert`: set the value of a key, in place of an earlier one.
- `Metadata.ofList`: the map that a list of settings leaves; the last one of a key wins.
-/

namespace Tenancy

/-- A map from keys to values in strictly ascending order of keys. -/
structure Metadata where
  entries : List (String × String)
  ascending : entries.Pairwise fun a b => a.1 < b.1
deriving DecidableEq

namespace Metadata

/-- The map without keys. -/
def empty : Metadata :=
  ⟨[], .nil⟩

instance : Inhabited Metadata := ⟨empty⟩

/-- Put a key into an ascending list, in place of an equal one. -/
def insertEntry (key value : String) : List (String × String) → List (String × String)
  | [] => [(key, value)]
  | entry :: rest =>
    if key < entry.1 then (key, value) :: entry :: rest
    else if key = entry.1 then (key, value) :: rest
    else entry :: insertEntry key value rest

/-- The keys after an insertion are the inserted one and those before. -/
theorem mem_insertEntry {key value : String} {entries : List (String × String)}
    {entry : String × String} (h : entry ∈ insertEntry key value entries) :
    entry = (key, value) ∨ entry ∈ entries := by
  induction entries with
  | nil => simpa [insertEntry] using h
  | cons head rest ih =>
    unfold insertEntry at h
    split at h
    · simpa using h
    · split at h
      · rcases List.mem_cons.1 h with h | h
        · exact .inl h
        · exact .inr (List.mem_cons_of_mem _ h)
      · rcases List.mem_cons.1 h with h | h
        · exact .inr (h ▸ List.mem_cons_self)
        · exact (ih h).imp_right (List.mem_cons_of_mem _)

/-- Insertion keeps the ascending order. -/
theorem pairwise_insertEntry (key value : String) {entries : List (String × String)}
    (h : entries.Pairwise fun a b => a.1 < b.1) :
    (insertEntry key value entries).Pairwise fun a b => a.1 < b.1 := by
  induction entries with
  | nil => simp [insertEntry]
  | cons head rest ih =>
    obtain ⟨below, ordered⟩ := List.pairwise_cons.1 h
    unfold insertEntry
    split
    · rename_i less
      refine List.pairwise_cons.2 ⟨fun entry mem => ?_, h⟩
      rcases List.mem_cons.1 mem with rfl | mem
      · exact less
      · exact String.lt_trans less (below entry mem)
    · split
      · rename_i equal
        exact List.pairwise_cons.2 ⟨fun entry mem => equal ▸ below entry mem, ordered⟩
      · rename_i notLess notEqual
        refine List.pairwise_cons.2 ⟨fun entry mem => ?_, ih ordered⟩
        rcases mem_insertEntry mem with rfl | mem
        · exact String.not_le.1 fun le =>
            notEqual (String.le_antisymm le (String.not_lt.1 notLess))
        · exact below entry mem

/-- Set the value of a key. -/
def insert (metadata : Metadata) (key value : String) : Metadata :=
  ⟨insertEntry key value metadata.entries, pairwise_insertEntry key value metadata.ascending⟩

/-- Apply settings one after the other. -/
def insertAll (metadata : Metadata) (settings : List (String × String)) : Metadata :=
  settings.foldl (fun result setting => result.insert setting.1 setting.2) metadata

/-- The map that a list of settings leaves. -/
def ofList (settings : List (String × String)) : Metadata :=
  empty.insertAll settings

end Metadata
end Tenancy
