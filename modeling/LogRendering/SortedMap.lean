/-!
# Sorted maps

Finite maps from texts to values, as lists of entries in strictly increasing order of
the keys.  The order of texts is that of their code points.  A map does not remember the
order in which its entries were made: it is determined by the values found in it.
-/

namespace LogRendering

/-- The list with the entry for `key` replaced, or added at its place in the order of the
keys. -/
def insertEntry {α : Type} (key : String) (value : α) :
    List (String × α) → List (String × α)
  | [] => [(key, value)]
  | entry :: rest =>
    if key < entry.1 then (key, value) :: entry :: rest
    else if key = entry.1 then (key, value) :: rest
    else entry :: insertEntry key value rest

/-- The keys of the entries are strictly increasing. -/
def KeysIncrease {α : Type} (entries : List (String × α)) : Prop :=
  entries.Pairwise fun a b => a.1 < b.1

theorem mem_insertEntry
    {α : Type} {key : String} {value : α} {entries : List (String × α)}
    {entry : String × α} (h : entry ∈ insertEntry key value entries) :
  entry = (key, value) ∨ entry ∈ entries
  := by
  induction entries with
  | nil => simpa [insertEntry] using h
  | cons first rest ih =>
    simp only [insertEntry] at h
    split at h
    · simpa using h
    · split at h
      · simp only [List.mem_cons] at h ⊢
        rcases h with h | h
        · exact .inl h
        · exact .inr (.inr h)
      · simp only [List.mem_cons] at h ⊢
        rcases h with h | h
        · exact .inr (.inl h)
        · rcases ih h with h | h
          · exact .inl h
          · exact .inr (.inr h)

/-- If the keys increase strictly, they do so after `insertEntry`. -/
theorem keysIncrease_insertEntry
    {α : Type} (key : String) (value : α) {entries : List (String × α)}
    (h : KeysIncrease entries) :
  KeysIncrease (insertEntry key value entries)
  := by
  induction entries with
  | nil => simp [insertEntry, KeysIncrease]
  | cons first rest ih =>
    obtain ⟨hfirst, hrest⟩ := List.pairwise_cons.1 h
    simp only [insertEntry]
    split
    next hlt =>
      refine List.pairwise_cons.2 ⟨?_, h⟩
      intro entry hentry
      rcases List.mem_cons.1 hentry with rfl | hmem
      · exact hlt
      · exact String.lt_trans hlt (hfirst entry hmem)
    next hlt =>
      split
      next heq =>
        refine List.pairwise_cons.2 ⟨?_, hrest⟩
        intro entry hentry
        exact heq ▸ hfirst entry hentry
      next hne =>
        refine List.pairwise_cons.2 ⟨?_, ih hrest⟩
        intro entry hentry
        rcases mem_insertEntry hentry with rfl | hmem
        · rcases String.le_total key first.1 with hle | hle
          · exact absurd (String.le_antisymm hle (String.not_lt.1 hlt)) hne
          · exact String.not_le.1 fun hle' => hne (String.le_antisymm hle' hle)
        · exact hfirst entry hmem

/-- A finite map from texts to values: its `entries` in the strict order of their keys. -/
structure SortedMap (α : Type) where
  entries : List (String × α)
  increasing : KeysIncrease entries

namespace SortedMap

variable {α : Type}

/-- Maps with the same `entries` are equal. -/
theorem ext {m n : SortedMap α} (h : m.entries = n.entries) :
  m = n
  := by
  cases m
  cases n
  simp_all

/-- The map without entries. -/
def empty : SortedMap α :=
  ⟨[], List.Pairwise.nil⟩

instance : Inhabited (SortedMap α) := ⟨empty⟩

/-- The map in which `key` has the given `value`. -/
def insert (m : SortedMap α) (key : String) (value : α) : SortedMap α :=
  ⟨insertEntry key value m.entries, keysIncrease_insertEntry key value m.increasing⟩

/-- The map with all `entries` of a list, where a later entry replaces an earlier one. -/
def ofList (entries : List (String × α)) : SortedMap α :=
  entries.foldl (fun m entry => m.insert entry.1 entry.2) empty

/-- The value of `key`. -/
def get? (m : SortedMap α) (key : String) : Option α :=
  (m.entries.find? (·.1 = key)).map Prod.snd

/-- The number of `entries`. -/
def size (m : SortedMap α) : Nat :=
  m.entries.length

/-- The map has no entries. -/
def isEmpty (m : SortedMap α) : Bool :=
  m.entries.isEmpty

end SortedMap

end LogRendering
