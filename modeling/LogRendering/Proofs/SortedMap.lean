import LogRendering.SortedMap
import Mathlib.Data.List.Dedup
import Mathlib.Data.List.Sort

/-!
# Entries of sorted maps

A map made of entries of which the keys increase has these entries.  A map made of any list of
entries has for each key the value of its last entry in the list, and as a map is determined by
the values found in it, lists that agree in these make the same map.
-/

namespace LogRendering

variable {α : Type}

/-- An entry with a greater `key` than all others is inserted after them. -/
theorem insertEntry_of_forall_lt {key : String} {entries : List (String × α)}
    (h : ∀ entry ∈ entries, entry.1 < key) (value : α) :
  insertEntry key value entries = entries ++ [(key, value)]
  := by
  induction entries with
  | nil => rfl
  | cons first rest ih =>
      obtain ⟨hfirst, hrest⟩ := List.forall_mem_cons.mp h
      have hne : key ≠ first.1 := by
        rintro rfl
        exact String.lt_irrefl _ hfirst
      rw [insertEntry, if_neg (String.lt_asymm hfirst), if_neg hne, ih hrest, List.cons_append]

namespace SortedMap

/-- The `entries` with greater keys are inserted after those of a map, one after the other. -/
theorem entries_foldl_insert {m : SortedMap α} {entries : List (String × α)}
    (h : KeysIncrease (m.entries ++ entries)) :
  (entries.foldl (fun m entry => m.insert entry.1 entry.2) m).entries = m.entries ++ entries
  := by
  induction entries generalizing m with
  | nil => rw [List.foldl_nil, List.append_nil]
  | cons entry entries ih =>
      have hlast : ∀ first ∈ m.entries, first.1 < entry.1 := fun first hmem =>
        (List.pairwise_append.mp h).2.2 first hmem entry List.mem_cons_self
      have hinsert : (m.insert entry.1 entry.2).entries = m.entries ++ [entry] :=
        insertEntry_of_forall_lt hlast entry.2
      rw [List.append_cons, ← hinsert] at h ⊢
      rw [List.foldl_cons, ih h]

/-- A map made by `ofList` of entries of which the keys increase has these entries. -/
theorem entries_ofList {entries : List (String × α)} (h : KeysIncrease entries) :
  (ofList entries).entries = entries
  := entries_foldl_insert (m := empty) h

end SortedMap

/-! ### Values of keys -/

theorem find?_key_cons (entry : String × α) (rest : List (String × α)) (k : String) :
  (entry :: rest).find? (·.1 = k) = if entry.1 = k then some entry else rest.find? (·.1 = k)
  := by
  by_cases h : entry.1 = k
  · simp [h]
  · simp [h]

/-- The first entry of the key `k` after an insertion is the one inserted, or the one before. -/
theorem find?_insertEntry (key : String) (value : α) (entries : List (String × α)) (k : String) :
  (insertEntry key value entries).find? (·.1 = k)
    = if key = k then some (key, value) else entries.find? (·.1 = k)
  := by
  induction entries with
  | nil => rw [insertEntry, find?_key_cons]
  | cons first rest ih =>
      rw [insertEntry]
      split
      next => rw [find?_key_cons]
      next =>
        split
        next heq =>
          rw [find?_key_cons, find?_key_cons, ← heq]
          by_cases hk : key = k
          · rw [if_pos hk, if_pos hk]
          · rw [if_neg hk, if_neg hk, if_neg hk]
        next hne =>
          rw [find?_key_cons, find?_key_cons, ih]
          by_cases hk : key = k
          · rw [if_pos hk, if_pos hk, if_neg fun h => hne (hk.trans h.symm)]
          · rw [if_neg hk, if_neg hk]

/-- An entry of a key that is in a list with increasing keys is the first of this key. -/
theorem find?_of_mem {entries : List (String × α)} (h : KeysIncrease entries)
    {entry : String × α} (hmem : entry ∈ entries) :
  entries.find? (·.1 = entry.1) = some entry
  := by
  induction entries with
  | nil => exact absurd hmem List.not_mem_nil
  | cons first rest ih =>
      obtain ⟨hfirst, hrest⟩ := List.pairwise_cons.mp h
      obtain rfl | hmem := List.mem_cons.mp hmem
      · simp
      · have hne : first.1 ≠ entry.1 := String.ne_of_lt (hfirst entry hmem)
        simp [hne, ih hrest hmem]

/-- The value of the first entry of a key stands in the list. -/
theorem mem_of_map_find? {entries : List (String × α)} {key : String} {value : α}
    (h : (entries.find? (·.1 = key)).map Prod.snd = some value) :
  (key, value) ∈ entries
  := by
  obtain ⟨⟨k, v⟩, hfind, rfl⟩ := Option.map_eq_some_iff.mp h
  obtain rfl : k = key := by simpa using List.find?_some hfind
  exact List.mem_of_find?_eq_some hfind

/-- An entry is found for the keys of a list and for no others. -/
theorem isSome_map_find?_iff (entries : List (String × α)) (key : String) :
  ((entries.find? (·.1 = key)).map Prod.snd).isSome ↔ key ∈ entries.map Prod.fst
  := by
  rw [Option.isSome_map, List.find?_isSome, List.mem_map]
  simp only [decide_eq_true_eq]

/-- The value that the last entry of `key` in a list has. -/
def lastValue? (entries : List (String × α)) (key : String) : Option α :=
  (entries.reverse.find? (·.1 = key)).map Prod.snd

theorem lastValue?_cons (entry : String × α) (entries : List (String × α)) (key : String) :
  lastValue? (entry :: entries) key
    = (lastValue? entries key).or (if entry.1 = key then some entry.2 else none)
  := by
  rw [lastValue?, lastValue?, List.reverse_cons, List.find?_append, Option.map_or, find?_key_cons]
  split
  · rfl
  · rfl

/-- The last entry of a list gives `key` its value. -/
theorem lastValue?_concat (entries : List (String × α)) (key : String) (value : α) (k : String) :
  lastValue? (entries ++ [(key, value)]) k
    = if key = k then some value else lastValue? entries k
  := by
  rw [lastValue?, lastValue?, List.reverse_concat, find?_key_cons]
  split
  · rfl
  · rfl

/-- The last value of `key` stands in the list. -/
theorem mem_of_lastValue? {entries : List (String × α)} {key : String} {value : α}
    (h : lastValue? entries key = some value) :
  (key, value) ∈ entries
  := List.mem_reverse.mp (mem_of_map_find? h)

/-- The keys of a list are those that have a `lastValue?`. -/
theorem isSome_lastValue?_iff (entries : List (String × α)) (key : String) :
  (lastValue? entries key).isSome ↔ key ∈ entries.map Prod.fst
  := by
  rw [lastValue?, isSome_map_find?_iff, List.map_reverse, List.mem_reverse]

namespace SortedMap

theorem get?_insert (m : SortedMap α) (key : String) (value : α) (k : String) :
  (m.insert key value).get? k = if key = k then some value else m.get? k
  := by
  rw [get?, insert, find?_insertEntry]
  split
  next => rfl
  next => rfl

/-- An entry of a map is a value that `get?` finds in it. -/
theorem mem_entries_iff (m : SortedMap α) (key : String) (value : α) :
  (key, value) ∈ m.entries ↔ m.get? key = some value
  := by
  constructor
  · intro hmem
    rw [get?, find?_of_mem m.increasing hmem]
    rfl
  · exact mem_of_map_find?

/-- A map is determined by the values that `get?` finds in it. -/
theorem eq_of_forall_get?_eq {m n : SortedMap α} (h : ∀ key, m.get? key = n.get? key) :
  m = n
  := by
  apply ext
  apply m.increasing.eq_of_mem_iff n.increasing
  rintro ⟨key, value⟩
  rw [mem_entries_iff, mem_entries_iff, h]

theorem get?_foldl_insert (m : SortedMap α) (entries : List (String × α)) (key : String) :
  (entries.foldl (fun m entry => m.insert entry.1 entry.2) m).get? key
    = (lastValue? entries key).or (m.get? key)
  := by
  induction entries generalizing m with
  | nil => rfl
  | cons entry entries ih =>
      rw [List.foldl_cons, ih, get?_insert, lastValue?_cons, Option.or_assoc]
      split
      · rfl
      · rfl

/-- A map made by `ofList` has for each key the value of its last entry. -/
theorem get?_ofList (entries : List (String × α)) (key : String) :
  (ofList entries).get? key = lastValue? entries key
  := by
  rw [ofList, get?_foldl_insert]
  exact Option.or_none

/-- No key of a map is repeated. -/
theorem nodup_keys (m : SortedMap α) :
  (m.entries.map Prod.fst).Nodup
  := by
  apply List.Pairwise.map _ _ m.increasing
  intro a b hlt
  exact String.ne_of_lt hlt

/-- A map that has for each key its `lastValue?` in a list has as many entries as there are
different keys in the list. -/
theorem size_eq_of_get?_eq {m : SortedMap α} {entries : List (String × α)}
    (h : ∀ key, m.get? key = lastValue? entries key) :
  m.size = (entries.map Prod.fst).dedup.length
  := by
  have hkeys : (m.entries.map Prod.fst).Perm (entries.map Prod.fst).dedup := by
    apply (List.perm_ext_iff_of_nodup m.nodup_keys (List.nodup_dedup _)).mpr
    intro key
    rw [List.mem_dedup, ← isSome_map_find?_iff, ← isSome_lastValue?_iff, ← h, get?]
  rw [size, ← hkeys.length_eq, List.length_map]

/-- The map with `f` applied to the value of each key. -/
def mapValues {β : Type} (f : α → β) (m : SortedMap α) : SortedMap β where
  entries := m.entries.map fun entry => (entry.1, f entry.2)
  increasing := by
    rw [KeysIncrease, List.pairwise_map]
    exact m.increasing

theorem get?_mapValues {β : Type} (f : α → β) (m : SortedMap α) (key : String) :
  (m.mapValues f).get? key = (m.get? key).map f
  := by
  rw [get?, get?, mapValues, List.find?_map, Option.map_map, Option.map_map]
  rfl

/-- The functions `f` and `g`, applied to the values of maps, give the same map if and only if
they give the same values for each key. -/
theorem mapValues_eq_iff {β γ : Type} (f : α → γ) (g : β → γ) (m : SortedMap α) (n : SortedMap β) :
  m.mapValues f = n.mapValues g ↔ ∀ key, (m.get? key).map f = (n.get? key).map g
  := by
  simp only [← get?_mapValues]
  constructor
  · rintro h key
    rw [h]
  · apply eq_of_forall_get?_eq

end SortedMap

end LogRendering
