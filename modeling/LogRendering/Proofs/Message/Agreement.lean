import LogRendering.Proofs.Message.Faithful

/-!
# One map written in two ways

A map can be written as the message that renders itself in JSON, and as the structured value
that is the mapping of the same entries.  Both ways write the same text, that of the object with
a member for each key, whatever insertions made the one and the other, as long as the last value
of each key is the same.
-/

namespace LogRendering

/-! ### Insertions -/

namespace MapMessage

variable {m : MapMessage} {insertions insertions' : List (String × FieldValue)}

/-- The message is made by the insertions: of none, of a list at once by `ofList`, or of one more
by `insert`. -/
inductive IsMadeBy : MapMessage → List (String × FieldValue) → Prop where
  | empty : IsMadeBy empty []
  | ofList (insertions : List (String × FieldValue)) : IsMadeBy (ofList insertions) insertions
  | insert {m : MapMessage} {insertions : List (String × FieldValue)} (h : IsMadeBy m insertions)
    (key : String) (value : FieldValue) :
    IsMadeBy (m.insert key value) (insertions ++ [(key, value)])

/-- A key of the message has the value of its last insertion, `lastValue?`. -/
theorem IsMadeBy.get?_eq (h : m.IsMadeBy insertions) (key : String) :
  m.get? key = lastValue? insertions key
  := by
  induction h with
  | empty => rfl
  | ofList insertions => exact SortedMap.get?_ofList insertions key
  | insert h k value ih =>
      rw [lastValue?_concat, ← ih]
      exact SortedMap.get?_insert _ k value key

/-- An entry of the message is the last insertion of its key. -/
theorem IsMadeBy.mem_entries_iff (h : m.IsMadeBy insertions) (key : String) (v : FieldValue) :
  (key, v) ∈ m.entries.entries ↔ lastValue? insertions key = some v
  := by
  rw [SortedMap.mem_entries_iff, ← h.get?_eq]
  rfl

/-- The mapping made of `insertions'` with the same last values is that of the entries of the
message. -/
theorem IsMadeBy.ofEntries_eq (h : m.IsMadeBy insertions)
    (hsame : ∀ key, lastValue? insertions key = lastValue? insertions' key) :
  .ofEntries insertions' = m.toField
  := by
  have hentries : SortedMap.ofList insertions' = m.entries := by
    apply SortedMap.eq_of_forall_get?_eq
    intro key
    rw [SortedMap.get?_ofList, ← hsame, ← h.get?_eq]
    rfl
  rw [FieldValue.ofEntries, hentries, toField]

/-- A map message renders itself in JSON as the mapping `toField` is rendered. -/
theorem jsonText_eq_toJsonText (m : MapMessage) :
  m.jsonText = m.toField.toJsonText
  := by
  rw [jsonText, toField, FieldValue.toJsonText, FieldValue.toJson]
  cases hmembers : FieldValue.toJsonEntries m.entries.entries with
  | error abort => rfl
  | ok members =>
      have hincrease := FieldValue.keysIncrease_members
        ((FieldValue.toJsonEntries_eq_ok_iff _ members).mp hmembers) m.entries.increasing
      show Except.ok (Json.Value.ofMembers members).write = _
      rw [Json.Value.ofMembers_eq hincrease]
      rfl

end MapMessage

/-! ### Members -/

namespace FieldValue

variable {entries : List (String × FieldValue)} {members : List (String × Json.Value)}

/-- The `members` of an object are the JSON values of the entries of which they are made. -/
theorem mem_members_iff (h : List.Forall₂ IsMemberOf entries members) (key : String)
    (value : Json.Value) :
  (key, value) ∈ members ↔ ∃ v, (key, v) ∈ entries ∧ v.toJson = .ok value
  := by
  constructor
  · intro hmember
    obtain ⟨⟨k, v⟩, hmem, rfl, hvalue⟩ := exists_mem_of_forall₂ (List.Forall₂.flip h) hmember
    exact ⟨v, hmem, hvalue⟩
  · rintro ⟨v, hmem, hvalue⟩
    obtain ⟨⟨k, value'⟩, hmember, rfl, hvalue'⟩ := exists_mem_of_forall₂ h hmem
    obtain rfl : value' = value := Except.ok.inj (hvalue'.symm.trans hvalue)
    exact hmember

end FieldValue

/-! ### Written maps -/

namespace MapMessage

variable {m : MapMessage} {insertions insertions' : List (String × FieldValue)}

/-- A message of which each entry `IsLegible` is the mapping that has a JSON value. -/
theorem exists_toJson_toField
    (hlegible : ∀ entry ∈ m.entries.entries, entry.2.IsLegible) :
  ∃ members, List.Forall₂ FieldValue.IsMemberOf m.entries.entries members
    ∧ m.toField.toJson = .ok (.object members)
  := by
  obtain ⟨value, hvalue⟩ :=
    m.toField.exists_toJson_iff.mpr ((FieldValue.isLegible_map_iff _).mpr hlegible)
  obtain ⟨members, hmembers, rfl⟩ := (FieldValue.toJson_map_eq_ok_iff _ value).mp hvalue
  exact ⟨members, hmembers, hvalue⟩

/-- A message and the mapping `toField` of its entries are written to a writer as the same
text. -/
theorem resolve_eq_writeBytes {value : Json.Value} (h : m.toField.toJson = .ok value)
    (w : JsonWriter) :
  (Resolver.resolve ⟨.structured⟩ m.toMessage w).value = w.writeBytes value.write
    ∧ (Resolver.resolve ⟨.structured⟩ (.ofField m.toField) w).value = w.writeBytes value.write
  := by
  have htext : m.toField.toJsonText = .ok value.write := by
    rw [FieldValue.toJsonText, h]
    rfl
  have hmap : Resolver.writeVariant m.toMessage w
      = stepWith w m.jsonText w.writeBytes := rfl
  have hobject : Resolver.writeVariant (.ofField m.toField) w
      = stepWith w m.toField.toJsonText w.writeBytes := JsonWriter.writeField_eq w m.toField
  rw [Resolver.value_resolve_structured, Resolver.value_resolve_structured, hmap, hobject,
    jsonText_eq_toJsonText, htext, stepWith_ok]
  exact ⟨rfl, rfl⟩

/-- A map message and the mapping made of insertions with the same last values are written as the
same text, which a writer that accepts everything appends to what it holds.  It `IsTextOf` one
object, with the JSON value of the last insertion of each key, of which the keys are strictly
increasing at every level. -/
theorem written_as_mapping (hmade : m.IsMadeBy insertions)
    (hsame : ∀ key, lastValue? insertions key = lastValue? insertions' key)
    (hvalues : ∀ key v, lastValue? insertions key = some v → v.IsLegible ∧ v.WellFormed) :
  ∃ text members, Json.IsTextOf text (.object members)
    ∧ (Json.Value.object members).WellFormed
    ∧ (∀ key value, (key, value) ∈ members
      ↔ ∃ v, lastValue? insertions key = some v ∧ v.toJson = .ok value)
    ∧ ∀ w : JsonWriter,
      (Resolver.resolve ⟨.structured⟩ m.toMessage w).value = w.writeBytes text
      ∧ (Resolver.resolve ⟨.structured⟩ (.ofField (.ofEntries insertions')) w).value
        = w.writeBytes text
      ∧ ∀ s, w.Holds s → ∃ w', w.writeBytes text = (.ok (), w') ∧ w'.Holds (s ++ text)
  := by
  have hentries : ∀ entry ∈ m.entries.entries, entry.2.IsLegible ∧ entry.2.WellFormed :=
    fun entry hmem => hvalues entry.1 entry.2 ((hmade.mem_entries_iff _ _).mp hmem)
  obtain ⟨members, hmembers, hvalue⟩ :=
    exists_toJson_toField fun entry hmem => (hentries entry hmem).1
  have hfield : m.toField.WellFormed :=
    .map m.entries.increasing fun entry hmem => (hentries entry hmem).2
  refine ⟨(Json.Value.object members).write, members, Json.isTextOf_write _, hfield.toJson hvalue,
    ?_, ?_⟩
  · intro key value
    simp only [FieldValue.mem_members_iff hmembers, hmade.mem_entries_iff]
  · intro w
    obtain ⟨hmap, hobject⟩ := resolve_eq_writeBytes hvalue w
    rw [hmade.ofEntries_eq hsame]
    exact ⟨hmap, hobject, fun s hholds => hholds.writeBytes _⟩

/-- A mapping with an `other` value in a sequence. -/
def innerMapping : FieldValue :=
  .map [("x", .seq [.other ⟨"shown", .complete⟩]), ("y", .bool true)]

theorem isLegible_innerMapping :
  innerMapping.IsLegible
  := by
  rw [innerMapping, FieldValue.isLegible_map_iff]
  simp only [List.forall_mem_cons, FieldValue.isLegible_seq_iff, FieldValue.isLegible_other_iff]
  refine ⟨⟨rfl, List.forall_mem_nil _⟩, ?_, List.forall_mem_nil _⟩
  rintro _ ⟨⟩

theorem wellFormed_innerMapping :
  innerMapping.WellFormed
  := by
  apply FieldValue.WellFormed.map
  · exact List.pairwise_pair.mpr (by decide)
  · simp only [List.forall_mem_cons]
    refine ⟨.seq ?_, .bool true, List.forall_mem_nil _⟩
    rw [List.forall_mem_singleton]
    exact .other _

/-- The insertions of a message, in which a key is repeated. -/
def repeatedInsertions : List (String × FieldValue) :=
  [("b", .null), ("a", .text "\"")] ++ [("b", innerMapping)]

/-- Insertions with the last values of `repeatedInsertions`. -/
def sortedInsertions : List (String × FieldValue) :=
  [("a", .text "\""), ("b", innerMapping)]

/-- A message in which a key is given another value is written as the mapping. -/
theorem written_as_mapping_repeatedInsertions :
  ∃ m : MapMessage, m.IsMadeBy repeatedInsertions
    ∧ (∀ key, lastValue? repeatedInsertions key = lastValue? sortedInsertions key)
    ∧ (∀ key v, lastValue? repeatedInsertions key = some v → v.IsLegible ∧ v.WellFormed)
    ∧ ∃ text members, Json.IsTextOf text (.object members)
      ∧ (Json.Value.object members).WellFormed
      ∧ (∀ key value, (key, value) ∈ members
        ↔ ∃ v, lastValue? repeatedInsertions key = some v ∧ v.toJson = .ok value)
      ∧ ∀ w : JsonWriter,
        (Resolver.resolve ⟨.structured⟩ m.toMessage w).value = w.writeBytes text
        ∧ (Resolver.resolve ⟨.structured⟩ (.ofField (.ofEntries sortedInsertions)) w).value
          = w.writeBytes text
        ∧ ∀ s, w.Holds s → ∃ w', w.writeBytes text = (.ok (), w') ∧ w'.Holds (s ++ text)
  := by
  have hmade := (IsMadeBy.ofList [("b", .null), ("a", .text "\"")]).insert "b" innerMapping
  have hsame : ∀ key, lastValue? repeatedInsertions key = lastValue? sortedInsertions key := by
    intro key
    rw [repeatedInsertions, lastValue?_concat, sortedInsertions, lastValue?_cons, lastValue?_cons,
      lastValue?_cons, lastValue?_cons]
    by_cases hkey : "b" = key
    · simp [hkey, lastValue?]
    · simp [hkey, lastValue?]
  have hvalues : ∀ key v, lastValue? repeatedInsertions key = some v →
      v.IsLegible ∧ v.WellFormed := by
    intro key v hlast
    rw [hsame] at hlast
    have hmem := mem_of_lastValue? hlast
    simp only [sortedInsertions, List.mem_cons, Prod.mk.injEq, List.not_mem_nil, or_false] at hmem
    obtain ⟨-, rfl⟩ | ⟨-, rfl⟩ := hmem
    · refine ⟨?_, .text _⟩
      rintro _ ⟨⟩
    · exact ⟨isLegible_innerMapping, wellFormed_innerMapping⟩
  exact ⟨_, hmade, hsame, hvalues, written_as_mapping hmade hsame hvalues⟩

end MapMessage

end LogRendering
