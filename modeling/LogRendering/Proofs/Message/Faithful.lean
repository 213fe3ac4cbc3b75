import LogRendering.Proofs.Field.Sorted
import LogRendering.Proofs.Json.Spelling
import LogRendering.Proofs.Message.Abandonment
import LogRendering.Proofs.Resolver.Formats

/-!
# Messages written faithfully

A provided message of which every part is rendered completely is written as one JSON value,
which is read back as what the message means: its text in stringified form, and in structured
form the text, the object of its entries, or the value that it is.
-/

namespace LogRendering

/-- The `step` has succeeded, and the text of the writer afterwards `IsTextOf` the JSON value
`value`. -/
def Step.Writes (step : Step JsonWriter) (value : Json.Value) : Prop :=
  ∃ w, step = (.ok (), w) ∧ Json.IsTextOf w.text value

/-- A step on an empty writer that appends `value.write` is one that `Writes` the value. -/
theorem Step.writes_of_holds {step : Step JsonWriter} {value : Json.Value}
    (h : ∃ w, step = (.ok (), w) ∧ w.Holds ("" ++ value.write)) :
  step.Writes value
  := by
  obtain ⟨w, hstep, hholds⟩ := h
  refine ⟨w, hstep, ?_⟩
  rw [hholds.text_eq, String.empty_append]
  exact Json.isTextOf_write value

namespace ProvidedMessage

/-- The value is what the message is in the form `structured`. -/
def MeansInJson : ProvidedMessage → Json.Value → Prop
  | text s, value => value = .text s
  | parameterized m, value => ∃ text, m.text = .ok text ∧ value = .text text
  | map m, value =>
    ∃ members, List.Forall₂ FieldValue.IsMemberOf m.entries.entries members
      ∧ value = .object members
  | object v, value => v.toJson = .ok value

variable {m : ProvidedMessage}

/-- A message that `IsLegible` also `IsTame`. -/
theorem IsLegible.isTame (h : m.IsLegible) :
  m.IsTame
  := by
  rintro ⟨v, hmem, rendering, hpart, abort, habort⟩
  have hcomplete : rendering.ending = .complete := h v hmem rendering hpart
  rw [hcomplete] at habort
  contradiction

/-- What a provided message writes of itself, `ownText`, is its text. -/
theorem ownText_eq (m : ProvidedMessage) :
  m.toMessage.ownText = m.toMessage.text
  := by
  by_cases hobject : m.IsObject
  · obtain ⟨v, rfl⟩ := hobject
    rfl
  · obtain ⟨addTo, haddTo, htext⟩ := exists_addTo hobject
    rw [Message.ownText, haddTo, htext]

/-- The text of a message is written between quotes by `writeText`. -/
theorem writes_text {text : String} (h : m.toMessage.text = .ok text) :
  Step.Writes (Resolver.writeText m.toMessage JsonWriter.buffered) (.text text)
  := by
  apply Step.writes_of_holds
  apply JsonWriter.holds_buffered.writeMessageText
  rw [ownText_eq, h]

/-- A map is written by `writeVariant` as the object of its entries. -/
theorem writes_map {m : MapMessage} {members : List (String × Json.Value)}
    (h : List.Forall₂ FieldValue.IsMemberOf m.entries.entries members) :
  Step.Writes (Resolver.writeVariant (map m).toMessage JsonWriter.buffered) (.object members)
  := by
  apply Step.writes_of_holds
  have hjson : m.jsonText = .ok (Json.Value.object members).write := by
    have hmembers := (FieldValue.toJsonEntries_eq_ok_iff m.entries.entries members).mpr h
    have hincrease := FieldValue.keysIncrease_members h m.entries.increasing
    rw [MapMessage.jsonText, hmembers, ← Json.Value.ofMembers_eq hincrease]
    rfl
  have hvariant : Resolver.writeVariant (map m).toMessage JsonWriter.buffered
      = stepWith JsonWriter.buffered m.jsonText (JsonSink.writeRaw JsonWriter.buffered) := rfl
  rw [hvariant, hjson, stepWith_ok]
  exact JsonWriter.holds_buffered.writeRaw _

/-- A structured value is written by `writeVariant` as its JSON value. -/
theorem writes_object {v : FieldValue} {value : Json.Value} (h : v.toJson = .ok value) :
  Step.Writes (Resolver.writeVariant (object v).toMessage JsonWriter.buffered) value
  := by
  apply Step.writes_of_holds
  have hvariant : Resolver.writeVariant (object v).toMessage JsonWriter.buffered
      = stepWith JsonWriter.buffered v.toJsonText JsonWriter.buffered.writeBytes :=
    JsonWriter.buffered.writeField_eq v
  rw [hvariant, FieldValue.toJsonText, h]
  exact JsonWriter.holds_buffered.writeBytes _

/-- A message that `IsLegible` has a meaning in JSON, and it is written as this. -/
theorem exists_writes_meaning (h : m.IsLegible) :
  ∃ value, m.MeansInJson value
    ∧ Step.Writes (Resolver.writeVariant m.toMessage JsonWriter.buffered) value
  := by
  cases m with
  | text s =>
      refine ⟨.text s, rfl, Step.writes_of_holds ?_⟩
      exact JsonWriter.holds_buffered.writeText s
  | parameterized m =>
      obtain ⟨text, htext⟩ := h.isTame.exists_text_iff.mpr fun _ => h
      exact ⟨.text text, ⟨text, htext, rfl⟩, writes_text htext⟩
  | map m =>
      obtain ⟨members, hmembers⟩ := (FieldValue.exists_members_iff _ fun entry _ =>
        entry.2.exists_toJson_iff).mpr ((isLegible_map_iff m).mp h)
      exact ⟨.object members, ⟨members, hmembers, rfl⟩, writes_map hmembers⟩
  | object v =>
      obtain ⟨value, hvalue⟩ := v.exists_toJson_iff.mpr ((isLegible_object_iff v).mp h)
      exact ⟨value, hvalue, writes_object hvalue⟩

/-- The meaning of a message whose values are `WellFormed` is so too. -/
theorem MeansInJson.wellFormed {value : Json.Value} (h : m.MeansInJson value)
    (hvalues : ∀ v ∈ m.values, v.WellFormed) :
  value.WellFormed
  := by
  cases m with
  | text s =>
      obtain rfl : value = _ := h
      exact .text s
  | parameterized m =>
      obtain ⟨text, -, rfl⟩ := h
      exact .text text
  | map m =>
      obtain ⟨members, hmembers, rfl⟩ := h
      apply Json.Value.WellFormed.object
      · exact FieldValue.keysIncrease_members hmembers m.entries.increasing
      · exact forall_mem_of_forall₂ hmembers fun entry hmem _ hmember =>
          (hvalues _ (List.mem_map_of_mem hmem)).toJson hmember.2
  | object v => exact (hvalues v (List.mem_singleton_self v)).toJson h

/-- A message that `IsLegible` is written as one JSON value: in the form `stringified` as its
text, and in the form `structured` as what it `MeansInJson`, which is `WellFormed` if the values
of the message are. -/
theorem written_faithfully_of_isLegible (h : m.IsLegible) :
  (∃ text, m.toMessage.text = .ok text
    ∧ Step.Writes (Resolver.resolve ⟨.stringified⟩ m.toMessage JsonWriter.buffered).value
      (.text text))
    ∧ ∃ value, m.MeansInJson value ∧ ((∀ v ∈ m.values, v.WellFormed) → value.WellFormed)
      ∧ Step.Writes (Resolver.resolve ⟨.structured⟩ m.toMessage JsonWriter.buffered).value value
  := by
  constructor
  · obtain ⟨text, htext⟩ := h.isTame.exists_text_iff.mpr fun _ => h
    refine ⟨text, htext, ?_⟩
    rw [Resolver.value_resolve_stringified]
    exact writes_text htext
  · obtain ⟨value, hmeans, hwrites⟩ := exists_writes_meaning h
    refine ⟨value, hmeans, hmeans.wellFormed, ?_⟩
    rw [Resolver.value_resolve_structured]
    exact hwrites

/-- The message that is a mapping to a text with a quote and an `other` value. -/
def nestedObject : ProvidedMessage :=
  object (.map [("key", .seq [.text "\"", .other ⟨"shown", .complete⟩])])

theorem isLegible_nestedObject :
  nestedObject.IsLegible
  := by
  rw [nestedObject, isLegible_object_iff, FieldValue.isLegible_map_iff]
  simp only [List.forall_mem_singleton, FieldValue.isLegible_seq_iff, List.forall_mem_cons,
    FieldValue.isLegible_other_iff]
  refine ⟨?_, rfl⟩
  rintro _ ⟨⟩

theorem wellFormed_nestedObject :
  ∀ v ∈ nestedObject.values, v.WellFormed
  := by
  intro v hmem
  obtain rfl := List.mem_singleton.mp hmem
  apply FieldValue.WellFormed.map (List.pairwise_singleton _ _)
  rw [List.forall_mem_singleton]
  apply FieldValue.WellFormed.seq
  rw [List.forall_mem_cons, List.forall_mem_singleton]
  exact ⟨.text _, .other _⟩

/-- The message `nestedObject` is written faithfully. -/
theorem written_faithfully_nestedObject :
  nestedObject.IsLegible
    ∧ (∃ text, nestedObject.toMessage.text = .ok text
      ∧ Step.Writes
        (Resolver.resolve ⟨.stringified⟩ nestedObject.toMessage JsonWriter.buffered).value
        (.text text))
    ∧ ∃ value, nestedObject.MeansInJson value ∧ value.WellFormed
      ∧ Step.Writes
        (Resolver.resolve ⟨.structured⟩ nestedObject.toMessage JsonWriter.buffered).value value
  := by
  obtain ⟨htext, value, hmeans, hwellFormed, hwrites⟩ :=
    written_faithfully_of_isLegible isLegible_nestedObject
  exact ⟨isLegible_nestedObject, htext, value, hmeans, hwellFormed wellFormed_nestedObject,
    hwrites⟩

end ProvidedMessage

end LogRendering
