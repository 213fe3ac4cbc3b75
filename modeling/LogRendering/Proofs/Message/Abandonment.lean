import LogRendering.Proofs.Html.View
import LogRendering.Proofs.Message.Provided
import LogRendering.Proofs.Resolver.Formats

/-!
# Abandoned messages

A value whose text fails, but is not abandoned, can still abandon the message of which it is a
part.  The text of a message that is one structured value must not fail, and neither must the
values of a map or of such a message when they are written as JSON; every other text keeps
what there is of the part that fails.  So the rows of an event are abandoned, and so is the
writing of its message, under conditions that are known exactly.
-/

namespace LogRendering

/-! ### Abandoned steps -/

/-- The `step` was `aborted`: it neither succeeded nor reported a failure of its sink. -/
def Step.IsAbandoned {σ : Type} (step : Step σ) : Prop :=
  ∃ abort, step.1 = .error (.aborted abort)

namespace JsonWriter

/-- Writing to an output by `writeBytes` is not abandoned. -/
theorem not_isAbandoned_writeBytes (w : JsonWriter) (s : String) :
  ¬ Step.IsAbandoned (w.writeBytes s)
  := by
  rintro ⟨abort, h⟩
  unfold writeBytes at h
  split at h
  · contradiction
  · simp at h

theorem not_isAbandoned_writeText (w : JsonWriter) (s : String) :
  ¬ Step.IsAbandoned (JsonSink.writeText w s)
  := by
  rw [writeText_eq]
  apply not_isAbandoned_writeBytes

/-- A step that depends on a `value`, and is not abandoned itself, is abandoned exactly if there
is no value. -/
theorem isAbandoned_stepWith_iff
    {α : Type} (w : JsonWriter) (value : Except Abort α) {step : α → Step JsonWriter}
    (hstep : ∀ a, ¬ Step.IsAbandoned (step a)) :
  Step.IsAbandoned (stepWith w value step) ↔ ¬ ∃ a, value = .ok a
  := by
  cases value with
  | ok a =>
      refine iff_of_false (hstep a) ?_
      simp
  | error abort =>
      refine iff_of_true ⟨abort, rfl⟩ ?_
      simp

end JsonWriter

namespace ProvidedMessage

variable {m : ProvidedMessage}

theorem isLegible_object_iff (v : FieldValue) :
  (object v).IsLegible ↔ v.IsLegible
  := by
  simp [IsLegible, values]

theorem isLegible_map_iff (m : MapMessage) :
  (map m).IsLegible ↔ ∀ entry ∈ m.entries.entries, entry.2.IsLegible
  := by
  simp only [IsLegible, values, List.forall_mem_map]

/-- A message that `IsTame` has a text unless it `IsObject` and not `IsLegible`. -/
theorem IsTame.exists_text_iff (h : m.IsTame) :
  (∃ text, m.toMessage.text = .ok text) ↔ (m.IsObject → m.IsLegible)
  := by
  by_cases hobject : m.IsObject
  · obtain ⟨v, rfl⟩ := hobject
    rw [isLegible_object_iff]
    simp only [show (object v).IsObject from ⟨v, rfl⟩, forall_const]
    apply v.exists_toText_iff
  · obtain ⟨addTo, haddTo, htext⟩ := exists_addTo hobject
    refine iff_of_true ?_ (absurd · hobject)
    rw [htext, Draft.result_of_abort (h.abort_addTo haddTo "")]
    exact ⟨_, rfl⟩

/-- A map message has a `jsonText` if and only if it `IsLegible`. -/
theorem exists_jsonText_iff (m : MapMessage) :
  (∃ text, m.jsonText = .ok text) ↔ (map m).IsLegible
  := by
  rw [isLegible_map_iff, ← FieldValue.exists_members_iff _ fun entry _ =>
    entry.2.exists_toJson_iff]
  simp only [MapMessage.jsonText, FieldValue.bind_eq_ok_iff, FieldValue.pure_eq_ok_iff,
    FieldValue.toJsonEntries_eq_ok_iff]
  constructor
  · rintro ⟨text, members, hmembers, -⟩
    exact ⟨members, hmembers⟩
  · rintro ⟨members, hmembers⟩
    exact ⟨_, members, hmembers, rfl⟩

/-! ### Where a message is abandoned -/

/-- The writing of a tame message by `writeText` is abandoned if and only if it `IsObject` and
not `IsLegible`. -/
theorem IsTame.isAbandoned_writeText_iff (h : m.IsTame) (w : JsonWriter) :
  Step.IsAbandoned (Resolver.writeText m.toMessage w) ↔ m.IsObject ∧ ¬ m.IsLegible
  := by
  rw [← Classical.not_imp, ← h.exists_text_iff]
  by_cases hobject : m.IsObject
  · obtain ⟨v, rfl⟩ := hobject
    apply JsonWriter.isAbandoned_stepWith_iff
    apply JsonWriter.not_isAbandoned_writeText
  · obtain ⟨addTo, haddTo, htext⟩ := exists_addTo hobject
    rw [Resolver.writeText, haddTo, htext]
    apply JsonWriter.isAbandoned_stepWith_iff
    intro text
    apply JsonWriter.not_isAbandoned_writeText { w with scratch := (addTo "").text }

/-- The writing of a tame message by `writeVariant` is abandoned if and only if it `IsMap` or
`IsObject` and not `IsLegible`. -/
theorem IsTame.isAbandoned_writeVariant_iff (h : m.IsTame) (w : JsonWriter) :
  Step.IsAbandoned (Resolver.writeVariant m.toMessage w)
    ↔ (m.IsObject ∨ m.IsMap) ∧ ¬ m.IsLegible
  := by
  cases m with
  | text s =>
      refine iff_of_false (w.not_isAbandoned_writeText s) ?_
      simp [IsObject, IsMap]
  | parameterized m =>
      refine iff_of_false ?_ ?_
      · show ¬ Step.IsAbandoned (Resolver.writeText (parameterized m).toMessage w)
        rw [h.isAbandoned_writeText_iff]
        simp [IsObject]
      · simp [IsObject, IsMap]
  | map m =>
      simp only [show (map m).IsMap from ⟨m, rfl⟩, or_true, true_and]
      rw [← exists_jsonText_iff]
      apply JsonWriter.isAbandoned_stepWith_iff
      apply JsonWriter.not_isAbandoned_writeBytes
  | object v =>
      simp only [show (object v).IsObject from ⟨v, rfl⟩, true_or, true_and]
      have hvariant : Resolver.writeVariant (object v).toMessage w = JsonSink.writeField w v := rfl
      rw [isLegible_object_iff, ← v.exists_toJsonText_iff, hvariant, JsonWriter.writeField_eq]
      apply JsonWriter.isAbandoned_stepWith_iff
      apply JsonWriter.not_isAbandoned_writeBytes

/-- Rendering the rows of an event by `r.render` is abandoned if and only if its message has no
text. -/
theorem exists_render_error_iff (r : Html.RowRenderer) (event : Event) :
  (∃ abort, (r.render event).value = .error abort) ↔ ¬ ∃ text, event.message.text = .ok text
  := by
  rw [Html.RowRenderer.render]
  simp only [Reported.value_bind, Reported.value_pure, Html.RowRenderer.value_renderText]
  cases event.message.text with
  | ok text => simp [Except.map]
  | error abort => simp [Except.map]

/-- A message that `IsTame` has no part whose text is `aborted`, though some may have `failed`.
Then the rendering of the rows of an event with this message, and the writing of the message in
the form `stringified`, are abandoned if and only if the message `IsObject` and `Fails`; and its
writing in the form `structured` is abandoned if and only if it `IsMap` or `IsObject`, and
`Fails`. -/
theorem abandoned_iff_fails (h : m.IsTame) :
  (∀ (r : Html.RowRenderer) (event : Event), event.message = m.toMessage →
      ((∃ abort, (r.render event).value = .error abort) ↔ m.IsObject ∧ m.Fails))
    ∧ (∀ w : JsonWriter,
      Step.IsAbandoned (Resolver.resolve ⟨.stringified⟩ m.toMessage w).value
        ↔ m.IsObject ∧ m.Fails)
    ∧ (∀ w : JsonWriter,
      Step.IsAbandoned (Resolver.resolve ⟨.structured⟩ m.toMessage w).value
        ↔ (m.IsObject ∨ m.IsMap) ∧ m.Fails)
  := by
  have hfails : ¬ m.IsLegible ↔ m.Fails := by rw [h.isLegible_iff, Classical.not_not]
  rw [← hfails]
  refine ⟨?_, ?_, ?_⟩
  · intro r event hmessage
    rw [exists_render_error_iff, hmessage, h.exists_text_iff, Classical.not_imp]
  · intro w
    rw [Resolver.value_resolve_stringified, h.isAbandoned_writeText_iff]
  · intro w
    rw [Resolver.value_resolve_structured, h.isAbandoned_writeVariant_iff]

/-- The message that is a structured value of which the text has `failed` after a part. -/
def failingObject : ProvidedMessage :=
  object (.seq [.text "before", .other ⟨"part", .failed⟩])

theorem fails_failingObject :
  failingObject.Fails
  := by
  refine ⟨_, List.mem_singleton_self _, ⟨"part", .failed⟩, ?_, rfl⟩
  apply (FieldValue.hasPart_seq_iff _ _).mpr
  refine ⟨.other ⟨"part", .failed⟩, ?_, FieldValue.HasPart.other _⟩
  simp

theorem isTame_failingObject :
  failingObject.IsTame
  := by
  rintro ⟨v, hmem, rendering, hpart, abort, habort⟩
  obtain rfl := List.mem_singleton.mp hmem
  obtain ⟨item, hitem, hpart⟩ := (FieldValue.hasPart_seq_iff _ _).mp hpart
  simp only [List.mem_cons, List.not_mem_nil, or_false] at hitem
  obtain rfl | rfl := hitem
  · cases hpart
  · cases hpart
    simp at habort

/-- The rendering of an event with `failingObject` is abandoned, and so is the writing of it. -/
theorem abandoned_iff_fails_failingObject :
  failingObject.IsTame
    ∧ (∀ (r : Html.RowRenderer) (event : Event), event.message = failingObject.toMessage →
      ((∃ abort, (r.render event).value = .error abort)
        ↔ failingObject.IsObject ∧ failingObject.Fails))
    ∧ (∀ w : JsonWriter,
      Step.IsAbandoned (Resolver.resolve ⟨.stringified⟩ failingObject.toMessage w).value
        ↔ failingObject.IsObject ∧ failingObject.Fails)
    ∧ (∀ w : JsonWriter,
      Step.IsAbandoned (Resolver.resolve ⟨.structured⟩ failingObject.toMessage w).value
        ↔ (failingObject.IsObject ∨ failingObject.IsMap) ∧ failingObject.Fails)
  := ⟨isTame_failingObject, abandoned_iff_fails isTame_failingObject⟩

/-- A text that has `failed` abandons an event, although the text of no part of its message is
`aborted`. -/
theorem exists_failing_abandoned :
  ∃ m : ProvidedMessage, m.IsTame ∧ m.Fails
    ∧ (∃ (r : Html.RowRenderer) (event : Event) (abort : Abort),
      event.message = m.toMessage ∧ (r.render event).value = .error abort)
    ∧ Step.IsAbandoned (Resolver.resolve ⟨.stringified⟩ m.toMessage JsonWriter.buffered).value
    ∧ Step.IsAbandoned (Resolver.resolve ⟨.structured⟩ m.toMessage JsonWriter.buffered).value
  := by
  use failingObject
  refine ⟨isTame_failingObject, fails_failingObject, ?_, ⟨_, rfl⟩, ⟨_, rfl⟩⟩
  exact ⟨⟨false, ⟨0⟩, .utf8⟩, Event.create ⟨none, 1⟩ 0 "" .info failingObject.toMessage, _,
    rfl, rfl⟩

end ProvidedMessage

end LogRendering
