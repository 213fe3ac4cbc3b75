import LogRendering.Proofs.Json.Pieces
import LogRendering.Proofs.Sink.Output
import Mathlib.Tactic.Use

/-!
# What writers write

The pieces of a JSON text are written to any output as the text itself, so that each method of
`JsonWriter` is `JsonWriter.writeBytes` on one text.  An output that accepts everything has
accepted the bytes given to it, one after the other, and a writer to such an output holds the
texts written to it.
-/

namespace LogRendering

/-- A `step` that depends on a text is taken if there is one. -/
theorem stepWith_ok {σ α : Type} (sink : σ) (a : α) (step : α → Step σ) :
  stepWith sink (.ok a) step = step a
  := rfl

theorem stepWith_map
    {σ α β : Type} (sink : σ) (value : Except Abort α) (f : α → β) (step : β → Step σ) :
  stepWith sink (value.map f) step = stepWith sink value fun a => step (f a)
  := by
  cases value with
  | ok a => rfl
  | error abort => rfl

namespace Output

/-- The output that has accepted the given `bytes`, and accepts everything. -/
def holding (bytes : List UInt8) : Output :=
  { unlimited with accepted := bytes }

/-- Writing to an output that is `holding` something, and so accepts everything, succeeds. -/
theorem writeAll_holding (before bytes : List UInt8) :
  (holding before).writeAll bytes = (.ok (), holding (before ++ bytes))
  := by
  rw [writeAll_eq]
  simp [outcome, filled, holding, unlimited]

end Output

/-- The steps of two writers end in the same way, and leave the same `output` behind. -/
def Step.Agrees (step step' : Step JsonWriter) : Prop :=
  step.1 = step'.1 ∧ step.2.output = step'.2.output

theorem Step.Agrees.symm {step step' : Step JsonWriter} (h : step.Agrees step') :
  step'.Agrees step
  := ⟨h.1.symm, h.2.symm⟩

theorem Step.Agrees.trans
    {step step' step'' : Step JsonWriter} (h : step.Agrees step') (h' : step'.Agrees step'') :
  step.Agrees step''
  := ⟨h.1.trans h'.1, h.2.trans h'.2⟩

namespace JsonWriter

/-! ### The methods of a writer -/

/-- A writer writes JSON by its `pieces` as it writes the text: a failure of the output that the
serializer reports is reported as one of the output. -/
theorem writeJson_eq (w : JsonWriter) (pieces : List String) :
  w.writeJson pieces = w.writeBytes (String.join pieces)
  := by
  rw [writeJson, writeBytes, Output.writePieces_eq]
  cases w.output.writeAll (Charset.utf8.encode (String.join pieces)) with
  | mk outcome output =>
      cases outcome with
      | ok _ => rfl
      | error failure => rfl

theorem writeText_eq (w : JsonWriter) (s : String) :
  JsonSink.writeText w s = w.writeBytes (Json.quote s)
  := by
  rw [← Json.join_quotePieces, ← writeJson_eq]
  rfl

theorem writeField_eq (w : JsonWriter) (v : FieldValue) :
  JsonSink.writeField w v = stepWith w v.toJsonText w.writeBytes
  := by
  have hpieces : (fun value : Json.Value => w.writeJson value.pieces)
      = fun value => w.writeBytes value.write := by
    funext value
    rw [writeJson_eq, Json.Value.join_pieces]
  rw [FieldValue.toJsonText, stepWith_map, ← hpieces]
  rfl

theorem writeFormattable_eq (w : JsonWriter) (addTo : String → Draft) :
  JsonSink.writeFormattable w addTo
    = stepWith { w with scratch := (addTo "").text } (addTo "").result
        fun text => writeBytes { w with scratch := (addTo "").text } (Json.quote text)
  := by
  simp only [← writeText_eq]
  rfl

/-- What `writeBytes` does depends on the output of a writer only, not on its `scratch`. -/
theorem agrees_writeBytes {w w' : JsonWriter} (h : w.output = w'.output) (s : String) :
  (w.writeBytes s).Agrees (w'.writeBytes s)
  := by
  unfold writeBytes
  rw [h]
  split
  · exact ⟨rfl, rfl⟩
  · exact ⟨rfl, rfl⟩

theorem agrees_writeText {w w' : JsonWriter} (h : w.output = w'.output) (s : String) :
  Step.Agrees (JsonSink.writeText w s) (JsonSink.writeText w' s)
  := by
  rw [writeText_eq, writeText_eq]
  apply agrees_writeBytes h

/-- A step that depends on a `value` agrees with another if they do where there is a value. -/
theorem agrees_stepWith
    {α : Type} {w w' : JsonWriter} (h : w.output = w'.output) (value : Except Abort α)
    {step step' : α → Step JsonWriter} (hstep : ∀ a, (step a).Agrees (step' a)) :
  (stepWith w value step).Agrees (stepWith w' value step')
  := by
  cases value with
  | ok a => exact hstep a
  | error abort => exact ⟨rfl, h⟩

/-- The writer accepts everything, and the text written so far is `s`. -/
def Holds (w : JsonWriter) (s : String) : Prop :=
  w.output = .holding (Charset.utf8.encode s)

theorem holds_buffered :
  buffered.Holds ""
  := rfl

/-- A writer does by `writeFormattable` what it does by `writeText` with the text itself. -/
theorem agrees_writeFormattable
    {w w' : JsonWriter} (h : w.output = w'.output) (addTo : String → Draft) :
  (JsonSink.writeFormattable w addTo).Agrees
    (stepWith w' (addTo "").result (JsonSink.writeText w'))
  := by
  have hscratch : JsonWriter.output { w with scratch := (addTo "").text } = w'.output := h
  rw [writeFormattable_eq]
  apply agrees_stepWith hscratch
  intro text
  rw [writeText_eq]
  apply agrees_writeBytes hscratch

namespace Holds

variable {w : JsonWriter} {s : String}

/-- The text that `w` holds is the one that it shows. -/
theorem text_eq (h : w.Holds s) :
  w.text = s
  := by
  rw [text, h, Output.holding, Charset.fromUTF8?_encode]
  rfl

/-- The text `t` is appended to what `w` holds. -/
theorem writeBytes (h : w.Holds s) (t : String) :
  ∃ w', w.writeBytes t = (.ok (), w') ∧ w'.Holds (s ++ t)
  := by
  rw [JsonWriter.writeBytes, h, Output.writeAll_holding, ← Charset.encode_append]
  use { w with output := .holding (Charset.utf8.encode (s ++ t)) }
  constructor
  · rfl
  · rfl

theorem writeText (h : w.Holds s) (t : String) :
  ∃ w', JsonSink.writeText w t = (.ok (), w') ∧ w'.Holds (s ++ Json.quote t)
  := by
  rw [writeText_eq]
  apply h.writeBytes

theorem writeRaw (h : w.Holds s) (t : String) :
  ∃ w', JsonSink.writeRaw w t = (.ok (), w') ∧ w'.Holds (s ++ t)
  := h.writeBytes t

/-- The text that is formatted is appended between quotes to what `w` holds. -/
theorem writeFormattable
    (h : w.Holds s) {addTo : String → Draft} {t : String} (ht : (addTo "").result = .ok t) :
  ∃ w', JsonSink.writeFormattable w addTo = (.ok (), w') ∧ w'.Holds (s ++ Json.quote t)
  := by
  have hscratch : Holds { w with scratch := (addTo "").text } s := h
  rw [writeFormattable_eq, ht, stepWith_ok]
  apply hscratch.writeBytes

end Holds

end JsonWriter

end LogRendering
