import LogRendering.Proofs.Message.Provided
import LogRendering.Proofs.Resolver.Formats

/-!
# Texts added to buffers

A provided message that is not one structured value adds its text to a buffer behind what the
buffer holds already, and adds the same text to every buffer, even if a value in it fails.  So
it makes no difference to a writer whether such a message is formatted into the buffer of the
writer, is formatted into a new buffer first, or is given as the text that it has.
-/

namespace LogRendering

/-! ### Drafts with a text in front -/

namespace Draft

/-- The draft with the text `front` before what its buffer holds. -/
def prefixed (front : String) (d : Draft) : Draft :=
  { d with text := front ++ d.text }

theorem ofText_append (front text : String) :
  ofText (front ++ text) = (ofText text).prefixed front
  := rfl

theorem ofText_eq_prefixed (front : String) :
  ofText front = (ofText "").prefixed front
  := by
  rw [← ofText_append, String.append_empty]

/-- The text `front` before a draft has no part in what is added to the draft. -/
theorem prefixed_add (front : String) (d : Draft) (r : Rendering) :
  (d.prefixed front).add r = (d.add r).prefixed front
  := by
  obtain ⟨text, abort⟩ := d
  cases abort with
  | some abort => rfl
  | none =>
      unfold add prefixed
      simp only [String.append_assoc]

theorem result_prefixed (front : String) (d : Draft) :
  (d.prefixed front).result = d.result.map (front ++ ·)
  := by
  obtain ⟨text, abort⟩ := d
  cases abort with
  | some abort => rfl
  | none => rfl

end Draft

namespace ParameterizedMessage

theorem addTokens_prefixed
    (front : String) (draft : Draft) (arguments : List FieldValue)
    (tokens : List PatternToken) :
  addTokens (draft.prefixed front) arguments tokens
    = (addTokens draft arguments tokens).prefixed front
  := by
  induction tokens generalizing draft arguments with
  | nil => rw [addTokens, addTokens]
  | cons token tokens ih =>
      cases token with
      | char c => rw [addTokens, addTokens, Draft.prefixed_add, ih]
      | placeholder =>
          cases arguments with
          | nil => rw [addTokens, addTokens, Draft.prefixed_add, ih]
          | cons argument arguments => rw [addTokens, addTokens, Draft.prefixed_add, ih]

/-- A pattern adds the same text to every `buffer`. -/
theorem addTo_eq_prefixed (m : ParameterizedMessage) (buffer : String) :
  m.addTo buffer = (m.addTo "").prefixed buffer
  := by
  rw [addTo, Draft.ofText_eq_prefixed, addTokens_prefixed]
  rfl

end ParameterizedMessage

namespace MapMessage

theorem addEntries_prefixed
    (front : String) (draft : Draft) (entries : List (String × FieldValue)) :
  addEntries (draft.prefixed front) entries = (addEntries draft entries).prefixed front
  := by
  induction entries generalizing draft with
  | nil => rw [addEntries, addEntries]
  | cons entry entries ih =>
      rw [addEntries, addEntries, Draft.prefixed_add, Draft.prefixed_add, ih]

/-- A map adds the same text to every `buffer`. -/
theorem addTo_eq_prefixed (m : MapMessage) (buffer : String) :
  m.addTo buffer = (m.addTo "").prefixed buffer
  := by
  unfold addTo
  split
  · apply Draft.ofText_eq_prefixed
  · rw [Draft.ofText_eq_prefixed, Draft.prefixed_add, addEntries_prefixed]

end MapMessage

namespace ProvidedMessage

/-- A message adds the same text to every `buffer`. -/
theorem addTo_eq_prefixed
    {m : ProvidedMessage} {addTo : String → Draft} (h : m.toMessage.addTo = some addTo)
    (buffer : String) :
  addTo buffer = (addTo "").prefixed buffer
  := by
  cases m with
  | text s =>
      obtain rfl := Option.some.inj h
      show Draft.ofText (buffer ++ s) = (Draft.ofText ("" ++ s)).prefixed buffer
      rw [String.empty_append, Draft.ofText_append]
  | parameterized m =>
      obtain rfl := Option.some.inj h
      apply m.addTo_eq_prefixed
  | map m =>
      obtain rfl := Option.some.inj h
      apply m.addTo_eq_prefixed
  | object v => contradiction

end ProvidedMessage

/-! ### Ways of writing a text -/

namespace JsonWriter

/-- The sink of a writer whose `writeFormattable` is that of sinks by default: it formats into a
new buffer. -/
@[reducible]
def formattingFirst : JsonSink JsonWriter where
  writeText := JsonSink.writeText
  writeRaw := JsonSink.writeRaw
  writeField := JsonSink.writeField

theorem agrees_formattingFirst
    {w w' : JsonWriter} (h : w.output = w'.output) (addTo : String → Draft) :
  (formattingFirst.writeFormattable w addTo).Agrees
    (stepWith w' (addTo "").result (JsonSink.writeText w'))
  := by
  apply agrees_stepWith h
  intro text
  apply agrees_writeText h

end JsonWriter

namespace ProvidedMessage

variable {m : ProvidedMessage}

/-- A message that `IsTame` and can add its text to a buffer has a text, and leaves a buffer with
this text behind what it held. -/
theorem IsTame.exists_text_addTo
    (h : m.IsTame) {addTo : String → Draft} (haddTo : m.toMessage.addTo = some addTo)
    (htext : m.toMessage.text = (addTo "").result) :
  ∃ s, m.toMessage.text = .ok s ∧ ∀ buffer, addTo buffer = .ofText (buffer ++ s)
  := by
  have hempty := h.abort_addTo haddTo ""
  use (addTo "").text
  constructor
  · rw [htext, Draft.result_of_abort hempty]
  · intro buffer
    rw [addTo_eq_prefixed haddTo, Draft.prefixed, hempty]
    rfl

/-- A message that is not `IsObject` is written in the form `stringified` in the way in which its
text is written. -/
theorem agrees_resolve_stringified
    (h : ¬ m.IsObject) {w w' : JsonWriter} (houtput : w.output = w'.output) :
  (Resolver.resolve ⟨.stringified⟩ m.toMessage w).value.Agrees
    (stepWith w' m.toMessage.text (JsonSink.writeText w'))
  := by
  obtain ⟨addTo, haddTo, htext⟩ := exists_addTo h
  rw [Resolver.value_resolve_stringified, Resolver.writeText, haddTo, htext]
  apply JsonWriter.agrees_writeFormattable houtput

/-- A message that is not `IsObject` adds its text to a buffer behind what the buffer holds, and
if it `IsTame` the text is complete.  Writers with the same output write the same bytes, and end
in the same way, whether they format the message, format it into a new buffer first by
`formattingFirst`, or write its text.  Written in the form `stringified`, the message agrees with
every other one `m'` of the same text. -/
theorem formatted_agrees_with_text (h : ¬ m.IsObject) :
  ∃ addTo, m.toMessage.addTo = some addTo
    ∧ (∀ buffer, (addTo buffer).result = m.toMessage.text.map (buffer ++ ·))
    ∧ (m.IsTame →
      ∃ s, m.toMessage.text = .ok s ∧ ∀ buffer, addTo buffer = .ofText (buffer ++ s))
    ∧ (∀ w w' : JsonWriter, w.output = w'.output →
      (JsonSink.writeFormattable w addTo).Agrees
          (stepWith w' m.toMessage.text (JsonSink.writeText w'))
        ∧ (JsonWriter.formattingFirst.writeFormattable w addTo).Agrees
          (stepWith w' m.toMessage.text (JsonSink.writeText w')))
    ∧ ∀ (m' : ProvidedMessage) (w w' : JsonWriter), ¬ m'.IsObject →
      m.toMessage.text = m'.toMessage.text → w.output = w'.output →
      (Resolver.resolve ⟨.stringified⟩ m.toMessage w).value.Agrees
        (Resolver.resolve ⟨.stringified⟩ m'.toMessage w').value
  := by
  obtain ⟨addTo, haddTo, htext⟩ := exists_addTo h
  refine ⟨addTo, haddTo, ?_, ?_, ?_, ?_⟩
  · intro buffer
    rw [addTo_eq_prefixed haddTo, Draft.result_prefixed, htext]
  · intro htame
    apply htame.exists_text_addTo haddTo htext
  · intro w w' houtput
    rw [htext]
    constructor
    · apply JsonWriter.agrees_writeFormattable houtput
    · apply JsonWriter.agrees_formattingFirst houtput
  · intro m' w w' h' hsame houtput
    apply (agrees_resolve_stringified h houtput).trans
    rw [hsame]
    apply (agrees_resolve_stringified h' rfl).symm

/-- The message with two arguments, of which the first has `failed` after a part of its text. -/
def brokenArgument : ProvidedMessage :=
  parameterized ⟨"\x7b\x7d of \x7b\x7d", [.other ⟨"par", .failed⟩, .int 2]⟩

theorem isTame_brokenArgument :
  brokenArgument.IsTame
  := by
  rintro ⟨v, hmem, rendering, hpart, abort, habort⟩
  obtain rfl | hmem := List.mem_cons.mp hmem
  · cases hpart
    contradiction
  · obtain rfl := List.mem_singleton.mp hmem
    contradiction

/-- The first argument of `brokenArgument` does not tell the ways of writing it apart. -/
theorem formatted_agrees_with_text_brokenArgument :
  ¬ brokenArgument.IsObject ∧ brokenArgument.IsTame
    ∧ ∃ addTo, brokenArgument.toMessage.addTo = some addTo
      ∧ (∀ buffer, (addTo buffer).result = brokenArgument.toMessage.text.map (buffer ++ ·))
      ∧ (brokenArgument.IsTame → ∃ s, brokenArgument.toMessage.text = .ok s
        ∧ ∀ buffer, addTo buffer = .ofText (buffer ++ s))
      ∧ (∀ w w' : JsonWriter, w.output = w'.output →
        (JsonSink.writeFormattable w addTo).Agrees
            (stepWith w' brokenArgument.toMessage.text (JsonSink.writeText w'))
          ∧ (JsonWriter.formattingFirst.writeFormattable w addTo).Agrees
            (stepWith w' brokenArgument.toMessage.text (JsonSink.writeText w')))
      ∧ ∀ (m' : ProvidedMessage) (w w' : JsonWriter), ¬ m'.IsObject →
        brokenArgument.toMessage.text = m'.toMessage.text → w.output = w'.output →
        (Resolver.resolve ⟨.stringified⟩ brokenArgument.toMessage w).value.Agrees
          (Resolver.resolve ⟨.stringified⟩ m'.toMessage w').value
  := by
  have hobject : ¬ brokenArgument.IsObject := by
    rintro ⟨v, h⟩
    contradiction
  exact ⟨hobject, isTame_brokenArgument, formatted_agrees_with_text hobject⟩

end ProvidedMessage

end LogRendering
