import LogRendering.Resolver
import LogRendering.Proofs.Json.Grammar
import LogRendering.Proofs.Sink.Writer
import Mathlib.Tactic.ByContra

/-!
# Renderings that are asked for

A message that renders itself in several formats declares their names, and it promises
its rendering in each of these and its plain text under every other name.  In structured
form a resolver asks such a message for the format `JSON` if that is declared up to the
case of letters.  So the format that it asks for is a declared one, and what it writes is
JSON, if and only if `JSON` itself is declared or no name that is equal to it up to case;
otherwise the plain text is written as if it were JSON.
-/

namespace LogRendering

/-! ### What a message is asked for -/

namespace Multiformat

/-- The formats with `answer` as the rendering in the format `name`. -/
def answering
    (formats : Multiformat) (name : String) (answer : Except Abort String) : Multiformat :=
  { formats with
    formatAs := fun name' => if name' = name then answer else formats.formatAs name' }

theorem supports_answering
    (formats : Multiformat) (name name' : String) (answer : Except Abort String) :
  (formats.answering name answer).supports name' = formats.supports name'
  := rfl

theorem formatAs_answering_self
    (formats : Multiformat) (name : String) (answer : Except Abort String) :
  (formats.answering name answer).formatAs name = answer
  := if_pos rfl

theorem formatAs_answering_of_ne
    (formats : Multiformat) {name name' : String} (answer : Except Abort String)
    (h : name' ≠ name) :
  (formats.answering name answer).formatAs name' = formats.formatAs name'
  := if_neg h

end Multiformat

namespace Message

/-- The message with `answer` as its rendering in the format `name`. -/
def answering (m : Message) (name : String) (answer : Except Abort String) : Message :=
  { m with multiformat := m.multiformat.map (·.answering name answer) }

/-- The variant of a message stays under `answering`, except for the rendering. -/
theorem variant_answering (m : Message) (name : String) (answer : Except Abort String) :
  (m.answering name answer).variant
    = match m.variant with
      | .multiformat formats => .multiformat (formats.answering name answer)
      | variant => variant
  := by
  obtain ⟨text, addTo, simple, multiformat, object⟩ := m
  cases simple with
  | some text => rfl
  | none =>
      cases multiformat with
      | some formats => rfl
      | none =>
          cases object with
          | some value => rfl
          | none => rfl

end Message

namespace Resolver

variable {σ : Type} [JsonSink σ]

/-- The resolver asks the message for its rendering in the format `name`: there is an `answer`
with which the outcome is another one. -/
def AsksFor (r : Resolver) (m : Message) (sink : σ) (name : String) : Prop :=
  ∃ answer, (r.resolve (m.answering name answer) sink).value ≠ (r.resolve m sink).value

theorem value_resolve_stringified (m : Message) (sink : σ) :
  (resolve ⟨.stringified⟩ m sink).value = writeText m sink
  := rfl

theorem value_resolve_structured (m : Message) (sink : σ) :
  (resolve ⟨.structured⟩ m sink).value = writeVariant m sink
  := rfl

/-- What `writeText` writes of a message does not depend on its formats. -/
theorem writeText_answering
    (m : Message) (name : String) (answer : Except Abort String) (sink : σ) :
  writeText (m.answering name answer) sink = writeText m sink
  := rfl

/-- What `writeVariant` writes of a message in several `formats`. -/
theorem writeVariant_of_multiformat
    {m : Message} {formats : Multiformat} (h : m.variant = .multiformat formats) (sink : σ) :
  writeVariant m sink
    = if formats.supports jsonFormat then
        stepWith sink (formats.formatAs jsonFormat) (JsonSink.writeRaw sink)
      else writeText m sink
  := by
  rw [writeVariant, h]

theorem variant_answering_of_multiformat
    {m : Message} {formats : Multiformat} (h : m.variant = .multiformat formats)
    (name : String) (answer : Except Abort String) :
  (m.answering name answer).variant = .multiformat (formats.answering name answer)
  := by
  rw [Message.variant_answering, h]

/-- The message is in several formats, and one of them is `JSON` up to case. -/
def IsAskable (m : Message) : Prop :=
  ∃ formats, m.variant = .multiformat formats ∧ formats.supports jsonFormat

/-- Another rendering in a format other than `JSON` does not change what is written of a
message. -/
theorem writeVariant_answering_of_ne
    (m : Message) {name : String} (h : name ≠ jsonFormat) (answer : Except Abort String)
    (sink : σ) :
  writeVariant (m.answering name answer) sink = writeVariant m sink
  := by
  rw [writeVariant, writeVariant, Message.variant_answering]
  cases m.variant with
  | multiformat formats =>
      show (if (formats.answering name answer).supports jsonFormat then _ else _) = _
      rw [Multiformat.formatAs_answering_of_ne formats answer h.symm]
      rfl
  | simple text => rfl
  | object value => rfl
  | generic => rfl

/-- Another rendering does not change what is written of a message that does not declare
`JSON` up to case. -/
theorem writeVariant_answering_of_not_isAskable
    {m : Message} (h : ¬ IsAskable m) (name : String) (answer : Except Abort String)
    (sink : σ) :
  writeVariant (m.answering name answer) sink = writeVariant m sink
  := by
  cases hvariant : m.variant with
  | multiformat formats =>
      have hsupports : ¬ formats.supports jsonFormat := fun hs => h ⟨formats, hvariant, hs⟩
      rw [writeVariant_of_multiformat hvariant, writeVariant_of_multiformat
        (variant_answering_of_multiformat hvariant name answer),
        Multiformat.supports_answering, if_neg hsupports, if_neg hsupports,
        writeText_answering]
  | simple text => rw [writeVariant, writeVariant, Message.variant_answering, hvariant]
  | object value => rw [writeVariant, writeVariant, Message.variant_answering, hvariant]
  | generic =>
      rw [writeVariant, writeVariant, Message.variant_answering, hvariant]
      rfl

/-- A message that declares `JSON` up to case and abandons this rendering abandons the step. -/
theorem writeVariant_answering_abort
    {m : Message} (h : IsAskable m) (abort : Abort) (sink : σ) :
  writeVariant (m.answering jsonFormat (.error abort)) sink = (.error (.aborted abort), sink)
  := by
  obtain ⟨formats, hvariant, hsupports⟩ := h
  rw [writeVariant_of_multiformat (variant_answering_of_multiformat hvariant _ _),
    Multiformat.supports_answering, if_pos hsupports, Multiformat.formatAs_answering_self]
  rfl

/-- A resolver asks for the format `JSON` only, and that in structured form if a message in
several formats declares it up to case. -/
theorem asksFor_iff (r : Resolver) (m : Message) (sink : σ) (name : String) :
  r.AsksFor m sink name ↔ r.strategy = .structured ∧ name = jsonFormat ∧ IsAskable m
  := by
  obtain ⟨strategy⟩ := r
  constructor
  · rintro ⟨answer, hne⟩
    cases strategy with
    | stringified => exact absurd (writeText_answering m name answer sink) hne
    | structured =>
        refine ⟨rfl, ?_, ?_⟩
        · by_contra hname
          apply hne
          apply writeVariant_answering_of_ne m hname
        · by_contra haskable
          apply hne
          apply writeVariant_answering_of_not_isAskable haskable
  · rintro ⟨rfl, rfl, haskable⟩
    by_contra hnone
    -- the outcome is that of a rendering abandoned in any way, but these differ
    have hsame : ∀ abort, writeVariant m sink = (.error (.aborted abort), sink) := by
      intro abort
      by_contra hne
      apply hnone
      use .error abort
      rw [value_resolve_structured, value_resolve_structured,
        writeVariant_answering_abort haskable]
      apply Ne.symm hne
    have habort := (hsame ⟨none⟩).symm.trans (hsame ⟨some ""⟩)
    simp at habort

end Resolver

/-! ### What a message promises -/

/-- The message keeps what it promises of its `formats`: it renders itself as JSON under every
declared name that is `JSON` up to case, and as its plain text under every name that it does not
declare. -/
structure Message.IsFaithful (m : Message) (formats : Multiformat) : Prop where
  declares : m.multiformat = some formats
  json : ∀ name ∈ formats.formats, Text.equalIgnoringCase name Resolver.jsonFormat →
    ∃ text, formats.formatAs name = .ok text ∧ Json.IsText text
  other : ∀ name, name ∉ formats.formats → formats.formatAs name = m.text

/-- If the formats by which the message is written declare `JSON` up to case, they declare it by
this very name. -/
def Message.SpellsJson (m : Message) : Prop :=
  ∀ formats, m.variant = .multiformat formats → formats.supports Resolver.jsonFormat →
    Resolver.jsonFormat ∈ formats.formats

/-- The text that `Resolver.writeText` writes of a message. -/
def Message.ownText (m : Message) : Except Abort String :=
  match m.addTo with
  | some addTo => (addTo "").result
  | none => m.text

namespace Message

theorem variant_of_simple {m : Message} {text : String} (h : m.simple = some text) :
  m.variant = .simple text
  := by
  rw [variant, h]

/-- A message in several `formats` is written by these unless it is a simple one. -/
theorem variant_of_multiformat
    {m : Message} {formats : Multiformat} (hsimple : m.simple = none)
    (h : m.multiformat = some formats) :
  m.variant = .multiformat formats
  := by
  rw [variant, hsimple, h]

/-- The `formats` by which a message is written are those that it has. -/
theorem formats_eq_of_variant
    {m : Message} {formats formats' : Multiformat} (h : m.multiformat = some formats)
    (hvariant : m.variant = .multiformat formats') :
  formats' = formats
  := by
  cases hsimple : m.simple with
  | some text =>
      rw [variant_of_simple hsimple] at hvariant
      contradiction
  | none =>
      apply Variant.multiformat.inj
      rw [← hvariant, variant_of_multiformat hsimple h]

theorem spellsJson_of_simple {m : Message} {text : String} (h : m.simple = some text) :
  m.SpellsJson
  := by
  intro formats hvariant
  rw [variant_of_simple h] at hvariant
  contradiction

theorem spellsJson_iff_of_multiformat
    {m : Message} {formats : Multiformat} (h : m.variant = .multiformat formats) :
  m.SpellsJson
    ↔ (formats.supports Resolver.jsonFormat → Resolver.jsonFormat ∈ formats.formats)
  := by
  constructor
  · intro hspells
    apply hspells formats h
  · intro hmem formats' hvariant
    obtain rfl := Variant.multiformat.inj (h.symm.trans hvariant)
    apply hmem

end Message

/-! ### What is written -/

namespace JsonWriter.Holds

variable {w : JsonWriter} {s : String}

/-- The text of a message is appended between quotes by `Resolver.writeText`. -/
theorem writeMessageText
    (hw : w.Holds s) {m : Message} {text : String} (h : m.ownText = .ok text) :
  ∃ w', Resolver.writeText m w = (.ok (), w') ∧ w'.Holds (s ++ Json.quote text)
  := by
  unfold Message.ownText at h
  unfold Resolver.writeText
  cases haddTo : m.addTo with
  | none =>
      simp only [haddTo] at h ⊢
      rw [h]
      apply hw.writeText
  | some addTo =>
      simp only [haddTo] at h ⊢
      apply hw.writeFormattable h

/-- What is written of a message that `IsFaithful` to its formats: a quoted text, or its
rendering for the format `JSON`. -/
theorem writeVariant
    (hw : w.Holds s) {m : Message} {formats : Multiformat} {own plain : String}
    (hfaithful : m.IsFaithful formats) (hown : m.ownText = .ok own)
    (hplain : m.text = .ok plain) :
  ∃ written w', Resolver.writeVariant m w = (.ok (), w') ∧ w'.Holds (s ++ written)
    ∧ (m.SpellsJson → (∃ text, written = Json.quote text)
      ∨ Resolver.jsonFormat ∈ formats.formats
        ∧ formats.formatAs Resolver.jsonFormat = .ok written)
    ∧ (¬ m.SpellsJson → written = plain)
  := by
  cases hsimple : m.simple with
  | some text =>
      have hspells := Message.spellsJson_of_simple hsimple
      obtain ⟨w', hwrite, hholds⟩ := hw.writeText text
      refine ⟨Json.quote text, w', ?_, hholds, fun _ => Or.inl ⟨text, rfl⟩, absurd hspells⟩
      rw [Resolver.writeVariant, Message.variant_of_simple hsimple]
      apply hwrite
  | none =>
      have hvariant := Message.variant_of_multiformat hsimple hfaithful.declares
      rw [Resolver.writeVariant_of_multiformat hvariant,
        Message.spellsJson_iff_of_multiformat hvariant]
      by_cases hsupports : formats.supports Resolver.jsonFormat
      · rw [if_pos hsupports]
        by_cases hmem : Resolver.jsonFormat ∈ formats.formats
        · obtain ⟨text, hformat, -⟩ := hfaithful.json _ hmem rfl
          obtain ⟨w', hwrite, hholds⟩ := hw.writeRaw text
          rw [hformat]
          exact ⟨text, w', hwrite, hholds, fun _ => Or.inr ⟨hmem, rfl⟩,
            absurd fun _ => hmem⟩
        · -- `JSON` is declared in another spelling only, and so has no rendering of its own
          obtain ⟨w', hwrite, hholds⟩ := hw.writeRaw plain
          rw [hfaithful.other _ hmem, hplain]
          exact ⟨plain, w', hwrite, hholds, fun hspells => absurd (hspells hsupports) hmem,
            fun _ => rfl⟩
      · rw [if_neg hsupports]
        obtain ⟨w', hwrite, hholds⟩ := hw.writeMessageText hown
        exact ⟨Json.quote own, w', hwrite, hholds, fun _ => Or.inl ⟨own, rfl⟩,
          absurd fun h => absurd h hsupports⟩

end JsonWriter.Holds

namespace Resolver

/-- The format for which a message is asked is a declared one if and only if the message
`SpellsJson`. -/
theorem forall_asksFor_mem_iff
    {m : Message} {formats : Multiformat} (h : m.multiformat = some formats)
    {σ : Type} [JsonSink σ] (sink : σ) :
  (∀ name, AsksFor ⟨.structured⟩ m sink name → name ∈ formats.formats) ↔ m.SpellsJson
  := by
  constructor
  · intro hmem formats' hvariant hsupports
    obtain rfl := Message.formats_eq_of_variant h hvariant
    apply hmem
    apply (asksFor_iff _ m sink _).mpr
    exact ⟨rfl, rfl, formats', hvariant, hsupports⟩
  · intro hspells name hasks
    obtain ⟨-, rfl, formats', hvariant, hsupports⟩ := (asksFor_iff _ m sink name).mp hasks
    rw [← Message.formats_eq_of_variant h hvariant]
    apply hspells formats' hvariant hsupports

/-- A message that `IsFaithful` to its formats is asked for declared ones only, and what is
written of it is a quoted text or its rendering as JSON, if and only if it `SpellsJson`.
Otherwise its plain text is written as it is, and that is JSON only by chance. -/
theorem asksFor_declared_and_writes_json_iff
    {m : Message} {formats : Multiformat} {own plain : String} {w : JsonWriter} {s : String}
    (hfaithful : m.IsFaithful formats) (hown : m.ownText = .ok own)
    (hplain : m.text = .ok plain) (hw : w.Holds s) :
  (∀ (σ : Type) [JsonSink σ] (sink : σ),
      (∀ name, AsksFor ⟨.structured⟩ m sink name → name ∈ formats.formats) ↔ m.SpellsJson)
    ∧ ∃ written w', (resolve ⟨.structured⟩ m w).value = (.ok (), w')
      ∧ w'.Holds (s ++ written)
      ∧ (Json.IsText written ↔ m.SpellsJson ∨ Json.IsText plain)
      ∧ (m.SpellsJson → (∃ text, written = Json.quote text)
        ∨ jsonFormat ∈ formats.formats ∧ formats.formatAs jsonFormat = .ok written)
      ∧ (¬ m.SpellsJson → written = plain)
  := by
  constructor
  · intro σ _ sink
    apply forall_asksFor_mem_iff hfaithful.declares
  · obtain ⟨written, w', hwrite, hholds, hspelled, hmisspelled⟩ :=
      hw.writeVariant hfaithful hown hplain
    refine ⟨written, w', hwrite, hholds, ?_, hspelled, hmisspelled⟩
    by_cases hspells : m.SpellsJson
    · have htext : Json.IsText written := by
        obtain ⟨text, rfl⟩ | ⟨hmem, hformat⟩ := hspelled hspells
        · apply (Json.isValue_quote text).isText
        · obtain ⟨text, htext, hjson⟩ := hfaithful.json _ hmem rfl
          obtain rfl := Except.ok.inj (htext.symm.trans hformat)
          apply hjson
      exact iff_of_true htext (Or.inl hspells)
    · rw [hmisspelled hspells, or_iff_right hspells]

/-- A format of the given name, in which the rendering is an empty object. -/
def objectFormat (name : String) : Multiformat where
  text := .ok "plain"
  addTo := none
  formats := [name]
  formatAs := fun name' => .ok (if name' = name then "\x7b\x7d" else "plain")

/-- A message that declares a format of the given name only. -/
def objectMessage (name : String) : Message :=
  { Message.plain (.ok "plain") with multiformat := some (objectFormat name) }

theorem isFaithful_objectMessage (name : String) :
  (objectMessage name).IsFaithful (objectFormat name)
  := by
  constructor
  · rfl
  · intro name' hmem _
    obtain rfl := List.mem_singleton.mp hmem
    use "\x7b\x7d"
    constructor
    · exact congrArg Except.ok (if_pos rfl)
    · apply Json.IsValue.isText
      apply Json.IsValue.emptyObject Json.areBlank_nil
  · intro name' hmem
    have hne : name' ≠ name := fun h => hmem (List.mem_singleton.mpr h)
    exact congrArg Except.ok (if_neg hne)

/-- A message that declares `JSON` is asked for this format. -/
theorem asksFor_declared_objectMessage :
  (objectMessage "JSON").IsFaithful (objectFormat "JSON")
    ∧ (∀ (σ : Type) [JsonSink σ] (sink : σ),
      (∀ name, AsksFor ⟨.structured⟩ (objectMessage "JSON") sink name
        → name ∈ (objectFormat "JSON").formats) ↔ (objectMessage "JSON").SpellsJson)
    ∧ ∃ written w',
      (resolve ⟨.structured⟩ (objectMessage "JSON") JsonWriter.buffered).value = (.ok (), w')
      ∧ w'.Holds ("" ++ written)
      ∧ (Json.IsText written ↔ (objectMessage "JSON").SpellsJson ∨ Json.IsText "plain")
      ∧ ((objectMessage "JSON").SpellsJson → (∃ text, written = Json.quote text)
        ∨ jsonFormat ∈ (objectFormat "JSON").formats
          ∧ (objectFormat "JSON").formatAs jsonFormat = .ok written)
      ∧ (¬ (objectMessage "JSON").SpellsJson → written = "plain")
  := by
  have hfaithful := isFaithful_objectMessage "JSON"
  exact ⟨hfaithful,
    asksFor_declared_and_writes_json_iff hfaithful rfl rfl JsonWriter.holds_buffered⟩

/-- A message that declares JSON in small letters is asked for a format that it does not
declare, and its plain text is written as if it were JSON. -/
theorem asksFor_undeclared_objectMessage :
  (objectMessage "json").IsFaithful (objectFormat "json")
    ∧ AsksFor ⟨.structured⟩ (objectMessage "json") JsonWriter.buffered "JSON"
    ∧ "JSON" ∉ (objectFormat "json").formats
    ∧ ∃ w, (resolve ⟨.structured⟩ (objectMessage "json") JsonWriter.buffered).value = (.ok (), w)
      ∧ w.text = "plain" ∧ ¬ Json.IsText "plain"
  := by
  refine ⟨isFaithful_objectMessage "json", ?_, by decide, ?_⟩
  · apply (asksFor_iff _ _ _ _).mpr
    exact ⟨rfl, rfl, objectFormat "json", rfl, rfl⟩
  · obtain ⟨w, hwrite, hholds⟩ := JsonWriter.holds_buffered.writeRaw "plain"
    use w
    refine ⟨hwrite, hholds.text_eq, ?_⟩
    intro htext
    have hstart : 'p' ∈ [' ', '\t', '\n', '\r'] ∨ 'p' ∈ Json.valueStarts ∨ 'p'.isDigit :=
      Json.IsItem.mem_starts htext
    revert hstart
    decide

end Resolver

end LogRendering
