import LogRendering.Proofs.Resolver.Formats

/-!
# Calls on sinks

A resolver makes one call on its sink, whatever the sink and the message are: it depends on
the capabilities of the message which call that is, and what the call gives is the outcome.
Only if a text that is to be written is abandoned there is no call.  Which call is made is
stated by the rules of `IsCall`, and that it is the only one by recording the calls.
-/

namespace LogRendering

/-- A call on a sink, one of the four methods of `JsonSink` with its argument. -/
inductive SinkCall where
  | text (s : String)
  | raw (s : String)
  | field (v : FieldValue)
  | formattable (addTo : String → Draft)

/-- A `SinkCall` that may be abandoned before it is made. -/
abbrev PlannedCall : Type :=
  Except Abort SinkCall

namespace SinkCall

variable {σ : Type} [JsonSink σ]

/-- The step of `sink` on which the call is made. -/
def on (call : SinkCall) (sink : σ) : Step σ :=
  match call with
  | text s => JsonSink.writeText sink s
  | raw s => JsonSink.writeRaw sink s
  | field v => JsonSink.writeField sink v
  | formattable addTo => JsonSink.writeFormattable sink addTo

end SinkCall

/-! ### Recorded calls -/

/-- A `sink` together with the `calls` that were made on it. -/
structure RecordedSink (σ : Type) where
  sink : σ
  calls : List SinkCall

namespace RecordedSink

variable {σ : Type} [JsonSink σ]

/-- The step of the sink, with `call` recorded. -/
def record (recorded : RecordedSink σ) (call : SinkCall) : Step (RecordedSink σ) :=
  ((call.on recorded.sink).1, ⟨(call.on recorded.sink).2, recorded.calls ++ [call]⟩)

instance : JsonSink (RecordedSink σ) where
  writeText recorded s := recorded.record (.text s)
  writeRaw recorded s := recorded.record (.raw s)
  writeField recorded v := recorded.record (.field v)
  writeFormattable recorded addTo := recorded.record (.formattable addTo)

/-- Every call on a `RecordedSink` is made on the sink and recorded. -/
theorem on_eq_record (call : SinkCall) (recorded : RecordedSink σ) :
  call.on recorded = recorded.record call
  := by
  cases call with
  | text s => rfl
  | raw s => rfl
  | field v => rfl
  | formattable addTo => rfl

end RecordedSink

namespace Resolver

/-! ### Which call is made -/

/-- One of the formats is called `JSON`, up to the case of the letters. -/
def DeclaresJson (formats : Multiformat) : Prop :=
  ∃ name ∈ formats.formats, name.toList.map Char.toUpper = ['J', 'S', 'O', 'N']

/-- The call by which the message `m` is written, by the rules for its capabilities. -/
inductive IsCall (m : Message) : Strategy → PlannedCall → Prop where
  | formattable {addTo : String → Draft} (haddTo : m.addTo = some addTo) :
    IsCall m .stringified (.ok (.formattable addTo))
  | text (haddTo : m.addTo = none) : IsCall m .stringified (m.text.map .text)
  | simple {s : String} (hsimple : m.simple = some s) : IsCall m .structured (.ok (.text s))
  | json {formats : Multiformat} (hsimple : m.simple = none)
    (hformats : m.multiformat = some formats) (hjson : DeclaresJson formats) :
    IsCall m .structured ((formats.formatAs "JSON").map .raw)
  | otherFormats {formats : Multiformat} {call : PlannedCall} (hsimple : m.simple = none)
    (hformats : m.multiformat = some formats) (hjson : ¬ DeclaresJson formats)
    (h : IsCall m .stringified call) : IsCall m .structured call
  | object {v : FieldValue} (hsimple : m.simple = none) (hformats : m.multiformat = none)
    (hobject : m.object = some v) : IsCall m .structured (.ok (.field v))
  | generic {call : PlannedCall} (hsimple : m.simple = none) (hformats : m.multiformat = none)
    (hobject : m.object = none) (h : IsCall m .stringified call) : IsCall m .structured call

theorem declaresJson_iff (formats : Multiformat) :
  DeclaresJson formats ↔ formats.supports jsonFormat
  := by
  simp only [DeclaresJson, Multiformat.supports, List.any_eq_true, Text.equalIgnoringCase,
    beq_iff_eq]
  exact Iff.rfl

/-- There is a call by which the text of a message is written. -/
theorem exists_isCall_stringified (m : Message) :
  ∃ call, IsCall m .stringified call
  := by
  cases haddTo : m.addTo with
  | some addTo => exact ⟨_, .formattable haddTo⟩
  | none => exact ⟨_, .text haddTo⟩

/-- There is a call by which `m` is written in the form `strategy`. -/
theorem exists_isCall (m : Message) (strategy : Strategy) :
  ∃ call, IsCall m strategy call
  := by
  obtain ⟨call, hcall⟩ := exists_isCall_stringified m
  cases strategy with
  | stringified => exact ⟨call, hcall⟩
  | structured =>
      cases hsimple : m.simple with
      | some s => exact ⟨_, .simple hsimple⟩
      | none =>
          cases hformats : m.multiformat with
          | some formats =>
              by_cases hjson : DeclaresJson formats
              · exact ⟨_, .json hsimple hformats hjson⟩
              · exact ⟨call, .otherFormats hsimple hformats hjson hcall⟩
          | none =>
              cases hobject : m.object with
              | some v => exact ⟨_, .object hsimple hformats hobject⟩
              | none => exact ⟨call, .generic hsimple hformats hobject hcall⟩

/-- The `call` of the rules is the one that a resolver makes, on every sink. -/
theorem IsCall.value_resolve
    {m : Message} {strategy : Strategy} {call : PlannedCall} (h : IsCall m strategy call)
    {σ : Type} [JsonSink σ] (sink : σ) :
  (resolve ⟨strategy⟩ m sink).value = stepWith sink call (·.on sink)
  := by
  induction h with
  | formattable haddTo =>
      rw [value_resolve_stringified, writeText, haddTo]
      rfl
  | text haddTo =>
      rw [value_resolve_stringified, writeText, haddTo]
      cases m.text with
      | ok s => rfl
      | error abort => rfl
  | simple hsimple =>
      rw [value_resolve_structured, writeVariant, Message.variant_of_simple hsimple]
      rfl
  | @json formats hsimple hformats hjson =>
      rw [value_resolve_structured,
        writeVariant_of_multiformat (Message.variant_of_multiformat hsimple hformats),
        if_pos ((declaresJson_iff formats).mp hjson), jsonFormat]
      cases formats.formatAs "JSON" with
      | ok s => rfl
      | error abort => rfl
  | @otherFormats formats call hsimple hformats hjson _ ih =>
      rw [value_resolve_structured,
        writeVariant_of_multiformat (Message.variant_of_multiformat hsimple hformats),
        if_neg (hjson ∘ (declaresJson_iff formats).mpr)]
      exact ih
  | object hsimple hformats hobject =>
      rw [value_resolve_structured, writeVariant, Message.variant, hsimple, hformats, hobject]
      rfl
  | generic hsimple hformats hobject _ ih =>
      rw [value_resolve_structured, writeVariant, Message.variant, hsimple, hformats, hobject]
      exact ih

/-- Calls that are alike on every sink are the same, for a `RecordedSink` tells them apart. -/
theorem eq_of_forall_on {call call' : PlannedCall}
    (h : ∀ {σ : Type} [JsonSink σ] (sink : σ),
      stepWith sink call (·.on sink) = stepWith sink call' (·.on sink)) :
  call = call'
  := by
  have hrecorded := h (RecordedSink.mk JsonWriter.buffered [])
  cases call with
  | ok c =>
      cases call' with
      | ok c' =>
          have hcalls := congrArg (fun step => RecordedSink.calls step.2) hrecorded
          simp only [stepWith_ok, RecordedSink.on_eq_record] at hcalls
          exact congrArg Except.ok (List.singleton_inj.mp hcalls)
      | error abort' =>
          have hcalls := congrArg (fun step => RecordedSink.calls step.2) hrecorded
          simp only [stepWith_ok, RecordedSink.on_eq_record] at hcalls
          exact absurd hcalls (List.cons_ne_nil _ _)
  | error abort =>
      cases call' with
      | ok c' =>
          have hcalls := congrArg (fun step => RecordedSink.calls step.2) hrecorded
          simp only [stepWith_ok, RecordedSink.on_eq_record] at hcalls
          exact absurd hcalls.symm (List.cons_ne_nil _ _)
      | error abort' =>
          have hresult := congrArg Prod.fst hrecorded
          simp only [stepWith, Except.error.injEq, Halt.aborted.injEq] at hresult
          rw [hresult]

/-- The text of a message is written by the same call, whatever view it has. -/
theorem isCall_stringified_iff (m : Message) (view : Option Multiformat) (call : PlannedCall) :
  IsCall { m with multiformat := view } .stringified call ↔ IsCall m .stringified call
  := by
  constructor
  · rintro (haddTo | haddTo)
    · exact .formattable haddTo
    · exact .text haddTo
  · rintro (haddTo | haddTo)
    · exact .formattable haddTo
    · exact .text haddTo

/-- A message none of whose formats is called `JSON` is written as its text is, whatever the text of
its view is. -/
theorem isCall_structured_iff
    {m : Message} {view : Multiformat} (hsimple : m.simple = none)
    (hview : m.multiformat = some view) (hjson : ¬ DeclaresJson view) (call : PlannedCall) :
  IsCall m .structured call ↔ IsCall m .stringified call
  := by
  constructor
  · intro h
    cases h with
    | simple hsimple' => cases hsimple.symm.trans hsimple'
    | json _ hview' hjson' =>
        obtain rfl := Option.some.inj (hview.symm.trans hview')
        exact absurd hjson' hjson
    | otherFormats _ _ _ h => exact h
    | object _ hview' _ => cases hview.symm.trans hview'
    | generic _ hview' _ _ => cases hview.symm.trans hview'
  · exact .otherFormats hsimple hview hjson

/-- By the rules one call is made for each message.  A resolver makes exactly this call on its
sink, whatever the sink does, and what the call gives is the outcome; if the text for the call
is abandoned there is no call.  The call by which the text of a message is written does not
depend on the `view` of the message in several formats; and if no format of the view is called
`JSON`, this is the call in structured form as well, so that the text is that of the message,
whatever `view.text` and `view.addTo` are. -/
theorem resolve_makes_one_call (r : Resolver) (m : Message) :
  ∃ call, (∀ call', IsCall m r.strategy call' ↔ call' = call)
    ∧ (∀ (σ : Type) [JsonSink σ] (sink : σ) (calls : List SinkCall),
      (r.resolve m sink).value = stepWith sink call (·.on sink)
        ∧ (r.resolve m (RecordedSink.mk sink calls)).value
          = stepWith ⟨sink, calls⟩ call (RecordedSink.record ⟨sink, calls⟩))
    ∧ (∀ (view : Option Multiformat) (call' : PlannedCall),
      IsCall { m with multiformat := view } .stringified call' ↔ IsCall m .stringified call')
    ∧ ∀ view : Multiformat, m.simple = none → ¬ DeclaresJson view → ∀ call' : PlannedCall,
      IsCall { m with multiformat := some view } .structured call' ↔ IsCall m .stringified call'
  := by
  obtain ⟨call, hcall⟩ := exists_isCall m r.strategy
  refine ⟨call, ?_, ?_, isCall_stringified_iff m, ?_⟩
  · intro call'
    constructor
    · intro hcall'
      apply eq_of_forall_on
      intro σ _ sink
      rw [← hcall'.value_resolve sink, hcall.value_resolve sink]
    · rintro rfl
      exact hcall
  · intro σ _ sink calls
    refine ⟨hcall.value_resolve sink, ?_⟩
    rw [hcall.value_resolve (RecordedSink.mk sink calls)]
    simp only [RecordedSink.on_eq_record]
  · intro view hsimple hjson call'
    have hsimple' : Message.simple { m with multiformat := some view } = none := hsimple
    rw [← isCall_stringified_iff m (some view)]
    exact isCall_structured_iff hsimple' rfl hjson call'

end Resolver

end LogRendering
