import LogRendering.Proofs.Resolver.Calls

/-!
# Writing to outputs that fail

An output with room for a number of bytes accepts what is written to it up to that number, and
then it fails.  Writing all of some bytes succeeds if there is room for them, and fails as the
output does if there is not.  So it is with every call on a writer to such an output, in any
sequence of calls: the serializer of JSON reports the failures of the output in a type of its
own, which also has faults of texts, and `LayoutError.ofJsonFailure` makes them failures of the
output again.
-/

namespace LogRendering

namespace Output

/-- The output accepts `room` further bytes, and then every writing fails with `failure`, which is
not an interruption. -/
structure FailsAfter (output : Output) (room : Nat) (failure : DeviceFailure) : Prop where
  room_eq : output.room = some room
  refusal_eq : output.refusal = some failure
  isFinal : failure.kind ≠ .interrupted

variable {output : Output} {room : Nat} {failure : DeviceFailure}

/-- What comes of writing all of `bytes`: those for which there is room are accepted, and the
writing succeeds if these are all. -/
structure WritesAll
    (output : Output) (room : Nat) (failure : DeviceFailure) (bytes : List UInt8)
    (result : Except DeviceFailure Unit × Output) : Prop where
  outcome : result.1 = if bytes.length ≤ room then .ok () else .error failure
  accepted : result.2.accepted = output.accepted ++ bytes.take room
  failsAfter : result.2.FailsAfter (room - bytes.length) failure

/-- Interruptions and writings in part do not show when all of `bytes` are written. -/
theorem FailsAfter.writesAll (h : output.FailsAfter room failure) (bytes : List UInt8) :
  WritesAll output room failure bytes (output.writeAll bytes)
  := by
  obtain ⟨hroom, hrefusal, hfinal⟩ := h
  rw [writeAll_eq]
  constructor
  · simp [Output.outcome, fault, hroom, hrefusal, hfinal]
  · simp [filled, hroom]
  · constructor
    · simp [filled, hroom]
    · exact hrefusal
    · exact hfinal

end Output

/-! ### Calls on a writer -/

namespace SinkCall

/-- A text in the call is `aborted`: the one that is formatted, or one inside the field value. -/
inductive IsAbandonedBy : SinkCall → Abort → Prop where
  | field {v : FieldValue} {abort : Abort} (h : v.toJson = .error abort) :
    IsAbandonedBy (field v) abort
  | formattable {addTo : String → Draft} {abort : Abort} (h : (addTo "").abort = some abort) :
    IsAbandonedBy (formattable addTo) abort

/-- The text that a call writes.  There is none if a text in the call is `aborted`. -/
def written : SinkCall → Except Abort String
  | text s => .ok (Json.quote s)
  | raw s => .ok s
  | field v => v.toJsonText
  | formattable addTo => (addTo "").result.map Json.quote

/-- The bytes of a call: those of `call.written` in UTF-8, or none. -/
def bytes (call : SinkCall) : List UInt8 :=
  match call.written with
  | .ok s => Charset.utf8.encode s
  | .error _ => []

/-- The writer `w` after `calls`, one after the other. -/
def onAll (calls : List SinkCall) (w : JsonWriter) : JsonWriter :=
  calls.foldl (fun w call => (call.on w).2) w

/-- What comes of a call where there is room for a number of bytes.  It is abandoned if a text in
it is, and then it writes nothing.  Otherwise it succeeds if all of `call.bytes` fit, and fails as
the output does if they do not. -/
inductive HasOutcome (call : SinkCall) (room : Nat) (failure : DeviceFailure) :
    Except Halt Unit → Prop where
  | abandoned {abort : Abort} (h : call.IsAbandonedBy abort) (hbytes : call.bytes = []) :
    HasOutcome call room failure (.error (.aborted abort))
  | succeeded (h : ∀ abort, ¬ call.IsAbandonedBy abort) (hfits : call.bytes.length ≤ room) :
    HasOutcome call room failure (.ok ())
  | failed (h : ∀ abort, ¬ call.IsAbandonedBy abort) (hfits : room < call.bytes.length) :
    HasOutcome call room failure (.error (.failed (.output failure)))

/-- A call writes `call.written`, if it has such a text. -/
theorem agrees_on (call : SinkCall) {w w' : JsonWriter} (h : w.output = w'.output) :
  (call.on w).Agrees (stepWith w' call.written w'.writeBytes)
  := by
  cases call with
  | text s =>
      rw [written, stepWith_ok, on, JsonWriter.writeText_eq]
      exact JsonWriter.agrees_writeBytes h (Json.quote s)
  | raw s =>
      rw [written, stepWith_ok, on]
      exact JsonWriter.agrees_writeBytes h s
  | field v =>
      rw [written, on, JsonWriter.writeField_eq]
      exact JsonWriter.agrees_stepWith h v.toJsonText (JsonWriter.agrees_writeBytes h)
  | formattable addTo =>
      apply (JsonWriter.agrees_writeFormattable h addTo).trans
      rw [written, stepWith_map]
      apply JsonWriter.agrees_stepWith rfl
      intro text
      rw [JsonWriter.writeText_eq]
      exact JsonWriter.agrees_writeBytes rfl (Json.quote text)

/-- What `call` does on a writer depends on its output only, not on its `scratch`. -/
theorem agrees_on_of_output_eq
    (call : SinkCall) {w w' : JsonWriter} (h : w.output = w'.output) :
  (call.on w).Agrees (call.on w')
  := (call.agrees_on h).trans (call.agrees_on rfl).symm

/-- A call has no text `written` if and only if it `IsAbandonedBy` something. -/
theorem written_eq_error_iff (call : SinkCall) (abort : Abort) :
  call.written = .error abort ↔ call.IsAbandonedBy abort
  := by
  constructor
  · intro h
    cases call with
    | text s => contradiction
    | raw s => contradiction
    | field v =>
        cases hjson : v.toJson with
        | ok value => simp [written, FieldValue.toJsonText, hjson, Except.map] at h
        | error abort' =>
            simp only [written, FieldValue.toJsonText, hjson, Except.map, Except.error.injEq] at h
            exact .field (h ▸ hjson)
    | formattable addTo =>
        cases hdraft : (addTo "").abort with
        | none => simp [written, Draft.result, hdraft, Except.map] at h
        | some abort' =>
            simp only [written, Draft.result, hdraft, Except.map, Except.error.injEq] at h
            exact .formattable (h ▸ hdraft)
  · rintro (h | h)
    · simp [written, FieldValue.toJsonText, h, Except.map]
    · simp [written, Draft.result, h, Except.map]

theorem bytes_of_written {call : SinkCall} {s : String} (h : call.written = .ok s) :
  call.bytes = Charset.utf8.encode s
  := by
  rw [bytes, h]

theorem bytes_of_abandoned {call : SinkCall} {abort : Abort} (h : call.written = .error abort) :
  call.bytes = []
  := by
  rw [bytes, h]

/-- What a call writes to an output without limits are `call.bytes`. -/
theorem output_on_holding (call : SinkCall) {w : JsonWriter} {before : List UInt8}
    (h : w.output = .holding before) :
  (call.on w).2.output = .holding (before ++ call.bytes)
  := by
  rw [(call.agrees_on rfl).2]
  cases hwritten : call.written with
  | ok s =>
      rw [stepWith_ok, JsonWriter.writeBytes, h, Output.writeAll_holding,
        bytes_of_written hwritten]
  | error abort =>
      rw [bytes_of_abandoned hwritten, List.append_nil]
      exact h

/-- A call that is abandoned leaves the output as it is. -/
theorem output_on_of_written
    {call : SinkCall} {abort : Abort} (h : call.written = .error abort) (w : JsonWriter) :
  (call.on w).2.output = w.output
  := by
  rw [(call.agrees_on rfl).2, h]
  rfl

section FailsAfter

variable {w : JsonWriter} {room : Nat} {failure : DeviceFailure}

/-- One call writes those of its bytes for which there is room. -/
theorem on_failsAfter (h : w.output.FailsAfter room failure) (call : SinkCall) :
  call.HasOutcome room failure (call.on w).1
    ∧ (call.on w).2.output.accepted = w.output.accepted ++ call.bytes.take room
    ∧ (call.on w).2.output.FailsAfter (room - call.bytes.length) failure
  := by
  have habandoned := call.written_eq_error_iff
  cases hwritten : call.written with
  | error abort =>
      have hbytes := bytes_of_abandoned hwritten
      have houtcome : (call.on w).1 = .error (.aborted abort) := by
        rw [(call.agrees_on rfl).1, hwritten]
        rfl
      rw [output_on_of_written hwritten, houtcome, hbytes, List.take_nil, List.append_nil]
      exact ⟨.abandoned ((habandoned abort).mp hwritten) hbytes, rfl, h⟩
  | ok s =>
      have hnone : ∀ abort, ¬ call.IsAbandonedBy abort := by
        intro abort habort
        rw [(habandoned abort).mpr habort] at hwritten
        contradiction
      have hall := h.writesAll call.bytes
      rw [(call.agrees_on rfl).1, (call.agrees_on rfl).2, hwritten, stepWith_ok,
        JsonWriter.writeBytes, ← bytes_of_written hwritten]
      cases hresult : w.output.writeAll call.bytes with
      | mk outcome output =>
          rw [hresult] at hall
          obtain ⟨houtcome, haccepted, hrest⟩ := hall
          by_cases hfits : call.bytes.length ≤ room
          · obtain rfl : outcome = .ok () := houtcome.trans (if_pos hfits)
            exact ⟨.succeeded hnone hfits, haccepted, hrest⟩
          · obtain rfl : outcome = .error failure := houtcome.trans (if_neg hfits)
            exact ⟨.failed hnone (Nat.lt_of_not_le hfits), haccepted, hrest⟩

/-- The `calls` in a sequence write those of their bytes for which there is room. -/
theorem onAll_failsAfter (h : w.output.FailsAfter room failure) (calls : List SinkCall) :
  (onAll calls w).output.accepted = w.output.accepted ++ (calls.flatMap bytes).take room
    ∧ (onAll calls w).output.FailsAfter (room - (calls.flatMap bytes).length) failure
  := by
  -- after each call the output fails as before, with less room
  induction calls generalizing w room with
  | nil =>
      rw [List.flatMap_nil, List.take_nil, List.append_nil]
      exact ⟨rfl, h⟩
  | cons call calls ih =>
      obtain ⟨-, haccepted, hrest⟩ := on_failsAfter h call
      obtain ⟨haccepted', hrest'⟩ := ih hrest
      rw [onAll, List.foldl_cons, List.flatMap_cons, List.take_append, List.length_append,
        ← List.append_assoc, ← haccepted, ← Nat.sub_sub]
      exact ⟨haccepted', hrest'⟩

end FailsAfter

/-- The `calls` on writers with the same output leave the same output behind. -/
theorem output_onAll_eq
    {w w' : JsonWriter} (h : w.output = w'.output) (calls : List SinkCall) :
  (onAll calls w).output = (onAll calls w').output
  := by
  induction calls generalizing w w' with
  | nil => exact h
  | cons call calls ih => exact ih (call.agrees_on_of_output_eq h).2

/-- After any `calls` on a writer whose output fails after `room` bytes, the output has accepted the
bytes of these calls, up to that number.  A further call succeeds if all of `call.bytes` fit behind
those of the calls before it, and fails with the `failure` of the output if they do not; a call
that is abandoned passes nothing to the output.  Nothing depends on what the buffer of the writer
held.  The bytes of a call are those that it writes to an output without limits. -/
theorem accepted_onAll_and_outcome
    {w : JsonWriter} {room : Nat} {failure : DeviceFailure}
    (h : w.output.FailsAfter room failure) (calls : List SinkCall) :
  (onAll calls w).output.accepted = w.output.accepted ++ (calls.flatMap bytes).take room
    ∧ ∀ call : SinkCall,
      call.HasOutcome (room - (calls.flatMap bytes).length) failure (call.on (onAll calls w)).1
        ∧ (∀ abort, call.IsAbandonedBy abort →
          (call.on (onAll calls w)).2.output = (onAll calls w).output)
        ∧ (∀ w' : JsonWriter, w'.output = w.output →
          (call.on (onAll calls w')).Agrees (call.on (onAll calls w)))
        ∧ ∀ (w' : JsonWriter) (before : List UInt8), w'.output = .holding before →
          (call.on w').2.output = .holding (before ++ call.bytes)
  := by
  obtain ⟨haccepted, hrest⟩ := onAll_failsAfter h calls
  refine ⟨haccepted, fun call => ⟨?_, ?_, ?_, ?_⟩⟩
  · obtain ⟨houtcome, -⟩ := on_failsAfter hrest call
    exact houtcome
  · intro abort habandoned
    apply output_on_of_written ((call.written_eq_error_iff abort).mpr habandoned)
  · intro w' houtput
    apply agrees_on_of_output_eq
    apply output_onAll_eq houtput
  · intro w' before hholding
    apply call.output_on_holding hholding

/-- A writer with text in its buffer, to an output that is interrupted twice, accepts one byte and
then two, and fails after five. -/
def leakyWriter : JsonWriter :=
  ⟨⟨[], 2, [0, 1], some 5, some ⟨.brokenPipe, .text "closed"⟩⟩, "earlier text"⟩

/-- A text, a text that is abandoned after a part of it, and a text that does not fit. -/
def leakyCalls : List SinkCall :=
  [.text "ab", .formattable fun buffer => ⟨buffer ++ "part", some ⟨some "abandoned"⟩⟩,
    .raw "[1]"]

/-- What fits of `leakyCalls` is passed on by `leakyWriter`, which then fails as its output does. -/
theorem accepted_onAll_and_outcome_leakyWriter :
  leakyWriter.output.FailsAfter 5 ⟨.brokenPipe, .text "closed"⟩
    ∧ (onAll leakyCalls leakyWriter).output.accepted
      = leakyWriter.output.accepted ++ (leakyCalls.flatMap bytes).take 5
    ∧ ∀ call : SinkCall,
      call.HasOutcome (5 - (leakyCalls.flatMap bytes).length) ⟨.brokenPipe, .text "closed"⟩
          (call.on (onAll leakyCalls leakyWriter)).1
        ∧ (∀ abort, call.IsAbandonedBy abort →
          (call.on (onAll leakyCalls leakyWriter)).2.output
            = (onAll leakyCalls leakyWriter).output)
        ∧ (∀ w' : JsonWriter, w'.output = leakyWriter.output →
          (call.on (onAll leakyCalls w')).Agrees (call.on (onAll leakyCalls leakyWriter)))
        ∧ ∀ (w' : JsonWriter) (before : List UInt8), w'.output = .holding before →
          (call.on w').2.output = .holding (before ++ call.bytes)
  := by
  have h : leakyWriter.output.FailsAfter 5 ⟨.brokenPipe, .text "closed"⟩ :=
    ⟨rfl, rfl, by decide⟩
  exact ⟨h, accepted_onAll_and_outcome h leakyCalls⟩

end SinkCall

end LogRendering
