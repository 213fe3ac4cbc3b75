import LogRendering.Message.Map
import LogRendering.Message.Pattern
import LogRendering.Proofs.Field.Parts

/-!
# Provided messages

The messages of the kinds that the library provides: a text, a pattern with arguments, a
map, one structured value.  They are made of field values.  A value of another kind in them
whose text is abandoned abandons the text of the message; one whose text fails does so only
if it belongs to a structured value, for the others keep the part of the text that there is.
-/

namespace LogRendering

/-- A message of one of the kinds that the library provides; `toMessage` gives its
capabilities. -/
inductive ProvidedMessage where
  | text (s : String)
  | parameterized (m : ParameterizedMessage)
  | map (m : MapMessage)
  | object (v : FieldValue)

namespace ProvidedMessage

/-- The message with its capabilities. -/
def toMessage : ProvidedMessage → Message
  | text s => .ofText s
  | parameterized m => m.toMessage
  | map m => m.toMessage
  | object v => .ofField v

/-- The field values of which a message is made. -/
def values : ProvidedMessage → List FieldValue
  | text _ => []
  | parameterized m => m.arguments
  | map m => m.entries.entries.map Prod.snd
  | object v => [v]

/-- The message is one structured value, an `object`. -/
def IsObject (m : ProvidedMessage) : Prop :=
  ∃ v, m = object v

/-- The message is a `map`. -/
def IsMap (m : ProvidedMessage) : Prop :=
  ∃ map', m = map map'

/-- An `other` value of which the message is made, at any depth, has an ending that satisfies
`P`. -/
def HasPartThat (m : ProvidedMessage) (P : Ending → Prop) : Prop :=
  ∃ v ∈ m.values, ∃ rendering, v.HasPart rendering ∧ P rendering.ending

/-- No `other` value of which the message is made ends its text as `aborted`, though it may have
`failed`. -/
def IsTame (m : ProvidedMessage) : Prop :=
  ¬ m.HasPartThat fun ending => ∃ abort, ending = .aborted abort

/-- Some `other` value of which the message is made ends its text as `failed`. -/
def Fails (m : ProvidedMessage) : Prop :=
  m.HasPartThat (· = .failed)

/-- Every `other` value of which the message is made is rendered completely. -/
def IsLegible (m : ProvidedMessage) : Prop :=
  ∀ v ∈ m.values, v.IsLegible

/-- A message that `IsTame` also `IsLegible` unless it `Fails`. -/
theorem IsTame.isLegible_iff {m : ProvidedMessage} (h : m.IsTame) :
  m.IsLegible ↔ ¬ m.Fails
  := by
  constructor
  · rintro hlegible ⟨v, hmem, rendering, hpart, hfailed⟩
    have hcomplete : rendering.ending = .complete := hlegible v hmem rendering hpart
    rw [hcomplete] at hfailed
    contradiction
  · intro hsound v hmem rendering hpart
    show rendering.ending = .complete
    cases hending : rendering.ending with
    | complete => rfl
    | failed => exact absurd ⟨v, hmem, rendering, hpart, hending⟩ hsound
    | aborted abort => exact absurd ⟨v, hmem, rendering, hpart, abort, hending⟩ h

/-- The text of a value of which a message is made is not `aborted` if the message `IsTame`. -/
theorem IsTame.ending_display_ne {m : ProvidedMessage} (h : m.IsTame) {v : FieldValue}
    (hmem : v ∈ m.values) (abort : Abort) :
  v.display.ending ≠ .aborted abort
  := by
  apply FieldValue.ending_display_of (P := (· ≠ .aborted abort))
  · simp
  · intro rendering hpart habort
    exact h ⟨v, hmem, rendering, hpart, abort, habort⟩

end ProvidedMessage

/-! ### Drafts -/

namespace Draft

/-- A rendering that is not `aborted` does not end a draft. -/
theorem abort_add {d : Draft} (hd : d.abort = none) {r : Rendering}
    (hr : ∀ abort, r.ending ≠ .aborted abort) :
  (d.add r).abort = none
  := by
  rw [add, hd]
  cases hending : r.ending with
  | aborted abort => exact absurd hending (hr abort)
  | _ => simp

theorem abort_add_ofText {d : Draft} (hd : d.abort = none) (text : String) :
  (d.add (.ofText text)).abort = none
  := by
  apply abort_add hd
  intro abort
  simp [Rendering.ofText]

theorem result_of_abort {d : Draft} (hd : d.abort = none) :
  d.result = .ok d.text
  := by
  rw [result, hd]

end Draft

namespace ParameterizedMessage

/-- The `arguments` do not end a draft if none of them is `aborted`. -/
theorem abort_addTokens
    {draft : Draft} (hdraft : draft.abort = none) {arguments : List FieldValue}
    (harguments : ∀ argument ∈ arguments, ∀ abort, argument.display.ending ≠ .aborted abort)
    (tokens : List PatternToken) :
  (addTokens draft arguments tokens).abort = none
  := by
  induction tokens generalizing draft arguments with
  | nil => rwa [addTokens]
  | cons token tokens ih =>
      cases token with
      | char c =>
          rw [addTokens]
          apply ih (Draft.abort_add_ofText hdraft _) harguments
      | placeholder =>
          cases arguments with
          | nil =>
              rw [addTokens]
              apply ih (Draft.abort_add_ofText hdraft _) harguments
          | cons argument arguments =>
              rw [addTokens]
              obtain ⟨hargument, hrest⟩ := List.forall_mem_cons.mp harguments
              apply ih (Draft.abort_add hdraft hargument) hrest

end ParameterizedMessage

namespace MapMessage

/-- The text of an `entry` is `aborted` only if that of its value is. -/
theorem ending_entryText_ne {entry : String × FieldValue} {abort : Abort}
    (h : entry.2.display.ending ≠ .aborted abort) :
  (entryText entry).ending ≠ .aborted abort
  := by
  have hcomplete : Ending.complete ≠ .aborted abort := by simp
  apply Rendering.ending_append_of (P := (· ≠ .aborted abort))
  · apply Rendering.ending_append_of (P := (· ≠ .aborted abort)) hcomplete h
  · exact hcomplete

/-- The `entries` do not end a draft if none of them is `aborted`. -/
theorem abort_addEntries
    {draft : Draft} (hdraft : draft.abort = none) {entries : List (String × FieldValue)}
    (hentries : ∀ entry ∈ entries, ∀ abort, entry.2.display.ending ≠ .aborted abort) :
  (addEntries draft entries).abort = none
  := by
  induction entries generalizing draft with
  | nil => rwa [addEntries]
  | cons entry entries ih =>
      obtain ⟨hentry, hrest⟩ := List.forall_mem_cons.mp hentries
      rw [addEntries]
      apply ih _ hrest
      apply Draft.abort_add (Draft.abort_add_ofText hdraft " ")
      intro abort
      apply ending_entryText_ne (hentry abort)

theorem abort_addTo
    (m : MapMessage) (buffer : String)
    (hentries : ∀ entry ∈ m.entries.entries, ∀ abort,
      entry.2.display.ending ≠ .aborted abort) :
  (m.addTo buffer).abort = none
  := by
  unfold addTo
  split
  next => rfl
  next entry rest heq =>
    rw [heq] at hentries
    obtain ⟨hentry, hrest⟩ := List.forall_mem_cons.mp hentries
    apply abort_addEntries _ hrest
    apply Draft.abort_add rfl
    intro abort
    apply ending_entryText_ne (hentry abort)

end MapMessage

/-! ### Texts -/

namespace ProvidedMessage

/-- A message that `IsTame`, and can add its text to a buffer, does so to its end. -/
theorem IsTame.abort_addTo {m : ProvidedMessage} (h : m.IsTame) {addTo : String → Draft}
    (haddTo : m.toMessage.addTo = some addTo) (buffer : String) :
  (addTo buffer).abort = none
  := by
  cases m with
  | text s =>
      obtain rfl := Option.some.inj haddTo
      rfl
  | parameterized m =>
      obtain rfl := Option.some.inj haddTo
      apply ParameterizedMessage.abort_addTokens rfl
      intro argument hmem abort
      apply h.ending_display_ne hmem
  | map m =>
      obtain rfl := Option.some.inj haddTo
      apply m.abort_addTo buffer
      intro entry hmem abort
      apply h.ending_display_ne (List.mem_map_of_mem hmem)
  | object v => contradiction

/-- A message that is not `IsObject` adds its text to buffers, and its text is what it adds to an
empty buffer. -/
theorem exists_addTo {m : ProvidedMessage} (h : ¬ m.IsObject) :
  ∃ addTo, m.toMessage.addTo = some addTo ∧ m.toMessage.text = (addTo "").result
  := by
  cases m with
  | text s =>
      refine ⟨_, rfl, ?_⟩
      show Except.ok s = .ok ("" ++ s)
      rw [String.empty_append]
  | parameterized m => exact ⟨_, rfl, rfl⟩
  | map m => exact ⟨_, rfl, rfl⟩
  | object v => exact absurd ⟨v, rfl⟩ h

end ProvidedMessage

end LogRendering
