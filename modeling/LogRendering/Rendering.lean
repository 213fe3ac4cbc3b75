/-!
# Renderings

A text that is written piece by piece ends in one of three ways: it is complete, or
its writer reports a failure, or its writer abandons the whole computation.  A
`Rendering` is the text written so far together with its ending.  Renderings form a
monoid in which everything after the first incomplete piece is lost, and that is how
pieces are put together throughout.  A `Draft` is a buffer to which renderings are
added; a failure leaves the partial text in the buffer and does not stop the draft.
-/

namespace LogRendering

/-- What a computation leaves behind when it is abandoned: a text, or, if `payload` is `none`,
something that is not text. -/
structure Abort where
  payload : Option String
deriving DecidableEq

/-- The way in which a writer stops: at the end of its text, with a failure, or abandoned. -/
inductive Ending where
  | complete
  | failed
  | aborted (abort : Abort)
deriving DecidableEq

/-- The `text` that a writer has written, together with the way in which it stopped. -/
structure Rendering where
  text : String
  ending : Ending
deriving DecidableEq

namespace Rendering

/-- The rendering of `text` that is `complete`. -/
def ofText (text : String) : Rendering :=
  ⟨text, .complete⟩

/-- The rendering `r` continued by `s`, which is reached only if `r` is complete. -/
def append (r s : Rendering) : Rendering :=
  match r.ending with
  | .complete => ⟨r.text ++ s.text, s.ending⟩
  | _ => r

instance : Append Rendering := ⟨append⟩

/-- A list of renderings, one after the other, as far as all before are complete. -/
def concat : List Rendering → Rendering
  | [] => ofText ""
  | r :: rs => r ++ concat rs

/-- A list of renderings, each but the first preceded by `separator`. -/
def separated (separator : String) : List Rendering → Rendering
  | [] => ofText ""
  | r :: rs => r ++ concat (rs.map (ofText separator ++ ·))

/-- The writer of the rendering stopped at the end of its text, neither `failed` nor
`aborted`. -/
def IsComplete (r : Rendering) : Prop :=
  r.ending = .complete

instance (r : Rendering) : Decidable r.IsComplete :=
  inferInstanceAs (Decidable (r.ending = .complete))

/-- The text of a rendering that must not fail: one that has `failed` abandons the
computation. -/
def toText (r : Rendering) : Except Abort String :=
  match r.ending with
  | .complete => .ok r.text
  | .failed => .error ⟨some "a Display implementation returned an error unexpectedly: Error"⟩
  | .aborted abort => .error abort

@[simp]
theorem append_text_of_complete
    {r : Rendering} (s : Rendering) (h : r.ending = .complete) :
  (r ++ s) = ⟨r.text ++ s.text, s.ending⟩
  := by
  show append r s = _
  simp [append, h]

theorem append_eq_left
    {r : Rendering} (s : Rendering) (h : r.ending ≠ .complete) :
  r ++ s = r
  := by
  show append r s = r
  cases hr : r.ending <;> simp_all [append]

@[simp]
theorem ofText_append_ofText (s t : String) :
  ofText s ++ ofText t = ofText (s ++ t)
  := rfl

@[simp]
theorem empty_append (r : Rendering) :
  ofText "" ++ r = r
  := by
  simp [ofText]

/-- Putting renderings together by `append` is associative. -/
theorem append_assoc (r s t : Rendering) :
  r ++ s ++ t = r ++ (s ++ t)
  := by
  by_cases hr : r.ending = .complete
  · by_cases hs : s.ending = .complete
    · simp [hr, hs, String.append_assoc]
    · rw [append_eq_left t (r := s) hs, append_eq_left t]
      simp [hr, hs]
  · rw [append_eq_left s hr, append_eq_left t hr, append_eq_left _ hr]

end Rendering

/-- The contents of a buffer, and the `abort` that ended the writing to it, if any. -/
structure Draft where
  text : String
  abort : Option Abort
deriving DecidableEq

namespace Draft

/-- The draft whose buffer holds `text`. -/
def ofText (text : String) : Draft :=
  ⟨text, none⟩

/-- The draft with a rendering added.  One that has `failed` adds the text that it has, and one
that is `aborted` ends the draft. -/
def add (d : Draft) (r : Rendering) : Draft :=
  match d.abort with
  | some _ => d
  | none =>
    ⟨d.text ++ r.text,
      match r.ending with
      | .aborted abort => some abort
      | _ => none⟩

/-- The text of the finished draft, or the `abort` that ended it. -/
def result (d : Draft) : Except Abort String :=
  match d.abort with
  | some abort => .error abort
  | none => .ok d.text

end Draft

end LogRendering
