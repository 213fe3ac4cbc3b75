import LogRendering.Html.Layout
import LogRendering.Proofs.Timestamp.Pattern

/-!
# Formats that are replaced

A format is replaced by the classic form in two places: with a warning when a layout is built, if
its pattern has an invalid item, and without one when an instant is shown, if its pattern has no
text.  A pattern with an invalid item has no text at any instant, whatever stands before the item,
so that the first replacement never changes what is shown.  The second one is taken by a valid
pattern exactly if it holds the specifier `%#z`, which is known but only read.
-/

namespace LogRendering.TimestampFormat

open Calendar (Instant)
open Timestamp (items)

theorem isValid_custom_iff (pattern : String) :
  (custom pattern).isValid = true ↔ .invalid ∉ items pattern
  := by
  simp [isValid]

/-- The formats that do not satisfy `isValid` are the patterns with an item that is `invalid`. -/
theorem isValid_eq_false_iff (f : TimestampFormat) :
  f.isValid = false ↔ ∃ pattern, f = custom pattern ∧ .invalid ∈ items pattern
  := by
  cases f with
  | custom pattern =>
      rw [← Bool.not_eq_true, isValid_custom_iff, Classical.not_not]
      constructor
      · exact fun h => ⟨pattern, rfl, h⟩
      · rintro ⟨_, heq, h⟩
        obtain rfl := custom.inj heq
        exact h
  | classic | iso8601 | rfc3339 | unixMillis =>
      refine iff_of_false (fun h => ?_) ?_
      · cases h
      · rintro ⟨_, heq, -⟩
        cases heq

/-- A `pattern` has a text at every instant exactly if none of its items is `invalid` or
`readingOnly`. -/
theorem exists_patternText?_iff (pattern : String) (t : Instant) :
  (∃ text, patternText? pattern t = some text)
    ↔ .invalid ∉ items pattern ∧ .readingOnly ∉ items pattern
  := by
  rw [← Timestamp.exists_itemsText?_iff t]
  simp only [patternText?, Option.map_eq_some_iff]
  constructor
  · rintro ⟨_, text, htext, -⟩
    exact ⟨text, htext⟩
  · rintro ⟨text, htext⟩
    exact ⟨_, text, htext, rfl⟩

theorem format_of_patternText?_eq_none {pattern : String} {t : Instant}
    (h : patternText? pattern t = none) :
  (custom pattern).format t = classic.format t
  := by
  show (patternText? pattern t).getD _ = _
  rw [h]
  rfl

/-! ### Invalid formats -/

/-- A format that does not satisfy `isValid` shows every instant in the classic form. -/
theorem format_of_not_isValid {f : TimestampFormat} (h : f.isValid = false) (t : Instant) :
  f.format t = classic.format t
  := by
  cases f with
  | custom pattern =>
      apply format_of_patternText?_eq_none
      apply Option.eq_none_iff_forall_ne_some.mpr
      intro text htext
      have hvalid := ((exists_patternText?_iff pattern t).mp ⟨text, htext⟩).1
      rw [← isValid_custom_iff, h] at hvalid
      cases hvalid
  | classic | iso8601 | rfc3339 | unixMillis => cases h

theorem resolve_of_isValid {f : TimestampFormat} (h : f.isValid = true) :
  f.resolve = pure f
  := if_pos h

theorem resolve_of_not_isValid {f : TimestampFormat} (h : f.isValid = false) :
  f.resolve = ⟨classic, [f.invalid], false⟩
  := by
  rw [resolve, if_neg (by rw [h]; decide)]
  rfl

theorem isValid_value_resolve (f : TimestampFormat) :
  f.resolve.value.isValid = true
  := by
  cases h : f.isValid with
  | true =>
      rw [resolve_of_isValid h]
      exact h
  | false =>
      rw [resolve_of_not_isValid h]
      rfl

/-- The format that `f` is resolved to shows every instant in the same way. -/
theorem format_value_resolve (f : TimestampFormat) (t : Instant) :
  f.resolve.value.format t = f.format t
  := by
  cases h : f.isValid with
  | true =>
      rw [resolve_of_isValid h]
      rfl
  | false =>
      rw [resolve_of_not_isValid h]
      exact (format_of_not_isValid h t).symm

/-- The form `classic` is the text of `classicPattern`. -/
theorem patternText?_classicPattern (t : Instant) :
  patternText? classicPattern t = some (classic.format t)
  := by
  have hvalid : .invalid ∉ items classicPattern ∧ .readingOnly ∉ items classicPattern := by decide
  obtain ⟨text, htext⟩ := (exists_patternText?_iff classicPattern t).mpr hvalid
  rw [htext, format, classicText, htext]
  rfl

open Html in
/-- Resolving `f` gives a valid format, is done once and for all, and warns of `f.invalid` exactly if
`f` is not valid, which is if it is a pattern of whose `items` one is `.invalid`.  It changes
nothing that is shown: a format that is not valid shows the text of `classicPattern` alone, and a
layout, which resolves its format, has the header of a frame that does not. -/
theorem resolve_changes_no_text (f : TimestampFormat) (settings : LayoutSettings) (t : Instant) :
  f.resolve.value.isValid = true
    ∧ f.resolve.value.resolve = pure f.resolve.value
    ∧ f.resolve.diagnostics = (if f.isValid then [] else [f.invalid])
    ∧ (f.isValid = false ↔ ∃ pattern, f = custom pattern ∧ .invalid ∈ items pattern)
    ∧ f.invalid.level = .warn
    ∧ f.resolve.value.format t = f.format t
    ∧ (f.isValid = false → patternText? classicPattern t = some (f.format t))
    ∧ (HtmlLayout.build { settings with timestampFormat := f }).value.toLayout.header t
      = some (DocumentFrame.headerBytes
        ⟨settings.title, settings.showsLocation, (Charset.resolve settings.charset).value, f⟩ t)
  := by
  refine ⟨isValid_value_resolve f, resolve_of_isValid (isValid_value_resolve f), ?_,
    isValid_eq_false_iff f, rfl, format_value_resolve f t, ?_, ?_⟩
  · cases h : f.isValid with
    | true =>
        rw [resolve_of_isValid h]
        rfl
    | false =>
        rw [resolve_of_not_isValid h]
        rfl
  · intro h
    rw [patternText?_classicPattern, format_of_not_isValid h]
  · show some (DocumentFrame.headerBytes ⟨_, _, _, f.resolve.value⟩ t) = _
    simp only [DocumentFrame.headerBytes, DocumentFrame.headerText, DocumentFrame.header,
      DocumentFrame.introduction, format_value_resolve]
    rfl

/-! ### Valid patterns -/

/-- The `pattern` holds the specifier that is only read, after a valid beginning. -/
def HoldsReadingOnly (pattern : String) : Prop :=
  ∃ before after, pattern = before ++ "%#z" ++ after ∧ (custom before).isValid = true

theorem holdsReadingOnly_iff {pattern : String} (h : (custom pattern).isValid = true) :
  HoldsReadingOnly pattern ↔ .readingOnly ∈ items pattern
  := by
  rw [Timestamp.readingOnly_mem_items_iff ((isValid_custom_iff pattern).mp h)]
  simp only [HoldsReadingOnly, isValid_custom_iff]

/-- A valid `pattern`, of which no warning is given, shows every instant by its own text unless
it `HoldsReadingOnly`, and then it shows every instant in the classic form. -/
theorem valid_pattern_shown_iff {pattern : String} (h : (custom pattern).isValid = true)
    (t : Instant) :
  (custom pattern).resolve = pure (custom pattern)
    ∧ (patternText? pattern t = some ((custom pattern).format t) ↔ ¬ HoldsReadingOnly pattern)
    ∧ (patternText? pattern t = none ∧ (custom pattern).format t = classic.format t
      ↔ HoldsReadingOnly pattern)
  := by
  have hsome := exists_patternText?_iff pattern t
  rw [← isValid_custom_iff, ← holdsReadingOnly_iff h, and_iff_right h] at hsome
  refine ⟨resolve_of_isValid h, ?_, ?_⟩
  · rw [← hsome]
    constructor
    · exact fun htext => ⟨_, htext⟩
    · rintro ⟨text, htext⟩
      rw [format, htext]
      rfl
  · constructor
    · rintro ⟨hnone, -⟩
      apply Classical.byContradiction
      intro hholds
      obtain ⟨text, htext⟩ := hsome.mpr hholds
      cases hnone.symm.trans htext
    · intro hholds
      have hnone : patternText? pattern t = none := by
        apply Option.eq_none_iff_forall_ne_some.mpr
        exact fun text htext => hsome.mp ⟨text, htext⟩ hholds
      exact ⟨hnone, format_of_patternText?_eq_none hnone⟩

/-- A pattern with paddings and modifiers, and a percent sign before what looks like the
specifier that is only read, shows a leap second before the epoch by its own text. -/
theorem valid_pattern_shown_paddedPattern :
  ∃ pattern t, pattern = "%-d.%_m.%0Y %S%.3f%:::z %%#z" ∧ t = ⟨-1, 1999999999⟩
    ∧ (custom pattern).isValid = true
    ∧ ¬ HoldsReadingOnly pattern
    ∧ patternText? pattern t = some ((custom pattern).format t)
    ∧ (custom pattern).format t = "31.12.1969 60.999+00 %#z"
  := by
  have hvalid : (custom "%-d.%_m.%0Y %S%.3f%:::z %%#z").isValid = true := by decide
  have hholds : ¬ HoldsReadingOnly "%-d.%_m.%0Y %S%.3f%:::z %%#z" := by
    rw [holdsReadingOnly_iff hvalid]
    decide
  refine ⟨_, _, rfl, rfl, hvalid, hholds, (valid_pattern_shown_iff hvalid _).2.1.mpr hholds, ?_⟩
  decide +kernel

/-- A pattern that `HoldsReadingOnly` is valid, and no warning is given of it, but it has no
text, so that the classic form is shown instead. -/
theorem silently_replaced_offsetPattern :
  ∃ pattern t, pattern = "%#z" ∧ t = ⟨0, 0⟩
    ∧ (custom pattern).isValid = true
    ∧ (custom pattern).resolve = pure (custom pattern)
    ∧ patternText? pattern t = none
    ∧ (custom pattern).format t = "Thu Jan 01 00:00:00 UTC 1970"
  := by
  have hvalid : (custom "%#z").isValid = true := by decide
  refine ⟨_, _, rfl, rfl, hvalid, resolve_of_isValid hvalid, ?_, ?_⟩
  · decide
  · decide +kernel

end LogRendering.TimestampFormat
