import LogRendering.Proofs.Charset.Bytes
import LogRendering.Proofs.Text.Division
import LogRendering.Proofs.Trace.Containment

/-!
# Lines of a source

The bytes that a source delivers, and the failure that ends them if one does, determine the
lines that are read from it, in whatever pieces the bytes come and however often the reading is
interrupted and tried again.  The lines are the contents of those of the bytes, up to the first
failure: a line that is not text, or the failure of the source, which takes away what was read
of the line that it cuts short.
-/

namespace LogRendering

open Charset

namespace Trace

/-! ### What a source delivers -/

/-- The bytes that a source delivers before it fails with anything but `interrupted`. -/
def delivered : List Delivery → List UInt8
  | [] => []
  | .bytes first more :: rest => first :: more ++ delivered rest
  | .failure e :: rest => if e.kind = .interrupted then delivered rest else []

/-- The failure of a source that is not `interrupted`, the first one if there are several. -/
def fatal? : List Delivery → Option DeviceFailure
  | [] => none
  | .bytes _ _ :: rest => fatal? rest
  | .failure e :: rest => if e.kind = .interrupted then fatal? rest else some e

/-- The source that delivers the same bytes as `source` in one piece, and fails in the same
way. -/
def inOnePiece (source : List Delivery) : List Delivery :=
  inMemory (delivered source) ++ (fatal? source).toList.map .failure

theorem kind_ne_of_fatal?
    {source : List Delivery} {e : DeviceFailure} (h : fatal? source = some e) :
  e.kind ≠ .interrupted
  := by
  induction source with
  | nil => contradiction
  | cons delivery source ih =>
      cases delivery with
      | bytes first more => exact ih h
      | failure e' =>
          rw [fatal?] at h
          split at h
          next => exact ih h
          next hkind =>
            obtain rfl := Option.some.inj h
            exact hkind

theorem signals_inOnePiece (source : List Delivery) :
  signals (inOnePiece source)
    = (delivered source).map .byte ++ (fatal? source).toList.map .failure
  := by
  rw [inOnePiece, signals_append, signals_inMemory]
  cases fatal? source with
  | none => rfl
  | some e => rfl

/-- The signals `rest` and `rest'` may take the place of each other if the same lines are read
from them whatever was read before. -/
theorem linesFrom_append_congr
    {rest rest' : List Signal} (h : ∀ pending, linesFrom pending rest = linesFrom pending rest')
    (before : List Signal) (pending : List UInt8) :
  linesFrom pending (before ++ rest) = linesFrom pending (before ++ rest')
  := by
  induction before generalizing pending with
  | nil => apply h
  | cons signal before ih =>
      rw [List.cons_append, List.cons_append]
      obtain ⟨next, lines, hsteps⟩ | ⟨e, hstops⟩ := stepsTo_or_stopsAt pending signal
      · rw [hsteps.linesFrom_cons, hsteps.linesFrom_cons, ih]
      · rw [hstops.linesFrom_cons, hstops.linesFrom_cons]

/-- The lines of a source are those of the source `inOnePiece`. -/
theorem linesFrom_inOnePiece (source : List Delivery) (pending : List UInt8) :
  linesFrom pending (signals source) = linesFrom pending (signals (inOnePiece source))
  := by
  rw [signals_inOnePiece]
  induction source generalizing pending with
  | nil => rfl
  | cons delivery source ih =>
      cases delivery with
      | bytes first more =>
          rw [delivered, fatal?, List.map_append, List.append_assoc]
          exact linesFrom_append_congr ih ((first :: more).map .byte) pending
      | failure e =>
          show linesFrom pending (.failure e :: signals source) = _
          rw [delivered, fatal?, linesFrom, readLines]
          split
          next hkind => apply ih
          next hkind => rw [List.map_nil, List.nil_append, Option.toList_some, List.map_singleton,
            linesFrom, readLines, if_neg hkind, TraceLines.collect, TraceLines.collect]

theorem read_inOnePiece (source : List Delivery) :
  TraceLines.read source = TraceLines.read (inOnePiece source)
  := by
  have hlines := linesFrom_inOnePiece source []
  simp only [linesFrom] at hlines
  rw [TraceLines.read, TraceLines.read, lineOutcomes, lineOutcomes, TraceLines.ofOutcomes,
    TraceLines.ofOutcomes, hlines]

/-! ### Outcomes of reading line after line -/

theorem readLines_bytes {piece : List UInt8} (h : lineFeed ∉ piece) (pending : List UInt8)
    (rest : List Signal) :
  readLines pending (piece.map .byte ++ rest) = readLines (piece.reverse ++ pending) rest
  := by
  induction piece generalizing pending with
  | nil => rfl
  | cons b piece ih =>
      have hb : b ≠ lineFeed := Ne.symm (List.ne_of_not_mem_cons h)
      rw [List.map_cons, List.cons_append, readLines, if_neg hb,
        ih (List.not_mem_of_not_mem_cons h), List.reverse_cons, List.append_assoc]
      rfl

/-- Complete `lines` are read one after the other, each with its line feed. -/
theorem readLines_lines {lines : List (List UInt8)} (h : ∀ line ∈ lines, lineFeed ∉ line)
    (rest : List Signal) :
  readLines [] ((lines.flatMap (· ++ [lineFeed])).map .byte ++ rest)
    = lines.map (fun line => decodeLine (line ++ [lineFeed])) ++ readLines [] rest
  := by
  induction lines with
  | nil => rfl
  | cons line lines ih =>
      obtain ⟨hline, hlines⟩ := List.forall_mem_cons.mp h
      rw [List.flatMap_cons, List.map_append, List.map_append, List.append_assoc,
        List.append_assoc, readLines_bytes hline, List.append_nil, List.map_singleton,
        List.singleton_append, readLines, if_pos rfl, List.reverse_cons, List.reverse_reverse,
        ih hlines]
      rfl

/-- The `rest` after the last complete line is read without a line feed, unless it is cut short
or nothing is left. -/
theorem readLines_rest {rest : List UInt8} (h : lineFeed ∉ rest) {fatal : Option DeviceFailure}
    (hfatal : ∀ e, fatal = some e → e.kind ≠ .interrupted) :
  readLines [] (rest.map .byte ++ fatal.toList.map .failure)
    = (if fatal = none ∧ rest ≠ [] then [decodeLine rest] else []) ++ fatal.toList.map .error
  := by
  rw [readLines_bytes h, List.append_nil]
  cases fatal with
  | none =>
      cases rest with
      | nil => rfl
      | cons b rest => simp [readLines]
  | some e => simp [readLines, hfatal e rfl]

/-! ### Contents of lines -/

/-- The byte that belongs to the end of a line if a line feed comes after it. -/
def carriageReturn : UInt8 :=
  13

/-- The contents of the complete `lines`, and the `rest` after them, which counts as a line at
the end of a source unless it is empty, but not where the source fails. -/
def contents (lines : List (List UInt8)) (rest : List UInt8) (fatal : Option DeviceFailure) :
    List (List UInt8) :=
  lines.map (withoutFinal carriageReturn) ++ if fatal = none ∧ rest ≠ [] then [rest] else []

/-- The text of `line` as it is shown. -/
def shown (line : String) : String :=
  String.ofList (Text.lineContent line.toList)

theorem utf8EncodeChar_feed :
  String.utf8EncodeChar '\n' = [lineFeed]
  := rfl

theorem utf8EncodeChar_return :
  String.utf8EncodeChar '\r' = [carriageReturn]
  := rfl

/-- The text `s` and a line feed are shown as the text without a carriage return at its end. -/
theorem utf8_encode_shown_append_feed (s : String) :
  utf8.encode (shown (s ++ String.singleton '\n')) = withoutFinal carriageReturn (utf8.encode s)
  := by
  rw [shown, String.toList_append, String.toList_singleton, Text.lineContent_append_feed,
    utf8_encode_withoutFinal utf8EncodeChar_return]

/-- A complete `line` is shown as its content, if that is text. -/
theorem map_shown_decodeLine_append_feed {line : List UInt8} :
  (decodeLine (line ++ [lineFeed])).map shown = decodeLine (withoutFinal carriageReturn line)
  := by
  cases hline : decodeLine (line ++ [lineFeed]) with
  | ok s =>
      obtain ⟨t, rfl, rfl⟩ := exists_append_singleton_of_encode utf8EncodeChar_feed
        ((decodeLine_eq_ok_iff _ s).mp hline)
      symm
      apply (decodeLine_eq_ok_iff _ _).mpr
      apply utf8_encode_shown_append_feed
  | error e =>
      obtain ⟨rfl, hnone⟩ := (decodeLine_eq_error_iff _ e).mp hline
      symm
      apply (decodeLine_eq_error_iff _ _).mpr
      refine ⟨rfl, ?_⟩
      intro s hs
      -- a text of the content would make the line a text
      obtain hsame | hreturn := eq_withoutFinal_or carriageReturn line
      · apply hnone (s ++ String.singleton '\n')
        rw [encode_append, utf8_encode_singleton, utf8EncodeChar_feed, hs, hsame]
      · apply hnone (s ++ String.singleton '\r' ++ String.singleton '\n')
        rw [encode_append, encode_append, utf8_encode_singleton, utf8_encode_singleton,
          utf8EncodeChar_feed, utf8EncodeChar_return, hs, ← hreturn]

/-- A line `rest` that no line feed ends is shown as it is, if it is text. -/
theorem map_shown_decodeLine {rest : List UInt8} (h : lineFeed ∉ rest) :
  (decodeLine rest).map shown = decodeLine rest
  := by
  cases hline : decodeLine rest with
  | ok s =>
      have hfeed : '\n' ∉ s.toList := by
        intro hmem
        apply h
        rw [← (decodeLine_eq_ok_iff _ s).mp hline]
        exact mem_utf8_encode_of_mem utf8EncodeChar_feed hmem
      rw [Except.map, shown, Text.lineContent_eq_self hfeed, String.ofList_toList]
  | error e => rfl

/-- The lines of a source are shown as the `contents` that are text. -/
theorem map_shown_lineOutcomes
    {source : List Delivery} {lines : List (List UInt8)} {rest : List UInt8}
    (h : IsDivided lineFeed (delivered source) lines rest) :
  (lineOutcomes (inOnePiece source)).map (Except.map shown)
    = (contents lines rest (fatal? source)).map decodeLine ++ (fatal? source).toList.map .error
  := by
  obtain ⟨hbytes, hlines, hrest⟩ := h
  have hfatal : ∀ e, fatal? source = some e → e.kind ≠ .interrupted :=
    fun _ => kind_ne_of_fatal?
  have hcomplete : (lines.map fun line => decodeLine (line ++ [lineFeed])).map (Except.map shown)
      = (lines.map (withoutFinal carriageReturn)).map decodeLine := by
    rw [List.map_map, List.map_map]
    apply List.map_congr_left
    intro line _
    apply map_shown_decodeLine_append_feed
  have hlast : (if fatal? source = none ∧ rest ≠ [] then [decodeLine rest] else []).map
        (Except.map shown)
      = (if fatal? source = none ∧ rest ≠ [] then [rest] else []).map decodeLine := by
    split
    · rw [List.map_singleton, List.map_singleton, map_shown_decodeLine hrest]
    · rfl
  have hfailure : ((fatal? source).toList.map Except.error).map (Except.map shown)
      = (fatal? source).toList.map .error := by
    rw [List.map_map]
    rfl
  rw [lineOutcomes, signals_inOnePiece, hbytes, List.map_append, List.append_assoc,
    readLines_lines hlines, readLines_rest hrest hfatal, List.map_append, List.map_append,
    hcomplete, hlast, hfailure, contents, List.map_append, List.append_assoc]

/-! ### What is read of the contents -/

/-- The contents of lines are read as the given texts up to a failure: that of the first content
that is not text, or else `fatal`, if there is one. -/
inductive ReadAs (fatal : Option DeviceFailure) :
    List (List UInt8) → List String → Option DeviceFailure → Prop where
  | ended : ReadAs fatal [] [] fatal
  | text (s : String) {contents : List (List UInt8)} {texts : List String}
    {failure : Option DeviceFailure} (h : ReadAs fatal contents texts failure) :
    ReadAs fatal (utf8.encode s :: contents) (s :: texts) failure
  | notText {content : List UInt8} {contents : List (List UInt8)}
    (h : ∀ s, utf8.encode s ≠ content) :
    ReadAs fatal (content :: contents) [] (some notText)

/-- If the failure `fatal` is not `interrupted`, the reading does not fail with one that is. -/
theorem ReadAs.kind_ne
    {fatal failure : Option DeviceFailure} {contents : List (List UInt8)} {texts : List String}
    (h : ReadAs fatal contents texts failure)
    (hfatal : ∀ e, fatal = some e → e.kind ≠ .interrupted) {e : DeviceFailure}
    (he : failure = some e) :
  e.kind ≠ .interrupted
  := by
  induction h with
  | ended => exact hfatal e he
  | text s h ih => exact ih he
  | notText h =>
      obtain rfl := Option.some.inj he
      intro hkind
      contradiction

/-- The lines that `collect` gives are the texts up to the failure, and its description. -/
theorem exists_readAs_of_collect
    {outcomes : List (Except DeviceFailure String)} {contents : List (List UInt8)}
    {fatal : Option DeviceFailure}
    (h : outcomes.map (Except.map shown)
      = contents.map decodeLine ++ fatal.toList.map .error) :
  ∃ texts failure, ReadAs fatal contents texts failure
    ∧ TraceLines.collect outcomes
      = ⟨texts ++ failure.toList.map DeviceFailure.message, [],
        failure.any DeviceFailure.isInterruption⟩
  := by
  -- the first content that is not text ends the reading, whatever comes after it
  induction contents generalizing outcomes with
  | nil =>
      refine ⟨[], fatal, .ended, ?_⟩
      cases fatal with
      | none =>
          obtain rfl := List.map_eq_nil_iff.mp h
          rfl
      | some e =>
          obtain ⟨outcome, rfl, houtcome⟩ := List.map_eq_singleton_iff.mp h
          cases outcome with
          | ok line => contradiction
          | error e' =>
              obtain rfl := Except.error.inj houtcome
              apply TraceLines.collect_error
  | cons content contents ih =>
      obtain ⟨outcome, outcomes, rfl, houtcome, hrest⟩ := List.map_eq_cons_iff.mp h
      cases outcome with
      | ok line =>
          obtain ⟨texts, failure, hread, hcollect⟩ := ih hrest
          obtain rfl := (decodeLine_eq_ok_iff content _).mp houtcome.symm
          refine ⟨_, failure, .text _ hread, ?_⟩
          rw [TraceLines.collect_ok, hcollect]
          rfl
      | error e =>
          obtain ⟨rfl, hnone⟩ := (decodeLine_eq_error_iff content e).mp houtcome.symm
          refine ⟨[], _, .notText hnone, ?_⟩
          apply TraceLines.collect_error

/-- The lines of `source` are those of its `delivered` bytes, and the same if these come
`inOnePiece`: the `contents` of the complete lines, of which a line feed and perhaps a carriage
return before it are left out, and at the end of the source what is left after them, each as the
text that it is.  They come up to the first failure, and then its description.  The interrupt
flag is raised if and only if that failure is `timedOut`. -/
theorem read_eq_texts_of_lines (source : List Delivery) :
  TraceLines.read source = TraceLines.read (inOnePiece source)
    ∧ ∃ lines rest texts failure,
      IsDivided lineFeed (delivered source) lines rest
        ∧ ReadAs (fatal? source) (contents lines rest (fatal? source)) texts failure
        ∧ (TraceLines.read source).value
          = ⟨texts ++ failure.toList.map DeviceFailure.message⟩
        ∧ (TraceLines.read source).diagnostics = []
        ∧ ∀ flag, (TraceLines.read source).flagAfter flag
          = if failure.map DeviceFailure.kind = some .timedOut then flag.raise else flag
  := by
  obtain ⟨lines, rest, hdivided⟩ := exists_isDivided lineFeed (delivered source)
  obtain ⟨texts, failure, hread, hcollect⟩ :=
    exists_readAs_of_collect (map_shown_lineOutcomes hdivided)
  have hsource : TraceLines.read source
      = ⟨⟨texts ++ failure.toList.map DeviceFailure.message⟩, [],
        failure.any DeviceFailure.isInterruption⟩ := by
    rw [read_inOnePiece, TraceLines.read, TraceLines.ofOutcomes, hcollect]
    apply Reported.ext
    · rfl
    · rfl
    · apply Bool.or_false
  refine ⟨read_inOnePiece source, lines, rest, texts, failure, hdivided, hread, ?_, ?_, ?_⟩
  · rw [hsource]
  · rw [hsource]
  · intro flag
    rw [hsource]
    cases failure with
    | none => rfl
    | some e =>
        have hkind : e.kind ≠ .interrupted :=
          hread.kind_ne (fun _ => kind_ne_of_fatal?) rfl
        simp [Reported.flagAfter, DeviceFailure.isInterruption, hkind]

-- the reading of the first line is interrupted between a carriage return and a line feed
example :
  (TraceLines.read [.bytes 97 [13], .failure ⟨.interrupted, .none⟩, .bytes 10 [98],
    .failure ⟨.timedOut, .none⟩]).value = ⟨["a", "timed out"]⟩
  := by
  cbv

end Trace

end LogRendering
