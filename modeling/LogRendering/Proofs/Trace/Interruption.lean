import LogRendering.Trace.Lines
import Mathlib.Tactic.Use

/-!
# Interruptions of reading

The lines of a trace are read from a source until the source ends or a line fails.  The
failures that are met on the way are those to which the reading comes.  One that cut the
reading short for want of time ends it, and raises the interrupt flag of the thread.  One
that interrupted the reading does neither, for the reading is tried again; so an
interruption is lost unless the flag is raised for another reason.
-/

namespace LogRendering.Trace

/-! ### How far a source is read -/

/-- The reading of lines goes on after the deliveries `before`: what comes of it depends on what
follows. -/
def ReadsOn (before : List Delivery) : Prop :=
  ∃ after after', TraceLines.read (before ++ after) ≠ TraceLines.read (before ++ after')

/-- The reading of the lines of `source` comes to a delivery that fails with `e`. -/
def Meets (source : List Delivery) (e : DeviceFailure) : Prop :=
  ∃ before after, source = before ++ .failure e :: after ∧ ReadsOn before

/-- The bytes read of an unfinished line after some signals, where `pending` holds those read
before them, in reverse; `none` if the reading has ended. -/
def pendingAfter (pending : List UInt8) : List Signal → Option (List UInt8)
  | [] => some pending
  | .byte b :: rest =>
    if b = lineFeed then
      match decodeLine (b :: pending).reverse with
      | .ok _ => pendingAfter [] rest
      | .error _ => none
    else pendingAfter (b :: pending) rest
  | .failure e :: rest => if e.kind = .interrupted then pendingAfter pending rest else none

theorem signals_append (source source' : List Delivery) :
  signals (source ++ source') = signals source ++ signals source'
  := List.flatMap_append

/-- What is reported of the lines of the signals `rest`, where `pending` holds the bytes of the
first line that are read already, in reverse. -/
def linesFrom (pending : List UInt8) (rest : List Signal) : Reported (List String) :=
  TraceLines.collect (readLines pending rest)

theorem interrupts_read (source : List Delivery) :
  (TraceLines.read source).interrupts = (linesFrom [] (signals source)).interrupts
  := by
  show (_ || false) = _
  rw [Bool.or_false]
  rfl

/-- The failure of a line that is not text does not satisfy `isInterruption`. -/
theorem isInterruption_of_decodeLine {bytes : List UInt8} {e : DeviceFailure}
    (h : decodeLine bytes = .error e) :
  e.isInterruption = false
  := by
  unfold decodeLine at h
  split at h
  · contradiction
  · cases h
    rfl

/-! ### One signal -/

/-- The reading goes on after `signal`, which completes the `lines`, with the bytes `pending'` of
the next line. -/
structure StepsTo (pending : List UInt8) (signal : Signal)
    (pending' : List UInt8) (lines : List String) : Prop where
  pendingAfter_cons : ∀ rest,
    pendingAfter pending (signal :: rest) = pendingAfter pending' rest
  linesFrom_cons : ∀ rest, linesFrom pending (signal :: rest)
    = ⟨lines ++ (linesFrom pending' rest).value, (linesFrom pending' rest).diagnostics,
      (linesFrom pending' rest).interrupts⟩

/-- The reading ends at `signal` with the failure `e`: that of the source, or that of a line. -/
structure StopsAt (pending : List UInt8) (signal : Signal) (e : DeviceFailure) : Prop where
  pendingAfter_cons : ∀ rest, pendingAfter pending (signal :: rest) = none
  linesFrom_cons : ∀ rest,
    linesFrom pending (signal :: rest) = ⟨[e.message], [], e.isInterruption⟩
  signal_eq_or : signal = .failure e ∨ e.isInterruption = false

theorem stepsTo_or_stopsAt_lineFeed (pending : List UInt8) :
  (∃ lines, StepsTo pending (.byte lineFeed) [] lines)
    ∨ ∃ e, StopsAt pending (.byte lineFeed) e
  := by
  cases hline : decodeLine (lineFeed :: pending).reverse with
  | ok line =>
      left
      use [String.ofList (Text.lineContent line.toList)]
      constructor
      · intro rest
        simp only [pendingAfter, if_pos, hline]
      · intro rest
        rw [linesFrom, readLines, if_pos rfl, hline, TraceLines.collect_ok]
        rfl
  | error e =>
      right
      use e
      constructor
      · intro rest
        simp only [pendingAfter, if_pos, hline]
      · intro rest
        rw [linesFrom, readLines, if_pos rfl, hline, TraceLines.collect_error]
      · exact Or.inr (isInterruption_of_decodeLine hline)

/-- After every signal the reading goes on, or it ends there. -/
theorem stepsTo_or_stopsAt (pending : List UInt8) (signal : Signal) :
  (∃ pending' lines, StepsTo pending signal pending' lines) ∨ ∃ e, StopsAt pending signal e
  := by
  cases signal with
  | byte b =>
      by_cases hfeed : b = lineFeed
      · subst hfeed
        apply (stepsTo_or_stopsAt_lineFeed pending).imp_left
        exact fun ⟨lines, h⟩ => ⟨[], lines, h⟩
      · left
        use b :: pending, []
        constructor
        · intro rest
          rw [pendingAfter, if_neg hfeed]
        · intro rest
          rw [linesFrom, readLines, if_neg hfeed]
          rfl
  | failure e =>
      by_cases hkind : e.kind = .interrupted
      · left
        use pending, []
        constructor
        · intro rest
          rw [pendingAfter, if_pos hkind]
        · intro rest
          rw [linesFrom, readLines, if_pos hkind]
          rfl
      · right
        use e
        constructor
        · intro rest
          rw [pendingAfter, if_neg hkind]
        · intro rest
          rw [linesFrom, readLines, if_neg hkind, TraceLines.collect_error]
        · exact Or.inl rfl

/-! ### Several signals -/

theorem pendingAfter_append (pending : List UInt8) (before after : List Signal) :
  pendingAfter pending (before ++ after)
    = (pendingAfter pending before).bind (pendingAfter · after)
  := by
  induction before generalizing pending with
  | nil => rfl
  | cons signal before ih =>
      rw [List.cons_append]
      obtain ⟨pending', lines, hsteps⟩ | ⟨e, hstops⟩ := stepsTo_or_stopsAt pending signal
      · rw [hsteps.pendingAfter_cons, hsteps.pendingAfter_cons, ih]
      · rw [hstops.pendingAfter_cons, hstops.pendingAfter_cons]
        rfl

/-- The end of a source does not raise the flag. -/
theorem interrupts_linesFrom_nil (pending : List UInt8) :
  (linesFrom pending []).interrupts = false
  := by
  rw [linesFrom, readLines]
  split
  · rfl
  · cases hline : decodeLine pending.reverse with
    | ok line => rfl
    | error e => rw [TraceLines.collect_error, isInterruption_of_decodeLine hline]

/-- While the reading goes on, the flag is raised by `after`, what follows, only. -/
theorem interrupts_linesFrom_append
    {pending pending' : List UInt8} {before : List Signal}
    (h : pendingAfter pending before = some pending') (after : List Signal) :
  (linesFrom pending (before ++ after)).interrupts = (linesFrom pending' after).interrupts
  := by
  induction before generalizing pending with
  | nil =>
      obtain rfl := Option.some.inj h
      rfl
  | cons signal before ih =>
      rw [List.cons_append]
      obtain ⟨next, lines, hsteps⟩ | ⟨e, hstops⟩ := stepsTo_or_stopsAt pending signal
      · rw [hsteps.pendingAfter_cons] at h
        rw [hsteps.linesFrom_cons]
        apply ih h
      · rw [hstops.pendingAfter_cons] at h
        contradiction

/-- Once the reading has ended, what follows in `after` is not read. -/
theorem linesFrom_append_of_none
    {pending : List UInt8} {before : List Signal} (h : pendingAfter pending before = none)
    (after : List Signal) :
  linesFrom pending (before ++ after) = linesFrom pending before
  := by
  induction before generalizing pending with
  | nil => contradiction
  | cons signal before ih =>
      rw [List.cons_append]
      obtain ⟨next, lines, hsteps⟩ | ⟨e, hstops⟩ := stepsTo_or_stopsAt pending signal
      · rw [hsteps.pendingAfter_cons] at h
        rw [hsteps.linesFrom_cons, hsteps.linesFrom_cons, ih h]
      · rw [hstops.linesFrom_cons, hstops.linesFrom_cons]

/-- The failure of a reading that took too long. -/
def timeout : DeviceFailure :=
  ⟨.timedOut, .none⟩

/-- The reading goes on after the deliveries `before` if and only if they do not end it. -/
theorem readsOn_iff (before : List Delivery) :
  ReadsOn before ↔ (pendingAfter [] (signals before)).isSome
  := by
  cases hpending : pendingAfter [] (signals before) with
  | none =>
      have hsame : ∀ after, TraceLines.read (before ++ after) = TraceLines.read before := by
        intro after
        have hlines := linesFrom_append_of_none hpending (signals after)
        simp only [linesFrom] at hlines
        rw [TraceLines.read, TraceLines.read, lineOutcomes, lineOutcomes, signals_append,
          TraceLines.ofOutcomes, TraceLines.ofOutcomes, hlines]
      constructor
      · rintro ⟨after, after', hne⟩
        rw [hsame after, hsame after'] at hne
        exact absurd rfl hne
      · intro h
        contradiction
  | some pending =>
      refine ⟨fun _ => rfl, fun _ => ⟨[.failure timeout], [], fun heq => ?_⟩⟩
      have hinterrupts := congrArg Reported.interrupts heq
      rw [interrupts_read, interrupts_read, signals_append, signals_append,
        interrupts_linesFrom_append hpending, interrupts_linesFrom_append hpending] at hinterrupts
      rw [show signals [] = [] from rfl, interrupts_linesFrom_nil] at hinterrupts
      have htimeout : (linesFrom pending (signals [.failure timeout])).interrupts = true := rfl
      rw [htimeout] at hinterrupts
      contradiction

/-! ### What raises the flag -/

/-- The bytes `piece` do not raise the flag if the reading ends with them. -/
theorem interrupts_linesFrom_bytes
    {pending : List UInt8} {piece : List UInt8}
    (h : pendingAfter pending (piece.map .byte) = none) (after : List Signal) :
  (linesFrom pending (piece.map .byte ++ after)).interrupts = false
  := by
  induction piece generalizing pending with
  | nil => contradiction
  | cons b piece ih =>
      rw [List.map_cons] at h
      rw [List.map_cons, List.cons_append]
      obtain ⟨next, lines, hsteps⟩ | ⟨e, hstops⟩ := stepsTo_or_stopsAt pending (.byte b)
      · rw [hsteps.pendingAfter_cons] at h
        rw [hsteps.linesFrom_cons]
        apply ih h
      · rw [hstops.linesFrom_cons]
        obtain hbyte | hother := hstops.signal_eq_or
        · contradiction
        · exact hother

/-- The reading of the lines of `source` comes to a delivery that fails with `e`, where `pending`
holds the bytes of the first line that are read already, in reverse. -/
def MeetsFrom (pending : List UInt8) (source : List Delivery) (e : DeviceFailure) : Prop :=
  ∃ before after, source = before ++ .failure e :: after
    ∧ (pendingAfter pending (signals before)).isSome

theorem meets_iff (source : List Delivery) (e : DeviceFailure) :
  Meets source e ↔ MeetsFrom [] source e
  := by
  simp only [Meets, MeetsFrom, readsOn_iff]

/-- A failure is met in the first `delivery`, or further on if that does not end the reading. -/
theorem meetsFrom_cons_iff
    (pending : List UInt8) (delivery : Delivery) (source : List Delivery) (e : DeviceFailure) :
  MeetsFrom pending (delivery :: source) e
    ↔ delivery = .failure e ∨ ∃ pending', pendingAfter pending (signals [delivery]) = some pending'
      ∧ MeetsFrom pending' source e
  := by
  have hsplit : ∀ rest, pendingAfter pending (signals (delivery :: rest))
      = (pendingAfter pending (signals [delivery])).bind (pendingAfter · (signals rest)) := by
    intro rest
    rw [← pendingAfter_append, ← signals_append]
    rfl
  constructor
  · rintro ⟨before, after, heq, hsome⟩
    cases before with
    | nil => exact Or.inl (List.cons.inj heq).1
    | cons first before =>
        obtain ⟨rfl, hsource⟩ := List.cons.inj heq
        rw [hsplit] at hsome
        obtain ⟨last, hlast⟩ := Option.isSome_iff_exists.mp hsome
        obtain ⟨pending', hfirst, hrest⟩ := Option.bind_eq_some_iff.mp hlast
        refine Or.inr ⟨pending', hfirst, before, after, hsource, ?_⟩
        rw [hrest]
        rfl
  · rintro (rfl | ⟨pending', hfirst, before, after, hsource, hsome⟩)
    · exact ⟨[], source, rfl, rfl⟩
    · refine ⟨delivery :: before, after, congrArg (delivery :: ·) hsource, ?_⟩
      rw [hsplit, hfirst]
      apply hsome

theorem not_meetsFrom_nil (pending : List UInt8) (e : DeviceFailure) :
  ¬ MeetsFrom pending [] e
  := by
  rintro ⟨before, after, heq, -⟩
  cases before with
  | nil => contradiction
  | cons first before => contradiction

/-- If the reading ends with `delivery`, the flag is raised if and only if that is `timedOut`. -/
theorem interrupts_linesFrom_of_none {pending : List UInt8} {delivery : Delivery}
    (h : pendingAfter pending (signals [delivery]) = none) (after : List Signal) :
  (linesFrom pending (signals [delivery] ++ after)).interrupts = true
    ↔ ∃ e, delivery = .failure e ∧ e.kind = .timedOut
  := by
  cases delivery with
  | bytes first more =>
      have hsignals : signals [.bytes first more] = (first :: more).map .byte :=
        signals_inMemory (first :: more)
      rw [hsignals] at h ⊢
      rw [interrupts_linesFrom_bytes h]
      simp
  | failure e =>
      have hkind : e.kind ≠ .interrupted := by
        intro hkind
        simp [signals, pendingAfter, hkind] at h
      show (linesFrom pending (.failure e :: after)).interrupts = true ↔ _
      rw [linesFrom, readLines, if_neg hkind, TraceLines.collect_error]
      simp [DeviceFailure.isInterruption, hkind]

/-- The flag is raised if and only if the reading comes to a delivery that is `timedOut`. -/
theorem interrupts_linesFrom_iff (pending : List UInt8) (source : List Delivery) :
  (linesFrom pending (signals source)).interrupts = true
    ↔ ∃ e, MeetsFrom pending source e ∧ e.kind = .timedOut
  := by
  induction source generalizing pending with
  | nil =>
      show (linesFrom pending []).interrupts = true ↔ _
      rw [interrupts_linesFrom_nil]
      refine iff_of_false Bool.false_ne_true ?_
      rintro ⟨e, hmeets, -⟩
      apply not_meetsFrom_nil pending e hmeets
  | cons delivery source ih =>
      show (linesFrom pending (signals ([delivery] ++ source))).interrupts = true ↔ _
      rw [signals_append]
      simp only [meetsFrom_cons_iff]
      cases hfirst : pendingAfter pending (signals [delivery]) with
      | some pending' =>
          rw [interrupts_linesFrom_append hfirst, ih]
          -- a delivery after which the reading goes on is not `timedOut`
          have hgone : ∀ e, delivery = .failure e → e.kind ≠ .timedOut := by
            rintro e rfl htime
            simp [signals, pendingAfter, htime] at hfirst
          constructor
          · rintro ⟨e, hmeets, htime⟩
            exact ⟨e, Or.inr ⟨pending', rfl, hmeets⟩, htime⟩
          · rintro ⟨e, hfailure | ⟨last, hlast, hmeets⟩, htime⟩
            · exact absurd htime (hgone e hfailure)
            · obtain rfl := Option.some.inj hlast
              exact ⟨e, hmeets, htime⟩
      | none =>
          rw [interrupts_linesFrom_of_none hfirst]
          simp only [reduceCtorEq, false_and, exists_false, or_false]

theorem raised_flagAfter {α : Type} (r : Reported α) (flag : InterruptFlag) :
  (r.flagAfter flag).raised = true ↔ flag.raised = true ∨ r.interrupts = true
  := by
  unfold Reported.flagAfter
  cases r.interrupts with
  | true => simp [InterruptFlag.raise]
  | false => simp

/-- The interrupt flag is raised after the reading of lines if and only if it was raised before,
or the reading `Meets` a failure that is `timedOut`. -/
theorem raised_after_read_iff (source : List Delivery) (flag : InterruptFlag) :
  ((TraceLines.read source).flagAfter flag).raised = true
    ↔ flag.raised = true ∨ ∃ e, Meets source e ∧ e.kind = .timedOut
  := by
  rw [raised_flagAfter, interrupts_read, interrupts_linesFrom_iff]
  simp only [meets_iff]

/-- The interrupt flag is raised after the reading of lines if and only if it was raised before,
or the reading `Meets` a failure that is `timedOut`.  So it tells of every interruption that the
reading meets if and only if none of them is `interrupted`, the kind that is tried again, unless
the flag is raised anyway. -/
theorem interruptions_told_iff (source : List Delivery) (flag : InterruptFlag) :
  (((TraceLines.read source).flagAfter flag).raised = true
      ↔ flag.raised = true ∨ ∃ e, Meets source e ∧ e.kind = .timedOut)
    ∧ ((∀ e, Meets source e → e.isInterruption →
          ((TraceLines.read source).flagAfter flag).raised = true)
        ↔ (flag.raised = true ∨ ∃ e, Meets source e ∧ e.kind = .timedOut)
          ∨ ∀ e, Meets source e → e.kind ≠ .interrupted)
  := by
  have hraised := raised_after_read_iff source flag
  refine ⟨hraised, ?_⟩
  rw [← hraised]
  constructor
  · intro htold
    by_cases hflag : ((TraceLines.read source).flagAfter flag).raised = true
    · exact Or.inl hflag
    · right
      intro e hmeets hkind
      apply hflag
      apply htold e hmeets
      simp [DeviceFailure.isInterruption, hkind]
  · rintro (hflag | hnever) e hmeets hinterruption
    · exact hflag
    · apply hraised.mpr
      have hkind := hnever e hmeets
      simp only [DeviceFailure.isInterruption, Bool.or_eq_true, decide_eq_true_eq] at hinterruption
      exact Or.inr ⟨e, hmeets, hinterruption.resolve_left hkind⟩

/-- A source that fails once, as `interrupted`. -/
def interruptedSource : List Delivery :=
  [.failure ⟨.interrupted, .none⟩]

/-- The interruption of `interruptedSource` is lost. -/
theorem interruption_lost_interruptedSource :
  ∃ e, Meets interruptedSource e ∧ e.isInterruption
    ∧ ((TraceLines.read interruptedSource).flagAfter .cleared).raised = false
  := by
  use ⟨.interrupted, .none⟩
  refine ⟨?_, rfl, rfl⟩
  rw [meets_iff]
  exact ⟨[], [], rfl, rfl⟩

end LogRendering.Trace
