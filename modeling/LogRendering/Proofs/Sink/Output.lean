import LogRendering.Proofs.Charset.Decoding
import LogRendering.Sink.Writer

/-!
# Writing all of some bytes

What comes of `Output.writeAll` depends on the room of the output alone.  Interruptions and
partial writings on the way do not show in `Output.outcome` and `Output.filled`, and neither
does the division of the bytes: by `writeAll_append` and `writePieces_eq`, bytes that are
written one after the other are written as bytes that are written together.
-/

namespace LogRendering.Output

/-- The failure in which `writeAll` ends if there is no room left.  An output that only ever
reports interruptions accepts nothing. -/
def fault (output : Output) : DeviceFailure :=
  match output.refusal with
  | none => nothingAccepted
  | some failure => if failure.kind = .interrupted then nothingAccepted else failure

/-- How `writeAll` ends: it succeeds if there is room for all of `bytes`, and in `fault` if
there is not. -/
def outcome (output : Output) (bytes : List UInt8) : Except DeviceFailure Unit :=
  if bytes.length ≤ output.room.getD bytes.length then .ok () else .error output.fault

/-- The output that `writeAll` leaves behind: those of `bytes` are accepted for which there is
room. -/
def filled (output : Output) (bytes : List UInt8) : Output :=
  { output with
    accepted := output.accepted ++ bytes.take (output.room.getD bytes.length)
    interrupts := if bytes = [] then output.interrupts else 0
    room := output.room.map (· - bytes.length) }

/-! ### One writing -/

theorem portion_ne_zero (output : Output) {size : Nat} (h : size ≠ 0) :
  output.portion size ≠ 0
  := by
  unfold portion
  split
  · exact h
  · omega

theorem portion_le (output : Output) (size : Nat) :
  output.portion size ≤ size
  := by
  unfold portion
  split
  · apply Nat.le_refl
  · apply Nat.min_le_right

/-- What comes of one writing of `bytes`: one of the `interrupts`, a refusal for want of room, or
the acceptance of `count` bytes. -/
inductive WritesOnce (output : Output) (bytes : List UInt8) :
    Except DeviceFailure Nat × Output → Prop where
  | interrupted {interrupts : Nat} (h : output.interrupts = interrupts + 1) :
    WritesOnce output bytes (.error interruption, { output with interrupts })
  | refused {failure : DeviceFailure} (hinterrupts : output.interrupts = 0)
    (hroom : output.room = some 0) (hrefusal : output.refusal = some failure) :
    WritesOnce output bytes (.error failure, output)
  | ignored (hinterrupts : output.interrupts = 0) (hroom : output.room = some 0)
    (hrefusal : output.refusal = none) :
    WritesOnce output bytes (.ok 0, output)
  | accepted {count : Nat} (hinterrupts : output.interrupts = 0)
    (hroom : count + 1 ≤ output.room.getD bytes.length) (hcount : count + 1 ≤ bytes.length) :
    WritesOnce output bytes (.ok (count + 1), output.accept bytes (count + 1))

/-- One writing by `write` does one of the things of `WritesOnce`. -/
theorem writesOnce (output : Output) {bytes : List UInt8} (hbytes : bytes ≠ []) :
  WritesOnce output bytes (output.write bytes)
  := by
  have hlength : bytes.length ≠ 0 := hbytes ∘ List.length_eq_zero_iff.mp
  have hportion := output.portion_ne_zero hlength
  have hle := output.portion_le bytes.length
  unfold write
  split
  next interrupts h => exact .interrupted h
  next hinterrupts =>
    dsimp only
    split
    next hnone =>
      have hroom : output.room = some 0 := by
        cases hroom : output.room with
        | none =>
            rw [hroom, Option.getD_none] at hnone
            omega
        | some room =>
            rw [hroom, Option.getD_some] at hnone
            congr 1
            omega
      split
      next failure hrefusal => exact .refused hinterrupts hroom hrefusal
      next hrefusal => exact .ignored hinterrupts hroom hrefusal
    next hsome =>
      obtain ⟨count, hcount⟩ := Nat.exists_eq_succ_of_ne_zero fun hzero => hsome ⟨hzero, hbytes⟩
      rw [hcount]
      exact .accepted hinterrupts (by omega) (by omega)

/-! ### Room for some bytes -/

/-- There is room for all of `bytes`. -/
def Fits (output : Output) (bytes : List UInt8) : Prop :=
  bytes.length ≤ output.room.getD bytes.length

theorem outcome_of_fits {output : Output} {bytes : List UInt8} (h : output.Fits bytes) :
  output.outcome bytes = .ok ()
  := if_pos h

theorem outcome_of_not_fits {output : Output} {bytes : List UInt8} (h : ¬ output.Fits bytes) :
  output.outcome bytes = .error output.fault
  := if_neg h

theorem Fits.of_append {output : Output} {bytes more : List UInt8}
    (h : output.Fits (bytes ++ more)) :
  output.Fits bytes
  := by
  unfold Fits at *
  cases hlimit : output.room with
  | none => exact Nat.le_refl _
  | some room =>
      rw [hlimit, Option.getD_some, List.length_append] at h
      exact Nat.le_trans (Nat.le_add_right _ _) h

theorem filled_nil (output : Output) :
  output.filled [] = output
  := by
  obtain ⟨accepted, interrupts, portions, room, refusal⟩ := output
  simp [filled]

/-- An output has room for `bytes ++ more` if it has room for `more` after `bytes`. -/
theorem fits_filled_iff {output : Output} {bytes : List UInt8} (h : output.Fits bytes)
    (more : List UInt8) :
  (output.filled bytes).Fits more ↔ output.Fits (bytes ++ more)
  := by
  unfold Fits at *
  cases hlimit : output.room with
  | none => simp [filled, hlimit]
  | some room =>
      simp only [filled, hlimit, Option.map_some, Option.getD_some, List.length_append] at h ⊢
      omega

theorem outcome_filled {output : Output} {bytes : List UInt8} (h : output.Fits bytes)
    (more : List UInt8) :
  (output.filled bytes).outcome more = output.outcome (bytes ++ more)
  := by
  by_cases hmore : (output.filled bytes).Fits more
  · rw [outcome_of_fits hmore, outcome_of_fits ((fits_filled_iff h more).mp hmore)]
  · rw [outcome_of_not_fits hmore, outcome_of_not_fits (hmore ∘ (fits_filled_iff h more).mpr)]
    rfl

theorem filled_filled {output : Output} {bytes : List UInt8} (h : output.Fits bytes)
    (more : List UInt8) :
  (output.filled bytes).filled more = output.filled (bytes ++ more)
  := by
  have hinterrupts : (if more = [] then if bytes = [] then output.interrupts else 0 else 0)
      = if bytes ++ more = [] then output.interrupts else 0 := by
    cases bytes with
    | nil => rfl
    | cons byte bytes => simp
  unfold Fits at h
  cases hlimit : output.room with
  | none =>
      have hall : (bytes ++ more).take (bytes.length + more.length) = bytes ++ more :=
        List.take_of_length_le (Nat.le_of_eq List.length_append)
      simp [filled, hlimit, hinterrupts, hall]
  | some room =>
      rw [hlimit, Option.getD_some] at h
      simp [filled, hlimit, hinterrupts, List.take_append, List.take_of_length_le h, Nat.sub_sub]

/-- Where there is no room for `bytes`, nothing of what follows them is accepted. -/
theorem filled_of_not_fits {output : Output} {bytes : List UInt8} (h : ¬ output.Fits bytes)
    (more : List UInt8) :
  output.filled (bytes ++ more) = output.filled bytes
  := by
  unfold Fits at h
  cases hlimit : output.room with
  | none =>
      rw [hlimit] at h
      exact absurd (Nat.le_refl _) h
  | some room =>
      rw [hlimit, Option.getD_some, Nat.not_le] at h
      have hbytes : bytes ≠ [] := by
        rintro rfl
        contradiction
      have hrest : room - (bytes.length + more.length) = room - bytes.length := by omega
      simp [filled, hlimit, hbytes, hrest, List.take_append,
        Nat.sub_eq_zero_of_le (Nat.le_of_lt h)]

/-- Where there is no room, nothing is accepted. -/
theorem filled_of_full
    {output : Output} (hinterrupts : output.interrupts = 0) (hroom : output.room = some 0)
    (bytes : List UInt8) :
  output.filled bytes = output
  := by
  obtain ⟨accepted, interrupts, portions, room, refusal⟩ := output
  obtain rfl : interrupts = 0 := hinterrupts
  obtain rfl : room = some 0 := hroom
  simp [filled]

/-- Accepting `count` bytes, for which there is room, is filling the output with these. -/
theorem accept_eq_filled
    {output : Output} {bytes : List UInt8} {count : Nat} (hinterrupts : output.interrupts = 0)
    (hroom : count ≤ output.room.getD bytes.length) (hcount : count ≤ bytes.length) :
  output.Fits (bytes.take count) ∧ output.accept bytes count = output.filled (bytes.take count)
  := by
  have hlength : (bytes.take count).length = count := List.length_take_of_le hcount
  cases hlimit : output.room with
  | none =>
      have hall : (bytes.take count).take (min count bytes.length) = bytes.take count :=
        List.take_of_length_le (Nat.le_of_eq List.length_take)
      simp [Fits, accept, filled, hlimit, hinterrupts, hall]
  | some room =>
      rw [hlimit, Option.getD_some] at hroom
      have hall : (bytes.take count).take room = bytes.take count :=
        List.take_of_length_le (by omega)
      simp [Fits, accept, filled, hlimit, hinterrupts, hlength, hroom, hall]

/-! ### Writing all -/

/-- Where there is no room, an attempt comes to the refusal of the output. -/
theorem writeAllWithin_succ_of_full
    {output : Output} (hinterrupts : output.interrupts = 0) (hroom : output.room = some 0)
    {bytes : List UInt8} (hbytes : bytes ≠ []) (fuel : Nat) :
  writeAllWithin (fuel + 1) output bytes
    = match output.refusal with
      | none => (.error nothingAccepted, output)
      | some failure =>
        if failure.kind = .interrupted then writeAllWithin fuel output bytes
        else (.error failure, output)
  := by
  have hempty : bytes.isEmpty ≠ true := hbytes ∘ List.isEmpty_iff.mp
  have hwrite := output.writesOnce hbytes
  rw [writeAllWithin, if_neg hempty]
  generalize output.write bytes = result at hwrite
  cases hwrite with
  | interrupted h =>
      rw [hinterrupts] at h
      contradiction
  | refused _ _ hrefusal => rw [hrefusal]
  | ignored _ _ hrefusal =>
      rw [hrefusal]
      rfl
  | accepted _ hspace _ =>
      rw [hroom] at hspace
      contradiction

/-- Where there is no room, `writeAll` ends in `fault` after any number of attempts. -/
theorem writeAllWithin_of_full
    {output : Output} (hinterrupts : output.interrupts = 0) (hroom : output.room = some 0)
    {bytes : List UInt8} (hbytes : bytes ≠ []) (fuel : Nat) :
  writeAllWithin (fuel + 1) output bytes = (.error output.fault, output)
  := by
  have hstep := writeAllWithin_succ_of_full hinterrupts hroom hbytes
  cases hrefusal : output.refusal with
  | none => simp [hstep, fault, hrefusal]
  | some failure =>
      by_cases hkind : failure.kind = .interrupted
      · induction fuel with
        | zero =>
            rw [hstep, hrefusal]
            simp [fault, hrefusal, hkind, writeAllWithin]
        | succ fuel ih => simpa [hstep (fuel + 1), hrefusal, hkind] using ih
      · simp [hstep, fault, hrefusal, hkind]

/-- With fuel for each of the `interrupts` and each byte, `writeAllWithin` ends in `outcome` and
leaves `filled` behind. -/
theorem writeAllWithin_eq
    {output : Output} {bytes : List UInt8} {fuel : Nat}
    (hfuel : output.interrupts + bytes.length < fuel) :
  writeAllWithin fuel output bytes = (output.outcome bytes, output.filled bytes)
  := by
  -- every writing uses up an interruption or a byte, so that there is always fuel left
  induction fuel generalizing output bytes with
  | zero => contradiction
  | succ fuel ih =>
      by_cases hbytes : bytes = []
      · subst hbytes
        rw [filled_nil]
        rfl
      by_cases hfull : output.interrupts = 0 ∧ output.room = some 0
      · obtain ⟨hinterrupts, hroom⟩ := hfull
        have hfits : ¬ output.Fits bytes := by simpa [Fits, hroom] using hbytes
        rw [writeAllWithin_of_full hinterrupts hroom hbytes, outcome_of_not_fits hfits,
          filled_of_full hinterrupts hroom]
      have hempty : bytes.isEmpty ≠ true := hbytes ∘ List.isEmpty_iff.mp
      have hwrite := output.writesOnce hbytes
      rw [writeAllWithin, if_neg hempty]
      generalize output.write bytes = result at hwrite
      cases hwrite with
      | @interrupted interrupts h =>
          have hall := @ih { output with interrupts } bytes (by simp only; omega)
          simp only [interruption, if_true, hall]
          simp [outcome, filled, fault, hbytes]
      | refused hinterrupts hroom _ => exact absurd ⟨hinterrupts, hroom⟩ hfull
      | ignored hinterrupts hroom _ => exact absurd ⟨hinterrupts, hroom⟩ hfull
      | @accepted count hinterrupts hroom hcount =>
          obtain ⟨hfits, haccept⟩ := accept_eq_filled hinterrupts hroom hcount
          have hdrop : (bytes.drop (count + 1)).length = bytes.length - (count + 1) :=
            List.length_drop
          have hall := @ih (output.accept bytes (count + 1)) (bytes.drop (count + 1))
            (by show output.interrupts + _ < fuel; omega)
          rw [haccept, outcome_filled hfits, filled_filled hfits, List.take_append_drop,
            ← haccept] at hall
          exact hall

/-- Writing all of `bytes` ends in `outcome` and leaves `filled` behind. -/
theorem writeAll_eq (output : Output) (bytes : List UInt8) :
  output.writeAll bytes = (output.outcome bytes, output.filled bytes)
  := writeAllWithin_eq (Nat.lt_succ_self _)

/-- Writing `more` after `bytes`, if these were written, is writing the two together. -/
theorem writeAll_append (output : Output) (bytes more : List UInt8) :
  output.writeAll (bytes ++ more)
    = match output.writeAll bytes with
      | (.ok (), output) => output.writeAll more
      | (.error failure, output) => (.error failure, output)
  := by
  rw [writeAll_eq, writeAll_eq output bytes]
  by_cases hfits : output.Fits bytes
  · rw [outcome_of_fits hfits, ← filled_filled hfits, ← outcome_filled hfits]
    exact (writeAll_eq _ _).symm
  · have hboth : ¬ output.Fits (bytes ++ more) := hfits ∘ Fits.of_append
    rw [outcome_of_not_fits hfits, outcome_of_not_fits hboth, filled_of_not_fits hfits]

/-- The pieces of a text are written as the text, and a failure of the output is one of the
device. -/
theorem writePieces_eq (output : Output) (pieces : List String) :
  output.writePieces pieces
    = ((output.writeAll (Charset.utf8.encode (String.join pieces))).1.mapError .device,
        (output.writeAll (Charset.utf8.encode (String.join pieces))).2)
  := by
  induction pieces generalizing output with
  | nil => rfl
  | cons piece pieces ih =>
      rw [writePieces, String.join_cons, Charset.encode_append, writeAll_append]
      cases output.writeAll (Charset.utf8.encode piece) with
      | mk outcome output =>
          cases outcome with
          | ok _ => exact ih output
          | error failure => rfl

end LogRendering.Output
