import LogRendering.Failure.Device

/-!
# Outputs

An output accepts bytes.  It may be interrupted a number of times first, it may accept a
part only of what it is given, and it may have room for a number of bytes only; when that
is used up, every further writing fails, or accepts nothing.  `Output.writeAll` repeats
interrupted writings and continues after partial ones.
-/

namespace LogRendering

/-- A destination of bytes. -/
structure Output where
  /-- The bytes accepted so far. -/
  accepted : List UInt8
  /-- The number of writings that are still going to be interrupted. -/
  interrupts : Nat
  /-- How many bytes a writing accepts at most after the first one, by the number of bytes
  `accepted` before it; a writing without such a portion is not cut.  Every writing that is
  accepted moves on, so any sequence of partial writings is of this form. -/
  portions : List Nat
  /-- The number of bytes that can still be accepted, if there is a limit. -/
  room : Option Nat
  /-- The failure of a writing for which there is no room; without one such a writing
  accepts nothing. -/
  refusal : Option DeviceFailure

namespace Output

/-- An output that accepts everything. -/
def unlimited : Output :=
  ⟨[], 0, [], none, none⟩

/-- The failure of a writing that was interrupted, which `writeAll` tries again. -/
def interruption : DeviceFailure :=
  ⟨.interrupted, .none⟩

/-- The failure of `writeAll` at an output that accepts nothing. -/
def nothingAccepted : DeviceFailure :=
  ⟨.writeZero, .text "failed to write whole buffer"⟩

/-- The number of bytes out of `size` that the next writing does not cut off. -/
def portion (output : Output) (size : Nat) : Nat :=
  match output.portions[output.accepted.length]? with
  | none => size
  | some more => min (more + 1) size

/-- The output after the first `count` of `bytes` have been accepted. -/
def accept (output : Output) (bytes : List UInt8) (count : Nat) : Output :=
  { output with
    accepted := output.accepted ++ bytes.take count
    room := output.room.map (· - count) }

/-- One writing of `bytes`: the number of bytes accepted, or a failure.  It accepts no more than
the `portion` and the `room` allow. -/
def write (output : Output) (bytes : List UInt8) : Except DeviceFailure Nat × Output :=
  match output.interrupts with
  | interrupts + 1 => (.error interruption, { output with interrupts := interrupts })
  | 0 =>
    let count := min (output.room.getD bytes.length) (output.portion bytes.length)
    if count = 0 ∧ bytes ≠ [] then
      match output.refusal with
      | some failure => (.error failure, output)
      | none => (.ok 0, output)
    else (.ok count, output.accept bytes count)

/-- Writes all of `bytes`, in at most `fuel` writings. -/
def writeAllWithin : Nat → Output → List UInt8 → Except DeviceFailure Unit × Output
  | 0, output, _ => (.error nothingAccepted, output)
  | fuel + 1, output, bytes =>
    if bytes.isEmpty then (.ok (), output)
    else
      match output.write bytes with
      | (.ok 0, output) => (.error nothingAccepted, output)
      | (.ok count, output) => writeAllWithin fuel output (bytes.drop count)
      | (.error failure, output) =>
        if failure.kind = .interrupted then writeAllWithin fuel output bytes
        else (.error failure, output)

/-- Writes all of `bytes`.  Every writing uses up one of the `interrupts` or a byte, or is
the last one. -/
def writeAll (output : Output) (bytes : List UInt8) : Except DeviceFailure Unit × Output :=
  writeAllWithin (output.interrupts + bytes.length + 1) output bytes

end Output

end LogRendering
