import LogRendering.Diagnostic
import LogRendering.Interrupt

/-!
# Reported values

A reported value carries what its computation leaves behind in the thread that performs
it: the diagnostics, in the order in which they were made, and whether the interrupt flag
was raised.  Computations of this kind never clear the flag, so that the flag afterwards
is determined by the flag before and by what is reported.
-/

namespace LogRendering

/-- A value together with what its computation leaves behind: its `diagnostics`, and whether it
`interrupts` the thread. -/
@[ext]
structure Reported (α : Type) where
  value : α
  diagnostics : List Diagnostic
  interrupts : Bool

namespace Reported

/-- The computation of `value` that leaves nothing behind. -/
def pure {α : Type} (value : α) : Reported α :=
  ⟨value, [], false⟩

/-- The computation `f` continued from the value of `r`, after what `r` leaves behind. -/
def bind {α β : Type} (r : Reported α) (f : α → Reported β) : Reported β :=
  ⟨(f r.value).value, r.diagnostics ++ (f r.value).diagnostics,
    r.interrupts || (f r.value).interrupts⟩

instance : Monad Reported where
  pure := Reported.pure
  bind := Reported.bind

/-- The computation that leaves the diagnostic `d`. -/
def remark (d : Diagnostic) : Reported Unit :=
  ⟨(), [d], false⟩

/-- The computation that raises the interrupt flag. -/
def interrupt : Reported Unit :=
  ⟨(), [], true⟩

/-- The interrupt flag of the thread after the computation, where `flag` is the flag before. -/
def flagAfter {α : Type} (r : Reported α) (flag : InterruptFlag) : InterruptFlag :=
  if r.interrupts then flag.raise else flag

@[simp]
theorem value_pure {α : Type} (a : α) :
  (Pure.pure a : Reported α).value = a
  := rfl

@[simp]
theorem diagnostics_pure {α : Type} (a : α) :
  (Pure.pure a : Reported α).diagnostics = []
  := rfl

@[simp]
theorem interrupts_pure {α : Type} (a : α) :
  (Pure.pure a : Reported α).interrupts = false
  := rfl

@[simp]
theorem value_bind {α β : Type} (r : Reported α) (f : α → Reported β) :
  (r >>= f).value = (f r.value).value
  := rfl

@[simp]
theorem diagnostics_bind {α β : Type} (r : Reported α) (f : α → Reported β) :
  (r >>= f).diagnostics = r.diagnostics ++ (f r.value).diagnostics
  := rfl

@[simp]
theorem interrupts_bind {α β : Type} (r : Reported α) (f : α → Reported β) :
  (r >>= f).interrupts = (r.interrupts || (f r.value).interrupts)
  := rfl

/-- A computation that leaves nothing behind is `pure` of its value. -/
theorem eq_pure {α : Type} {r : Reported α} (hdiagnostics : r.diagnostics = [])
    (hinterrupts : r.interrupts = false) :
  r = Pure.pure r.value
  := Reported.ext rfl hdiagnostics hinterrupts

end Reported

end LogRendering
