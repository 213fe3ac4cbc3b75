/-!
# Interrupts

Each thread has a flag that says whether it has been interrupted.  The flag is cleared
when the thread starts, raised by an interruption, and cleared again by whoever takes it.
-/

namespace LogRendering

/-- The interrupt status of one thread: whether it is `raised`. -/
structure InterruptFlag where
  raised : Bool
deriving DecidableEq

namespace InterruptFlag

/-- The status of a thread that has just started. -/
def cleared : InterruptFlag :=
  ⟨false⟩

/-- The status after an interruption. -/
def raise (_ : InterruptFlag) : InterruptFlag :=
  ⟨true⟩

/-- Whether the flag was `raised`, and the flag after it has been `cleared`. -/
def take (flag : InterruptFlag) : Bool × InterruptFlag :=
  (flag.raised, cleared)

end InterruptFlag

end LogRendering
