import LogRendering.Failure.Device
import LogRendering.Text.Line

/-!
# Sources of lines

A source delivers bytes in pieces of any size but zero, and now and then fails to deliver;
it ends where nothing more is delivered.  Its lines are read one at a time.  A reading that was interrupted is tried again; any other
failure loses the bytes of the line that it cuts short; and a line that is not valid
UTF-8 is a failure too.
-/

namespace LogRendering.Trace

/-- What a source does when it is asked for bytes: it delivers at least one, or it fails. -/
inductive Delivery where
  | bytes (first : UInt8) (more : List UInt8)
  | failure (e : DeviceFailure)

/-- The source that holds some bytes in memory, and delivers them in one piece of `bytes` if
there are any. -/
def inMemory : List UInt8 → List Delivery
  | [] => []
  | first :: more => [.bytes first more]

/-- What a source holds next: a `byte`, or a `failure`. -/
inductive Signal where
  | byte (b : UInt8)
  | failure (e : DeviceFailure)

/-- The signals of the deliveries, which do not depend on how the bytes are divided among
them. -/
def signals (source : List Delivery) : List Signal :=
  source.flatMap fun
    | .bytes first more => (first :: more).map .byte
    | .failure e => [.failure e]

theorem signals_inMemory (bytes : List UInt8) :
  signals (inMemory bytes) = bytes.map .byte
  := by
  cases bytes with
  | nil => rfl
  | cons first more => exact List.append_nil _

/-- The failure of a line whose bytes are not UTF-8, in `decodeLine`. -/
def notText : DeviceFailure :=
  ⟨.invalidData, .text "stream did not contain valid UTF-8"⟩

/-- The text of the `bytes` of a line. -/
def decodeLine (bytes : List UInt8) : Except DeviceFailure String :=
  match String.fromUTF8? ⟨bytes.toArray⟩ with
  | some s => .ok s
  | none => .error notText

/-- The byte that ends a line. -/
def lineFeed : UInt8 :=
  10

/-- The outcomes of reading line after line, each line with the line feed that ends it,
where `pending` holds the bytes already read of the first line, in reverse. -/
def readLines (pending : List UInt8) : List Signal → List (Except DeviceFailure String)
  | [] => if pending.isEmpty then [] else [decodeLine pending.reverse]
  | .byte b :: rest =>
    if b = lineFeed then decodeLine (b :: pending).reverse :: readLines [] rest
    else readLines (b :: pending) rest
  | .failure e :: rest =>
    if e.kind = .interrupted then readLines pending rest
    else .error e :: readLines [] rest

/-- The outcomes of reading a source line after line, by `readLines`. -/
def lineOutcomes (source : List Delivery) : List (Except DeviceFailure String) :=
  readLines [] (signals source)

end LogRendering.Trace
