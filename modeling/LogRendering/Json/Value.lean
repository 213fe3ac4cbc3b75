import LogRendering.Number.Binary64
import LogRendering.SortedMap

/-!
# JSON values

A JSON number is a natural number of 64 bits, a negative integer of 64 bits, or a finite
number in double precision.  The members of an object are a list; a value is well formed
if the keys of every object in it are strictly increasing, and such values are all that
reading and conversion produce.
-/

namespace LogRendering.Json

/-- A number of a JSON value.  The proofs it carries make the three kinds disjoint, and leave out
infinities and `NaN`. -/
inductive Number where
  | natural (n : UInt64)
  | negative (n : Int64) (isNegative : n < 0)
  | double (x : Binary64) (isFinite : x.IsFinite)
deriving DecidableEq

namespace Number

/-- The number that is a given integer of 64 bits, `natural` unless it is below zero. -/
def ofInt64 (n : Int64) : Number :=
  if h : n < 0 then negative n h else natural n.toUInt64

/-- The number `double` that is a given finite one; there is none for the others. -/
def ofBinary64? (x : Binary64) : Option Number :=
  if h : x.IsFinite then some (double x h) else none

/-- The number as an integer of 64 bits, if it is not `double` and fits. -/
def toInt64? : Number → Option Int64
  | natural n => if n.toNat < Nat.pow 2 63 then some n.toInt64 else none
  | negative n _ => some n
  | double _ _ => none

/-- The number in double precision, or the nearest one if it is not `double`. -/
def toBinary64? : Number → Option Binary64
  | natural n => some (Binary64.ofUInt64 n)
  | negative n _ =>
    some (Binary64.ofMagnitude true (Binary64.roundRatio n.toInt.natAbs 1))
  | double x _ => some x

end Number

/-- A JSON value.  The members of an `object` keep their order. -/
inductive Value where
  | null
  | bool (b : Bool)
  | number (n : Number)
  | text (s : String)
  | array (items : List Value)
  | object (members : List (String × Value))

namespace Value

instance : Inhabited Value := ⟨null⟩

/-- The `object` with all members of a list, where a later member replaces an earlier one of the
same key. -/
def ofMembers (members : List (String × Value)) : Value :=
  object (SortedMap.ofList members).entries

/-- The keys of the `object` itself, and of every `object` inside the value, are strictly
increasing. -/
inductive WellFormed : Value → Prop where
  | null : WellFormed null
  | bool (b : Bool) : WellFormed (bool b)
  | number (n : Number) : WellFormed (number n)
  | text (s : String) : WellFormed (text s)
  | array {items : List Value} (each : ∀ item ∈ items, WellFormed item) :
    WellFormed (array items)
  | object {members : List (String × Value)} (increasing : KeysIncrease members)
    (each : ∀ member ∈ members, WellFormed member.2) : WellFormed (object members)

end Value

end LogRendering.Json
