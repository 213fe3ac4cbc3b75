import LogRendering.Json.Numeral
import LogRendering.Json.Text

/-!
# Reading JSON

The value that a JSON text denotes.  Arrays and objects may be nested up to a given
depth; of the members of an object with the same key the last one counts.  A value may
also be passed over, and then its nesting is not limited.
-/

namespace LogRendering.Json.Reader

/-- The depth to which arrays and objects may be nested. -/
def depthLimit : Nat :=
  127

/-- Moves over the bracket that opens an array or object, which needs one level of nesting; the
number of levels that are left of `depth`. -/
def enter (depth : Nat) : Reader Nat :=
  match depth with
  | 0 => failAhead .nestedTooDeeply
  | depth + 1 => do
    skip
    return depth

/-- Where the reading of a list of parts stands: at a `part`, or, when it is `done`, past the
closing bracket. -/
inductive Progress where
  | part
  | done

/-- Moves to the next item of an array, over the comma before it unless it is the `first`, or
over the closing bracket. -/
def nextItem (first : Bool) : Reader Progress := do
  match ← peekPastBlanks with
  | none => failAhead .endInList
  | some ']' => do
    skip
    return .done
  | some c =>
    if first then return .part
    else if c = ',' then do
      skip
      match ← peekPastBlanks with
      | some ']' => failAhead .trailingComma
      | none => failAhead .endInValue
      | some _ => return .part
    else failAhead .expectedCommaOrListEnd

/-- Moves to the next key of an object, over the comma before it unless it is the `first` and
over its opening quote, or over the closing bracket. -/
def nextKey (first : Bool) : Reader Progress := do
  match ← peekPastBlanks with
  | none => failAhead .endInObject
  | some '}' => do
    skip
    return .done
  | some c =>
    if first then
      if c = '"' then do
        skip
        return .part
      else failAhead .keyNotText
    else if c = ',' then do
      skip
      match ← peekPastBlanks with
      | some '"' => do
        skip
        return .part
      | some '}' => failAhead .trailingComma
      | none => failAhead .endInValue
      | some _ => failAhead .keyNotText
    else failAhead .expectedCommaOrObjectEnd

/-- Moves over the colon after a key. -/
def colon : Reader Unit := do
  match ← peekPastBlanks with
  | some ':' => skip
  | some _ => failAhead .expectedColon
  | none => failAhead .endInObject

mutual

/-- The value at the cursor, in which arrays and objects may be nested `depth` levels.  The fuel
bounds the steps; `value` gives enough. -/
def valueWithin : Nat → Nat → Reader Value
  | 0, _ => fail .endInValue
  | fuel + 1, depth => do
    match ← peekPastBlanks with
    | none => failAhead .endInValue
    | some 'n' => do
      skip
      literal ['u', 'l', 'l']
      return .null
    | some 't' => do
      skip
      literal ['r', 'u', 'e']
      return .bool true
    | some 'f' => do
      skip
      literal ['a', 'l', 's', 'e']
      return .bool false
    | some '-' => do
      skip
      return .number (← number true)
    | some '"' => do
      skip
      return .text (← text)
    | some '[' => do
      let depth ← enter depth
      return .array (← items fuel depth true)
    | some '{' => do
      let depth ← enter depth
      return .ofMembers (← members fuel depth true)
    | some c =>
      if c.isDigit then return .number (← number false) else failAhead .expectedValue

/-- The items of an array, each by `valueWithin`, up to its closing bracket. -/
def items : Nat → Nat → Bool → Reader (List Value)
  | 0, _, _ => fail .endInList
  | fuel + 1, depth, first => do
    match ← nextItem first with
    | .done => return []
    | .part => do
      let item ← valueWithin fuel depth
      return item :: (← items fuel depth false)

/-- The members of an object, each value by `valueWithin`, up to its closing bracket. -/
def members : Nat → Nat → Bool → Reader (List (String × Value))
  | 0, _, _ => fail .endInObject
  | fuel + 1, depth, first => do
    match ← nextKey first with
    | .done => return []
    | .part => do
      let key ← text
      colon
      let value ← valueWithin fuel depth
      return (key, value) :: (← members fuel depth false)

end

/-- The value at the cursor, by `valueWithin` with fuel for the whole text. -/
def value (depth : Nat) : Reader Value := do
  valueWithin ((← get).rest.length * 2 + 2) depth

/-- Moves over the blanks at the end of the text, and stops with `trailingCharacters` if anything
else is left. -/
def finish : Reader Unit := do
  match ← peekPastBlanks with
  | none => pure ()
  | some _ => failAhead .trailingCharacters

/-- Reads the whole of a text by `reader`. -/
def run {α : Type} (reader : Reader α) (s : String) : Except Fault α :=
  (do let result ← reader; finish; return result : Reader α).run' (.ofText s)

end Reader

/-- The value that a text denotes, with arrays and objects nested up to `depthLimit`. -/
def read (s : String) : Except Fault Value :=
  (Reader.value Reader.depthLimit).run s

end LogRendering.Json
