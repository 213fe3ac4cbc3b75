import LogRendering.Json.Reader

/-!
# Reading JSON of a given shape

Readers for truth values, texts, lists, maps, records and choices.  A record may be given
as an object, whose unknown members are passed over, or as an array of the fields in
their order; fields that are not given keep their default.  A choice is given by the name
of its variant, or by an object whose only member has that name and holds what belongs to
the variant.
-/

namespace LogRendering.Json.Reader

/-- Stops with the flaw `wrongType`, because the value at the cursor, which comes after any
blanks, does not have the type asked for.  A value that is no JSON at all is at fault for that
first. -/
def wrongType {α : Type} : Reader α := do
  match ← peek with
  | some 'n' => do skip; literal ['u', 'l', 'l']
  | some 't' => do skip; literal ['r', 'u', 'e']
  | some 'f' => do skip; literal ['a', 'l', 's', 'e']
  | some '-' => do skip; let _ ← number true
  | some '"' => do skip; let _ ← text
  | some '[' => pure ()
  | some '{' => pure ()
  | some c => if c.isDigit then let _ ← number false else failAhead .expectedValue
  | none => failAhead .expectedValue
  fail .wrongType

/-- Runs `reader` on the character after the blanks, if there is one. -/
def onValue {α : Type} (reader : Char → Reader α) : Reader α := do
  match ← peekPastBlanks with
  | none => failAhead .endInValue
  | some c => reader c

/-- Moves over the `null` at the cursor. -/
def null : Reader Unit :=
  onValue fun c =>
    if c = 'n' then do
      skip
      literal ['u', 'l', 'l']
    else wrongType

/-- The `true` or `false` at the cursor. -/
def truthValue : Reader Bool :=
  onValue fun c =>
    if c = 't' then do
      skip
      literal ['r', 'u', 'e']
      return true
    else if c = 'f' then do
      skip
      literal ['a', 'l', 's', 'e']
      return false
    else wrongType

/-- The text at the cursor. -/
def textValue : Reader String :=
  onValue fun c =>
    if c = '"' then do
      skip
      text
    else wrongType

/-- The text at the cursor, or nothing if `null` stands there. -/
def optionalText : Reader (Option String) := do
  match ← peekPastBlanks with
  | some 'n' => do
    skip
    literal ['u', 'l', 'l']
    return none
  | _ => return some (← textValue)

/-- The items of an array, each read by `item`. -/
def itemsOf {α : Type} (item : Reader α) : Nat → Bool → Reader (List α)
  | 0, _ => fail .endInList
  | fuel + 1, first => do
    match ← nextItem first with
    | .done => return []
    | .part => do
      let a ← item
      return a :: (← itemsOf item fuel false)

/-- The array at the cursor, each item read by `item`. -/
def listOf {α : Type} (item : Reader α) : Reader (List α) :=
  onValue fun c => do
    if c = '[' then do
      skip
      itemsOf item ((← get).rest.length + 1) true
    else wrongType

/-- The members of an object, each value read by `item`. -/
def membersOf {α : Type} (item : Reader α) : Nat → Bool → Reader (List (String × α))
  | 0, _ => fail .endInObject
  | fuel + 1, first => do
    match ← nextKey first with
    | .done => return []
    | .part => do
      let key ← text
      colon
      let a ← item
      return (key, a) :: (← membersOf item fuel false)

/-- The object at the cursor, each value read by `item`; of members with the same key
the last one counts. -/
def mapOf {α : Type} (item : Reader α) : Reader (SortedMap α) :=
  onValue fun c => do
    if c = '{' then do
      skip
      return .ofList (← membersOf item ((← get).rest.length + 1) true)
    else wrongType

mutual

/-- Moves over the value at the cursor.  The fuel bounds its length and nesting; `skipValue`
gives enough. -/
def skipValueWithin : Nat → Reader Unit
  | 0 => fail .endInValue
  | fuel + 1 =>
    onValue fun
      | 'n' => do
        skip
        literal ['u', 'l', 'l']
      | 't' => do
        skip
        literal ['r', 'u', 'e']
      | 'f' => do
        skip
        literal ['a', 'l', 's', 'e']
      | '-' => do
        skip
        skipNumber
      | '"' => do
        skip
        skipText
      | '[' => do
        skip
        skipItems fuel true
      | '{' => do
        skip
        skipMembers fuel true
      | c => if c.isDigit then skipNumber else failAhead .expectedValue

/-- Moves over the items of an array, each by `skipValueWithin`, and its closing bracket. -/
def skipItems : Nat → Bool → Reader Unit
  | 0, _ => fail .endInList
  | fuel + 1, first => do
    match ← peekPastBlanks with
    | none => failAhead .endInList
    | some ']' => skip
    | some c =>
      if first then do
        skipValueWithin fuel
        skipItems fuel false
      else if c = ',' then do
        skip
        skipValueWithin fuel
        skipItems fuel false
      else failAhead .expectedCommaOrListEnd

/-- Moves over the members of an object, each value by `skipValueWithin`, and its closing
bracket. -/
def skipMembers : Nat → Bool → Reader Unit
  | 0, _ => fail .endInObject
  | fuel + 1, first => do
    match ← peekPastBlanks with
    | none => failAhead .endInObject
    | some '}' => skip
    | some c => do
      if first then pure ()
      else if c = ',' then skip
      else failAhead .expectedCommaOrObjectEnd
      match ← peekPastBlanks with
      | some '"' => skip
      | some _ => failAhead .keyNotText
      | none => failAhead .endInObject
      skipText
      colon
      skipValueWithin fuel
      skipMembers fuel false

end

/-- Moves over the value at the cursor, however deeply it is nested. -/
def skipValue : Reader Unit := do
  skipValueWithin ((← get).rest.length * 2 + 2)

/-- A field of a record: its `name`, and how `read` puts its value into the record. -/
structure FieldReader (ρ : Type) where
  name : String
  read : Reader (ρ → ρ)

/-- Moves over the bracket that closes an array of which enough has been read. -/
def closeList : Reader Unit := do
  match ← peekPastBlanks with
  | some ']' => skip
  | some _ => failAhead .trailingCharacters
  | none => failAhead .endInList

/-- The record given by an array: the values of the `FieldReader`s in their order. -/
def recordItems {ρ : Type} : List (FieldReader ρ) → Bool → ρ → Reader ρ
  | [], _, record => do
    closeList
    return record
  | field :: more, first, record => do
    match ← nextItem first with
    | .done => return record
    | .part => recordItems more false ((← field.read) record)

/-- The record given by an object, after the fields named in `seen` have been read; a field named
twice is a fault, and a key that is no field is moved over by `skipValue`. -/
def recordMembers {ρ : Type} (fields : List (FieldReader ρ)) :
    Nat → List String → Bool → ρ → Reader ρ
  | 0, _, _, _ => fail .endInObject
  | fuel + 1, seen, first, record => do
    match ← nextKey first with
    | .done => return record
    | .part => do
      let key ← text
      match fields.find? (·.name = key) with
      | none => do
        colon
        skipValue
        recordMembers fields fuel seen false record
      | some field =>
        if key ∈ seen then fail .duplicateField
        else do
          colon
          recordMembers fields fuel (key :: seen) false ((← field.read) record)

/-- The record at the cursor, by `recordItems` or `recordMembers`, in which the fields that are
not given are those of `record`. -/
def recordOf {ρ : Type} (fields : List (FieldReader ρ)) (record : ρ) : Reader ρ :=
  onValue fun c => do
    if c = '[' then do
      skip
      recordItems fields true record
    else if c = '{' then do
      skip
      recordMembers fields ((← get).rest.length + 1) [] true record
    else wrongType

/-- What belongs to a variant of a choice: nothing if it is `plain`, or a value that is
`holding`. -/
inductive VariantReader (α : Type) where
  | plain (a : α)
  | holding (read : Reader α)

/-- The choice at the cursor, among `variants` with the given names. -/
def choiceOf {α : Type} (variants : List (String × VariantReader α)) : Reader α := do
  let find (name : String) : Reader (VariantReader α) :=
    match variants.lookup name with
    | some variant => pure variant
    | none => fail .unknownVariant
  match ← peekPastBlanks with
  | some '"' => do
    skip
    match ← find (← text) with
    | .plain a => return a
    | .holding _ => fail .wrongType
  | some '{' => do
    skip
    match ← nextKey true with
    | .done => fail .expectedValue
    | .part => do
      let variant ← find (← text)
      colon
      let a ←
        match variant with
        | .plain a => do null; pure a
        | .holding read => read
      match ← peekPastBlanks with
      | some '}' => do
        skip
        return a
      | some _ => failAhead .expectedValue
      | none => failAhead .endInObject
  | some _ => failAhead .expectedValue
  | none => failAhead .endInValue

end LogRendering.Json.Reader
