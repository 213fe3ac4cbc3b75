import LogRendering.Proofs.Field.Sorted
import LogRendering.Proofs.Json.Spelling
import LogRendering.Proofs.Number.Rounding

/-!
# Values converted to JSON and back

A field value that is converted to JSON and back loses what JSON cannot hold: a value of another
kind is its text afterwards, and a number that is not finite is null.  A JSON value that is
converted to a field value and back loses the integers that do not fit into 64 bits with sign: in
their place are the nearest numbers in double precision.  All else is kept.
-/

namespace LogRendering

namespace Json

namespace Number

/-! ### Integers -/

/-- The bits of the integer `n` are below the sign bit if and only if it is not negative. -/
theorem toNat_toUInt64_lt_iff (n : Int64) :
  n.toUInt64.toNat < Nat.pow 2 63 ↔ ¬ n < 0
  := by
  have hvalue := BitVec.toInt_eq_toNat_cond n.toBitVec
  have hbound := n.toBitVec.isLt
  show n.toBitVec.toNat < Nat.pow 2 63 ↔ _
  rw [Int64.lt_iff_toInt_lt]
  show _ ↔ ¬ n.toBitVec.toInt < 0
  simp only [Nat.pow_eq] at *
  split at hvalue
  next => omega
  next => omega

/-- An integer of 64 bits is read back from the number `ofInt64` makes of it. -/
theorem toInt64?_ofInt64 (n : Int64) :
  (ofInt64 n).toInt64? = some n
  := by
  by_cases hn : n < 0
  · rw [ofInt64, dif_pos hn, toInt64?]
  · rw [ofInt64, dif_neg hn, toInt64?, if_pos ((toNat_toUInt64_lt_iff n).mpr hn),
      Int64.toInt64_toUInt64]

/-- The number is no integer greater than `Int64.maxValue`. -/
def FitsSigned : Number → Prop
  | natural n => n.toNat ≤ Int64.maxValue.toInt
  | _ => True

theorem fitsSigned_natural_iff (n : UInt64) :
  (natural n).FitsSigned ↔ n.toNat < Nat.pow 2 63
  := by
  have hmax : Int64.maxValue.toInt = 2 ^ 63 - 1 := rfl
  show (n.toNat : Int) ≤ Int64.maxValue.toInt ↔ _
  rw [hmax, Nat.pow_eq]
  omega

/-- The number, or the nearest one in double precision if it is an integer above
`Int64.maxValue`. -/
def rounded : Number → Number
  | natural n =>
    if n.toNat < Nat.pow 2 63 then natural n
    else double (Binary64.ofUInt64 n) (Binary64.isFinite_ofUInt64 n)
  | n => n

/-- A number is kept by `rounded` if and only if it `FitsSigned`. -/
theorem rounded_eq_self_iff (n : Number) :
  n.rounded = n ↔ n.FitsSigned
  := by
  cases n with
  | natural n =>
      rw [fitsSigned_natural_iff, rounded]
      split
      next h => exact iff_of_true rfl h
      next h =>
        apply iff_of_false _ h
        rintro ⟨⟩
  | negative n hn => exact iff_of_true rfl trivial
  | double x hx => exact iff_of_true rfl trivial

end Number

/-! ### Values with rounded integers -/

namespace Value

/-- No number in the value is an integer greater than `Int64.maxValue`. -/
inductive FitsSigned : Value → Prop where
  | null : FitsSigned null
  | bool (b : Bool) : FitsSigned (bool b)
  | number {n : Number} (h : n.FitsSigned) : FitsSigned (number n)
  | text (s : String) : FitsSigned (text s)
  | array {items : List Value} (each : ∀ item ∈ items, FitsSigned item) :
    FitsSigned (array items)
  | object {members : List (String × Value)} (each : ∀ member ∈ members, FitsSigned member.2) :
    FitsSigned (object members)

mutual

/-- The value with every number in it `rounded`. -/
def rounded : Value → Value
  | number n => number n.rounded
  | array items => array (roundedItems items)
  | object members => object (roundedMembers members)
  | v => v

/-- The items of an array, each `rounded`. -/
def roundedItems : List Value → List Value
  | [] => []
  | item :: rest => rounded item :: roundedItems rest

/-- The members of an object, with their values `rounded`. -/
def roundedMembers : List (String × Value) → List (String × Value)
  | [] => []
  | (key, value) :: rest => (key, rounded value) :: roundedMembers rest

end

theorem roundedItems_eq (items : List Value) :
  roundedItems items = items.map rounded
  := by
  induction items with
  | nil => rfl
  | cons item items ih => rw [roundedItems, ih, List.map_cons]

/-- The member of an object, with its value `rounded`. -/
def roundedMember (member : String × Value) : String × Value :=
  (member.1, rounded member.2)

theorem roundedMembers_eq (members : List (String × Value)) :
  roundedMembers members = members.map roundedMember
  := by
  induction members with
  | nil => rfl
  | cons member members ih =>
      rw [roundedMembers, ih, List.map_cons]
      rfl

/-- A value is kept by `rounded` if and only if it `FitsSigned`. -/
theorem rounded_eq_self_iff (v : Value) :
  v.rounded = v ↔ v.FitsSigned
  := by
  induction v with
  | null => exact iff_of_true rfl .null
  | bool b => exact iff_of_true rfl (.bool b)
  | number n =>
      rw [rounded, number.injEq, Number.rounded_eq_self_iff]
      constructor
      · exact .number
      · rintro (_ | _ | h)
        exact h
  | text s => exact iff_of_true rfl (.text s)
  | array items ih =>
      rw [rounded, array.injEq, roundedItems_eq, map_eq_self_iff, forall₂_congr ih]
      constructor
      · exact .array
      · rintro (_ | _ | _ | _ | h)
        exact h
  | object members ih =>
      have hmember : ∀ member ∈ members, roundedMember member = member ↔ member.2.FitsSigned := by
        intro member hmem
        rw [← ih member hmem, roundedMember, Prod.ext_iff]
        exact and_iff_right rfl
      rw [rounded, object.injEq, roundedMembers_eq, map_eq_self_iff, forall₂_congr hmember]
      constructor
      · exact .object
      · rintro (_ | _ | _ | _ | _ | h)
        exact h

end Value

end Json

namespace FieldValue

/-! ### From JSON and back -/

theorem ofJsonItems_eq (items : List Json.Value) :
  ofJsonItems items = items.map ofJson
  := by
  induction items with
  | nil => rfl
  | cons item items ih => rw [ofJsonItems, ih, List.map_cons]

/-- The entry of a mapping that `ofJson` makes of a member of an object. -/
def ofJsonMember (member : String × Json.Value) : String × FieldValue :=
  (member.1, ofJson member.2)

theorem ofJsonMembers_eq (members : List (String × Json.Value)) :
  ofJsonMembers members = members.map ofJsonMember
  := by
  induction members with
  | nil => rfl
  | cons member members ih =>
      rw [ofJsonMembers, ih, List.map_cons]
      rfl

/-- A finite number is the JSON number with the same bits. -/
theorem jsonOfBinary64_of_isFinite {x : Binary64} (h : x.IsFinite) :
  jsonOfBinary64 x = .number (.double x h)
  := by
  rw [jsonOfBinary64, Json.Number.ofBinary64?, dif_pos h]

/-- A JSON number becomes an `int` or a finite `float`, and never `null`. -/
theorem ofJsonNumber_eq_int_or_float (n : Json.Number) :
  (∃ i, ofJsonNumber n = int i) ∨ ∃ x, x.IsFinite ∧ ofJsonNumber n = float x
  := by
  unfold ofJsonNumber
  cases hint : n.toInt64? with
  | some i => exact .inl ⟨i, rfl⟩
  | none =>
      right
      cases n with
      | natural n => exact ⟨_, Binary64.isFinite_ofUInt64 n, rfl⟩
      | negative n hn => exact nomatch hint
      | double x hx => exact ⟨x, hx, rfl⟩

/-- A JSON number comes back `rounded`. -/
theorem toJson_ofJsonNumber (n : Json.Number) :
  (ofJsonNumber n).toJson = .ok (.number n.rounded)
  := by
  cases n with
  | natural n =>
      by_cases hn : n.toNat < Nat.pow 2 63
      · have hint : ofJsonNumber (.natural n) = int n.toInt64 := by
          rw [ofJsonNumber, Json.Number.toInt64?, if_pos hn]
        have hsign : ¬ n.toInt64 < 0 := by
          rwa [← Json.Number.toNat_toUInt64_lt_iff, UInt64.toUInt64_toInt64]
        rw [hint, toJson, Json.Number.ofInt64, dif_neg hsign, UInt64.toUInt64_toInt64,
          Json.Number.rounded, if_pos hn]
      · have hfloat : ofJsonNumber (.natural n) = float (Binary64.ofUInt64 n) := by
          rw [ofJsonNumber, Json.Number.toInt64?, if_neg hn, Json.Number.toBinary64?]
        rw [hfloat, toJson, jsonOfBinary64_of_isFinite (Binary64.isFinite_ofUInt64 n),
          Json.Number.rounded, if_neg hn]
  | negative n hn =>
      show Except.ok (Json.Value.number (.ofInt64 n)) = .ok (.number (.negative n hn))
      rw [Json.Number.ofInt64, dif_pos hn]
  | double x hx =>
      show Except.ok (jsonOfBinary64 x) = .ok (.number (.double x hx))
      rw [jsonOfBinary64_of_isFinite hx]

/-- A JSON value comes back `rounded`. -/
theorem toJson_ofJson (value : Json.Value) :
  (ofJson value).toJson = .ok value.rounded
  := by
  induction value with
  | null => rfl
  | bool b => rfl
  | number n => exact toJson_ofJsonNumber n
  | text s => rfl
  | array items ih =>
      rw [ofJson, toJson_seq_eq_ok_iff]
      refine ⟨_, ?_, rfl⟩
      rw [ofJsonItems_eq, Json.Value.roundedItems_eq, List.forall₂_map_left_iff,
        List.forall₂_map_right_iff, List.forall₂_same]
      exact ih
  | object members ih =>
      rw [ofJson, toJson_map_eq_ok_iff]
      refine ⟨_, ?_, rfl⟩
      rw [ofJsonMembers_eq, Json.Value.roundedMembers_eq, List.forall₂_map_left_iff,
        List.forall₂_map_right_iff, List.forall₂_same]
      exact fun member hmem => ⟨rfl, ih member hmem⟩

/-! ### To JSON and back -/

/-- The value holds neither an `other` value nor a number that is not finite. -/
inductive IsPlain : FieldValue → Prop where
  | null : IsPlain null
  | bool (b : Bool) : IsPlain (bool b)
  | int (n : Int64) : IsPlain (int n)
  | float {x : Binary64} (h : x.IsFinite) : IsPlain (float x)
  | text (s : String) : IsPlain (text s)
  | seq {items : List FieldValue} (each : ∀ item ∈ items, IsPlain item) : IsPlain (seq items)
  | map {entries : List (String × FieldValue)} (each : ∀ entry ∈ entries, IsPlain entry.2) :
    IsPlain (map entries)

mutual

/-- The value with its text in place of each `other` value, and with `null` in place of each
number that is not finite. -/
def simplified : FieldValue → FieldValue
  | float x => if x.IsFinite then float x else null
  | seq items => seq (simplifiedItems items)
  | map entries => map (simplifiedEntries entries)
  | other rendering => text rendering.text
  | v => v

/-- The items of a sequence, each `simplified`. -/
def simplifiedItems : List FieldValue → List FieldValue
  | [] => []
  | item :: rest => simplified item :: simplifiedItems rest

/-- The entries of a mapping, with their values `simplified`. -/
def simplifiedEntries : List (String × FieldValue) → List (String × FieldValue)
  | [] => []
  | (key, value) :: rest => (key, simplified value) :: simplifiedEntries rest

end

theorem simplifiedItems_eq (items : List FieldValue) :
  simplifiedItems items = items.map simplified
  := by
  induction items with
  | nil => rfl
  | cons item items ih => rw [simplifiedItems, ih, List.map_cons]

/-- The entry of a mapping, with its value `simplified`. -/
def simplifiedEntry (entry : String × FieldValue) : String × FieldValue :=
  (entry.1, simplified entry.2)

theorem simplifiedEntries_eq (entries : List (String × FieldValue)) :
  simplifiedEntries entries = entries.map simplifiedEntry
  := by
  induction entries with
  | nil => rfl
  | cons entry entries ih =>
      rw [simplifiedEntries, ih, List.map_cons]
      rfl

/-- A value is kept by `simplified` if and only if it `IsPlain`. -/
theorem simplified_eq_self_iff (v : FieldValue) :
  v.simplified = v ↔ v.IsPlain
  := by
  induction v with
  | null => exact iff_of_true rfl .null
  | bool b => exact iff_of_true rfl (.bool b)
  | int n => exact iff_of_true rfl (.int n)
  | float x =>
      rw [simplified]
      split
      next h => exact iff_of_true rfl (.float h)
      next h =>
        apply iff_of_false nofun
        rintro (_ | _ | _ | hx)
        exact h hx
  | text s => exact iff_of_true rfl (.text s)
  | seq items ih =>
      rw [simplified, seq.injEq, simplifiedItems_eq, map_eq_self_iff, forall₂_congr ih]
      constructor
      · exact .seq
      · rintro (_ | _ | _ | _ | _ | h)
        exact h
  | map entries ih =>
      have hentry : ∀ entry ∈ entries, simplifiedEntry entry = entry ↔ entry.2.IsPlain := by
        intro entry hmem
        rw [← ih entry hmem, simplifiedEntry, Prod.ext_iff]
        exact and_iff_right rfl
      rw [simplified, map.injEq, simplifiedEntries_eq, map_eq_self_iff, forall₂_congr hentry]
      constructor
      · exact .map
      · rintro (_ | _ | _ | _ | _ | _ | h)
        exact h
  | other rendering => exact iff_of_false nofun nofun

/-- An integer of 64 bits comes back as it is. -/
theorem ofJsonNumber_ofInt64 (n : Int64) :
  ofJsonNumber (.ofInt64 n) = int n
  := by
  rw [ofJsonNumber, Json.Number.toInt64?_ofInt64]

/-- A number in double precision comes back if it is finite, and as `null` otherwise. -/
theorem ofJson_jsonOfBinary64 (x : Binary64) :
  ofJson (jsonOfBinary64 x) = simplified (float x)
  := by
  rw [simplified]
  split
  next h =>
    rw [jsonOfBinary64_of_isFinite h]
    rfl
  next h =>
    rw [jsonOfBinary64, Json.Number.ofBinary64?, dif_neg h]
    rfl

/-- A field value comes back `simplified`. -/
theorem ofJson_of_toJson {v : FieldValue} {value : Json.Value} (h : v.toJson = .ok value) :
  ofJson value = v.simplified
  := by
  induction v generalizing value with
  | null =>
      obtain rfl := Except.ok.inj h
      rfl
  | bool b =>
      obtain rfl := Except.ok.inj h
      rfl
  | int n =>
      obtain rfl := Except.ok.inj h
      exact ofJsonNumber_ofInt64 n
  | float x =>
      obtain rfl := Except.ok.inj h
      exact ofJson_jsonOfBinary64 x
  | text s =>
      obtain rfl := Except.ok.inj h
      rfl
  | seq items ih =>
      obtain ⟨values, hvalues, rfl⟩ := (toJson_seq_eq_ok_iff items value).mp h
      rw [ofJson, simplified, ofJsonItems_eq, simplifiedItems_eq]
      rw [map_eq_map_of_forall₂ hvalues fun item hmem _ => ih item hmem]
  | map entries ih =>
      obtain ⟨members, hmembers, rfl⟩ := (toJson_map_eq_ok_iff entries value).mp h
      rw [ofJson, simplified, ofJsonMembers_eq, simplifiedEntries_eq]
      rw [map_eq_map_of_forall₂ hmembers]
      rintro entry hmem member ⟨hkey, hvalue⟩
      rw [ofJsonMember, hkey, ih entry hmem hvalue]
      rfl
  | other rendering =>
      obtain ⟨-, rfl⟩ := (toJson_other_eq_ok_iff rendering value).mp h
      rfl

/-! ### Both ways -/

/-- The field value of a JSON value that is `WellFormed` is so too. -/
theorem WellFormed.ofJson {value : Json.Value} (h : value.WellFormed) :
  (FieldValue.ofJson value).WellFormed
  := by
  induction h with
  | null => exact .null
  | bool b => exact .bool b
  | number n =>
      show (ofJsonNumber n).WellFormed
      obtain ⟨i, hint⟩ | ⟨x, -, hfloat⟩ := ofJsonNumber_eq_int_or_float n
      · rw [hint]
        exact .int i
      · rw [hfloat]
        exact .float x
  | text s => exact .text s
  | @array items each ih =>
      rw [FieldValue.ofJson, ofJsonItems_eq]
      exact .seq (List.forall_mem_map.mpr ih)
  | @object members increasing each ih =>
      rw [FieldValue.ofJson, ofJsonMembers_eq]
      exact .map (List.pairwise_map.mpr increasing) (List.forall_mem_map.mpr ih)

/-- A field value that `IsLegible` has a JSON value, and comes back from it `simplified`, which
is as it was if and only if it `IsPlain`.  A JSON value comes back from its field value
`rounded`, which is as it was if and only if it `FitsSigned`.  Its numbers are integers or finite
numbers there, and never `null`. -/
theorem converted_there_and_back :
  (∀ v : FieldValue, v.IsLegible →
    ∃ value, v.toJson = .ok value ∧ (v.WellFormed → value.WellFormed)
      ∧ ofJson value = v.simplified ∧ (ofJson value = v ↔ v.IsPlain))
    ∧ (∀ value : Json.Value, (value.WellFormed → (ofJson value).WellFormed)
      ∧ (ofJson value).toJson = .ok value.rounded
      ∧ ((ofJson value).toJson = .ok value ↔ value.FitsSigned))
    ∧ ∀ n : Json.Number,
      (∃ i, ofJson (.number n) = int i) ∨ ∃ x, x.IsFinite ∧ ofJson (.number n) = float x
  := by
  refine ⟨?_, ?_, ofJsonNumber_eq_int_or_float⟩
  · intro v hlegible
    obtain ⟨value, hvalue⟩ := v.exists_toJson_iff.mpr hlegible
    have hback := ofJson_of_toJson hvalue
    refine ⟨value, hvalue, fun h => h.toJson hvalue, hback, ?_⟩
    rw [hback, simplified_eq_self_iff]
  · intro value
    refine ⟨WellFormed.ofJson, toJson_ofJson value, ?_⟩
    rw [toJson_ofJson, Except.ok.injEq, Json.Value.rounded_eq_self_iff]

/-- An `other` value, an infinite number and an integer side by side. -/
def mixedSequence : FieldValue :=
  .seq [.other ⟨"shown", .complete⟩, .float ⟨0x7FF0000000000000⟩, .int (-1)]

/-- The value `mixedSequence` loses its first two items. -/
theorem converted_there_and_back_mixedSequence :
  mixedSequence.IsLegible
    ∧ ∃ value, mixedSequence.toJson = .ok value ∧ value.WellFormed
      ∧ ofJson value = .seq [.text "shown", .null, .int (-1)]
      ∧ ofJson value ≠ mixedSequence
  := by
  have hlegible : mixedSequence.IsLegible := by
    rw [mixedSequence, isLegible_seq_iff]
    simp only [List.forall_mem_cons, isLegible_other_iff]
    refine ⟨rfl, ?_, ?_, List.forall_mem_nil _⟩
    · rintro _ ⟨⟩
    · rintro _ ⟨⟩
  have hwellFormed : mixedSequence.WellFormed := by
    apply WellFormed.seq
    simp only [List.forall_mem_cons]
    exact ⟨.other _, .float _, .int _, List.forall_mem_nil _⟩
  obtain ⟨value, hvalue, hvalueWellFormed, hback, -⟩ := converted_there_and_back.1 _ hlegible
  have hsimplified : mixedSequence.simplified = .seq [.text "shown", .null, .int (-1)] := rfl
  refine ⟨hlegible, value, hvalue, hvalueWellFormed hwellFormed, hback.trans hsimplified, ?_⟩
  rw [ne_eq, hback, hsimplified]
  exact nofun

end FieldValue

end LogRendering
