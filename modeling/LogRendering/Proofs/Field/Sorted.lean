import LogRendering.Proofs.Field.Parts
import LogRendering.Proofs.SortedMap

/-!
# Sorted keys

The members of an object have the keys of the entries of which they are made.  So the JSON
value of a well-formed field value is well formed, and an object that is put together anew of
its members is the same object.
-/

namespace LogRendering

/-- Members of which the keys increase are kept by `ofMembers`. -/
theorem Json.Value.ofMembers_eq {members : List (String × Json.Value)}
    (h : KeysIncrease members) :
  Json.Value.ofMembers members = .object members
  := by
  rw [ofMembers, SortedMap.entries_ofList h]

namespace FieldValue

variable {entries : List (String × FieldValue)} {members : List (String × Json.Value)}

/-- The `members` of an object have the keys of the `entries` of which they are made. -/
theorem map_fst_eq (h : List.Forall₂ IsMemberOf entries members) :
  members.map Prod.fst = entries.map Prod.fst
  := map_eq_map_of_forall₂ h fun _ _ _ hmember => hmember.1

theorem keysIncrease_members (h : List.Forall₂ IsMemberOf entries members)
    (hentries : KeysIncrease entries) :
  KeysIncrease members
  := by
  unfold KeysIncrease at hentries ⊢
  rw [← List.pairwise_map (R := (· < ·))] at hentries ⊢
  rwa [map_fst_eq h]

/-- The JSON value of a number in double precision is well formed. -/
theorem wellFormed_jsonOfBinary64 (x : Binary64) :
  (jsonOfBinary64 x).WellFormed
  := by
  unfold jsonOfBinary64
  cases Json.Number.ofBinary64? x with
  | none => exact .null
  | some n => exact .number n

/-- The JSON value of a field value that is `WellFormed` is so too. -/
theorem WellFormed.toJson {v : FieldValue} (h : v.WellFormed) {value : Json.Value}
    (hvalue : v.toJson = .ok value) :
  value.WellFormed
  := by
  induction h generalizing value with
  | null =>
      obtain rfl := Except.ok.inj hvalue
      exact .null
  | bool b =>
      obtain rfl := Except.ok.inj hvalue
      exact .bool b
  | int n =>
      obtain rfl := Except.ok.inj hvalue
      exact .number _
  | float x =>
      obtain rfl := Except.ok.inj hvalue
      exact wellFormed_jsonOfBinary64 x
  | text s =>
      obtain rfl := Except.ok.inj hvalue
      exact .text s
  | @seq items each ih =>
      obtain ⟨values, hvalues, rfl⟩ := (toJson_seq_eq_ok_iff items value).mp hvalue
      exact .array (forall_mem_of_forall₂ hvalues fun item hmem _ => ih item hmem)
  | @map entries increasing each ih =>
      obtain ⟨members, hmembers, rfl⟩ := (toJson_map_eq_ok_iff entries value).mp hvalue
      apply Json.Value.WellFormed.object (keysIncrease_members hmembers increasing)
      exact forall_mem_of_forall₂ hmembers fun entry hmem _ hmember => ih entry hmem hmember.2
  | other rendering =>
      obtain ⟨-, rfl⟩ := (toJson_other_eq_ok_iff rendering value).mp hvalue
      exact .text _

end FieldValue

end LogRendering
