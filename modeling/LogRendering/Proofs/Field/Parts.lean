import LogRendering.Field.Display
import LogRendering.Field.Json
import LogRendering.Proofs.Lists

/-!
# Parts of field values

The values of another kind inside a field value are its parts; of such a part only its
rendering is known.  The text of a field value is complete if and only if every part is,
and so a field value is text, and JSON, under the same condition.
-/

namespace LogRendering

/-! ### Endings of renderings -/

namespace Rendering

theorem ending_append (r s : Rendering) :
  (r ++ s).ending = if r.ending = .complete then s.ending else r.ending
  := by
  split
  next h => rw [append_text_of_complete s h]
  next h => rw [append_eq_left s h]

/-- A text put together of `r` and `s` is complete if and only if both are. -/
theorem isComplete_append_iff (r s : Rendering) :
  (r ++ s).IsComplete ↔ r.IsComplete ∧ s.IsComplete
  := by
  unfold IsComplete
  rw [ending_append]
  split
  next h => simp [h]
  next h => simp [h]

theorem isComplete_ofText (text : String) :
  (ofText text).IsComplete
  := rfl

theorem isComplete_concat_iff (rs : List Rendering) :
  (concat rs).IsComplete ↔ ∀ r ∈ rs, r.IsComplete
  := by
  induction rs with
  | nil => simp [concat, isComplete_ofText]
  | cons r rs ih => rw [concat, isComplete_append_iff, ih, List.forall_mem_cons]

theorem isComplete_separated_iff (separator : String) (rs : List Rendering) :
  (separated separator rs).IsComplete ↔ ∀ r ∈ rs, r.IsComplete
  := by
  cases rs with
  | nil => simp [separated, isComplete_ofText]
  | cons r rs =>
      simp [separated, isComplete_append_iff, isComplete_concat_iff, isComplete_ofText]

variable {P : Ending → Prop}

/-- If the endings of `r` and `s` satisfy `P`, so does the ending of the text put together of
them. -/
theorem ending_append_of {r s : Rendering} (hr : P r.ending) (hs : P s.ending) :
  P (r ++ s).ending
  := by
  rw [ending_append]
  split
  · exact hs
  · exact hr

theorem ending_concat_of
    (hcomplete : P .complete) {rs : List Rendering} (h : ∀ r ∈ rs, P r.ending) :
  P (concat rs).ending
  := by
  induction rs with
  | nil => exact hcomplete
  | cons r rs ih =>
      obtain ⟨hr, hrs⟩ := List.forall_mem_cons.mp h
      apply ending_append_of hr (ih hrs)

theorem ending_separated_of
    (hcomplete : P .complete) (separator : String) {rs : List Rendering}
    (h : ∀ r ∈ rs, P r.ending) :
  P (separated separator rs).ending
  := by
  cases rs with
  | nil => exact hcomplete
  | cons r rs =>
      obtain ⟨hr, hrs⟩ := List.forall_mem_cons.mp h
      apply ending_append_of hr
      apply ending_concat_of hcomplete
      intro s hs
      obtain ⟨s, hmem, rfl⟩ := List.mem_map.mp hs
      apply ending_append_of hcomplete (hrs s hmem)

theorem toText_eq_ok_iff (r : Rendering) (text : String) :
  r.toText = .ok text ↔ r.IsComplete ∧ r.text = text
  := by
  unfold toText IsComplete
  cases r.ending with
  | complete => simp
  | failed => simp
  | aborted abort => simp

end Rendering

namespace FieldValue

/-! ### Induction on field values -/

/-- Induction on field values, with the items of a sequence and the values of a mapping at
hand. -/
@[elab_as_elim, induction_eliminator]
theorem induction
    {motive : FieldValue → Prop}
    (null : motive .null) (bool : ∀ b, motive (.bool b)) (int : ∀ n, motive (.int n))
    (float : ∀ x, motive (.float x)) (text : ∀ s, motive (.text s))
    (seq : ∀ items, (∀ item ∈ items, motive item) → motive (.seq items))
    (map : ∀ entries, (∀ entry ∈ entries, motive entry.2) → motive (.map entries))
    (other : ∀ rendering, motive (.other rendering)) (v : FieldValue) :
  motive v
  := by
  apply FieldValue.rec (motive_1 := motive)
    (motive_2 := fun items => ∀ item ∈ items, motive item)
    (motive_3 := fun entries => ∀ entry ∈ entries, motive entry.2)
    (motive_4 := fun entry => motive entry.2) null bool int float text seq map other
  case nil => simp
  case cons =>
    intro item items hitem hitems
    exact List.forall_mem_cons.mpr ⟨hitem, hitems⟩
  case nil => simp
  case cons =>
    intro entry entries hentry hentries
    exact List.forall_mem_cons.mpr ⟨hentry, hentries⟩
  case mk =>
    intro key value hvalue
    exact hvalue

theorem displayItems_eq (items : List FieldValue) :
  displayItems items = items.map display
  := by
  induction items with
  | nil => rfl
  | cons item items ih => rw [displayItems, ih, List.map_cons]

/-- The text of an entry of a mapping, as `display` puts it together. -/
def displayEntry (entry : String × FieldValue) : Rendering :=
  .ofText (entry.1 ++ "=") ++ entry.2.display

theorem displayEntries_eq (entries : List (String × FieldValue)) :
  displayEntries entries = entries.map displayEntry
  := by
  induction entries with
  | nil => rfl
  | cons entry entries ih =>
      rw [displayEntries, ih, List.map_cons]
      rfl

/-! ### Parts -/

/-- An `other` value inside a field value, by its rendering. -/
inductive HasPart : FieldValue → Rendering → Prop where
  | other (rendering : Rendering) : HasPart (other rendering) rendering
  | seq {items : List FieldValue} {item : FieldValue} {rendering : Rendering}
    (hmem : item ∈ items) (h : HasPart item rendering) : HasPart (seq items) rendering
  | map {entries : List (String × FieldValue)} {entry : String × FieldValue}
    {rendering : Rendering} (hmem : entry ∈ entries) (h : HasPart entry.2 rendering) :
    HasPart (map entries) rendering

theorem hasPart_seq_iff (items : List FieldValue) (rendering : Rendering) :
  HasPart (seq items) rendering ↔ ∃ item ∈ items, HasPart item rendering
  := by
  constructor
  · rintro (_ | ⟨hmem, h⟩)
    exact ⟨_, hmem, h⟩
  · rintro ⟨item, hmem, h⟩
    apply HasPart.seq hmem h

theorem hasPart_map_iff (entries : List (String × FieldValue)) (rendering : Rendering) :
  HasPart (map entries) rendering ↔ ∃ entry ∈ entries, HasPart entry.2 rendering
  := by
  constructor
  · rintro (_ | _ | ⟨hmem, h⟩)
    exact ⟨_, hmem, h⟩
  · rintro ⟨entry, hmem, h⟩
    apply HasPart.map hmem h

/-- Every part of `v` is rendered completely, so that its text does not fail. -/
def IsLegible (v : FieldValue) : Prop :=
  ∀ rendering, v.HasPart rendering → rendering.IsComplete

theorem isLegible_seq_iff (items : List FieldValue) :
  (seq items).IsLegible ↔ ∀ item ∈ items, item.IsLegible
  := by
  simp only [IsLegible, hasPart_seq_iff]
  constructor
  · intro h item hmem rendering hpart
    exact h rendering ⟨item, hmem, hpart⟩
  · rintro h rendering ⟨item, hmem, hpart⟩
    exact h item hmem rendering hpart

theorem isLegible_map_iff (entries : List (String × FieldValue)) :
  (map entries).IsLegible ↔ ∀ entry ∈ entries, entry.2.IsLegible
  := by
  simp only [IsLegible, hasPart_map_iff]
  constructor
  · intro h entry hmem rendering hpart
    exact h rendering ⟨entry, hmem, hpart⟩
  · rintro h rendering ⟨entry, hmem, hpart⟩
    exact h entry hmem rendering hpart

theorem isLegible_other_iff (rendering : Rendering) :
  (other rendering).IsLegible ↔ rendering.IsComplete
  := by
  constructor
  · intro h
    apply h
    apply HasPart.other
  · rintro h _ (_ | _)
    exact h

/-! ### Texts -/

/-- The text `v.display` is complete if and only if `v.IsLegible`. -/
theorem isComplete_display_iff (v : FieldValue) :
  v.display.IsComplete ↔ v.IsLegible
  := by
  induction v with
  | seq items ih =>
      rw [display, displayItems_eq, isLegible_seq_iff]
      simp only [Rendering.isComplete_append_iff, Rendering.isComplete_separated_iff,
        Rendering.isComplete_ofText, List.forall_mem_map, true_and, and_true]
      exact forall₂_congr ih
  | map entries ih =>
      rw [display, displayEntries_eq, isLegible_map_iff]
      simp only [Rendering.isComplete_append_iff, Rendering.isComplete_separated_iff,
        Rendering.isComplete_ofText, List.forall_mem_map, displayEntry, true_and, and_true]
      exact forall₂_congr ih
  | other rendering => rw [isLegible_other_iff, display]
  | _ =>
      refine iff_of_true rfl ?_
      rintro _ ⟨⟩

/-- The text of a value ends in a way that satisfies `P` if complete texts and all its parts
do. -/
theorem ending_display_of
    {P : Ending → Prop} (hcomplete : P .complete) {v : FieldValue}
    (h : ∀ rendering, v.HasPart rendering → P rendering.ending) :
  P v.display.ending
  := by
  induction v with
  | seq items ih =>
      rw [display, displayItems_eq]
      apply Rendering.ending_append_of (Rendering.ending_append_of hcomplete _) hcomplete
      apply Rendering.ending_separated_of hcomplete
      rw [List.forall_mem_map]
      intro item hmem
      apply ih item hmem
      intro rendering hpart
      exact h rendering (.seq hmem hpart)
  | map entries ih =>
      rw [display, displayEntries_eq]
      apply Rendering.ending_append_of (Rendering.ending_append_of hcomplete _) hcomplete
      apply Rendering.ending_separated_of hcomplete
      rw [List.forall_mem_map]
      intro entry hmem
      apply Rendering.ending_append_of hcomplete
      apply ih entry hmem
      intro rendering hpart
      exact h rendering (.map hmem hpart)
  | other rendering => exact h rendering (.other rendering)
  | _ => exact hcomplete

/-- A value has a text by `toText` if and only if it `IsLegible`. -/
theorem exists_toText_iff (v : FieldValue) :
  (∃ text, v.toText = .ok text) ↔ v.IsLegible
  := by
  simp [toText, Rendering.toText_eq_ok_iff, isComplete_display_iff]

/-- The text of a value that `IsLegible` is that of `display`. -/
theorem toText_of_isLegible {v : FieldValue} (h : v.IsLegible) :
  v.toText = .ok v.display.text
  := (Rendering.toText_eq_ok_iff _ _).mpr ⟨v.isComplete_display_iff.mpr h, rfl⟩

/-! ### JSON -/

/-- The outcome of two steps of which the second uses the value of the first. -/
theorem bind_eq_ok_iff {α β : Type} (x : Except Abort α) (f : α → Except Abort β) (b : β) :
  (x >>= f) = .ok b ↔ ∃ a, x = .ok a ∧ f a = .ok b
  := by
  cases x with
  | ok a =>
      show f a = .ok b ↔ _
      simp
  | error abort =>
      show Except.error abort = .ok b ↔ _
      simp

theorem pure_eq_ok_iff {α : Type} (a b : α) :
  (pure a : Except Abort α) = .ok b ↔ a = b
  := Except.ok.injEq a b ▸ Iff.rfl

theorem toJsonItems_eq_ok_iff (items : List FieldValue) (values : List Json.Value) :
  toJsonItems items = .ok values
    ↔ List.Forall₂ (fun item value => item.toJson = .ok value) items values
  := by
  induction items generalizing values with
  | nil =>
      rw [toJsonItems, Except.ok.injEq, List.forall₂_nil_left_iff, eq_comm]
  | cons item items ih =>
      simp only [toJsonItems, bind_eq_ok_iff, pure_eq_ok_iff, List.forall₂_cons_left_iff, ih]
      constructor
      · rintro ⟨value, hvalue, values, hvalues, rfl⟩
        exact ⟨value, values, hvalue, hvalues, rfl⟩
      · rintro ⟨value, values, hvalue, hvalues, rfl⟩
        exact ⟨value, hvalue, values, hvalues, rfl⟩

/-- The `member` of an object is made of the `entry` of a mapping. -/
def IsMemberOf (entry : String × FieldValue) (member : String × Json.Value) : Prop :=
  member.1 = entry.1 ∧ entry.2.toJson = .ok member.2

theorem toJsonEntries_eq_ok_iff
    (entries : List (String × FieldValue)) (members : List (String × Json.Value)) :
  toJsonEntries entries = .ok members ↔ List.Forall₂ IsMemberOf entries members
  := by
  induction entries generalizing members with
  | nil =>
      rw [toJsonEntries, Except.ok.injEq, List.forall₂_nil_left_iff, eq_comm]
  | cons entry entries ih =>
      simp only [toJsonEntries, bind_eq_ok_iff, pure_eq_ok_iff, List.forall₂_cons_left_iff, ih]
      constructor
      · rintro ⟨value, hvalue, members, hmembers, rfl⟩
        exact ⟨(entry.1, value), members, ⟨rfl, hvalue⟩, hmembers, rfl⟩
      · rintro ⟨⟨key, value⟩, members, ⟨rfl, hvalue⟩, hmembers, rfl⟩
        exact ⟨value, hvalue, members, hmembers, rfl⟩

theorem toJson_seq_eq_ok_iff (items : List FieldValue) (value : Json.Value) :
  (seq items).toJson = .ok value
    ↔ ∃ values, List.Forall₂ (fun item value => item.toJson = .ok value) items values
      ∧ .array values = value
  := by
  simp only [toJson, bind_eq_ok_iff, pure_eq_ok_iff, toJsonItems_eq_ok_iff]

theorem toJson_map_eq_ok_iff (entries : List (String × FieldValue)) (value : Json.Value) :
  (map entries).toJson = .ok value
    ↔ ∃ members, List.Forall₂ IsMemberOf entries members ∧ .object members = value
  := by
  simp only [toJson, bind_eq_ok_iff, pure_eq_ok_iff, toJsonEntries_eq_ok_iff]

theorem toJson_other_eq_ok_iff (rendering : Rendering) (value : Json.Value) :
  (other rendering).toJson = .ok value
    ↔ rendering.IsComplete ∧ .text rendering.text = value
  := by
  simp only [toJson, bind_eq_ok_iff, pure_eq_ok_iff, Rendering.toText_eq_ok_iff]
  constructor
  · rintro ⟨text, ⟨hcomplete, rfl⟩, rfl⟩
    exact ⟨hcomplete, rfl⟩
  · rintro ⟨hcomplete, rfl⟩
    exact ⟨_, ⟨hcomplete, rfl⟩, rfl⟩

/-- The entries of a mapping are members of an object if and only if each of their values
`IsLegible`. -/
theorem exists_members_iff (entries : List (String × FieldValue))
    (h : ∀ entry ∈ entries, (∃ value, entry.2.toJson = .ok value) ↔ entry.2.IsLegible) :
  (∃ members, List.Forall₂ IsMemberOf entries members)
    ↔ ∀ entry ∈ entries, entry.2.IsLegible
  := by
  rw [exists_forall₂_iff]
  apply forall₂_congr
  intro entry hmem
  rw [← h entry hmem]
  constructor
  · rintro ⟨member, -, hvalue⟩
    exact ⟨member.2, hvalue⟩
  · rintro ⟨value, hvalue⟩
    exact ⟨(entry.1, value), rfl, hvalue⟩

/-- A value has a JSON value by `toJson` if and only if it `IsLegible`. -/
theorem exists_toJson_iff (v : FieldValue) :
  (∃ value, v.toJson = .ok value) ↔ v.IsLegible
  := by
  induction v with
  | seq items ih =>
      rw [isLegible_seq_iff]
      simp only [toJson_seq_eq_ok_iff, exists_comm (α := Json.Value), exists_and_left,
        exists_eq', and_true]
      rw [exists_forall₂_iff]
      exact forall₂_congr ih
  | map entries ih =>
      rw [isLegible_map_iff, ← exists_members_iff entries ih]
      simp only [toJson_map_eq_ok_iff, exists_comm (α := Json.Value), exists_and_left,
        exists_eq', and_true]
  | other rendering =>
      rw [isLegible_other_iff]
      simp [toJson_other_eq_ok_iff]
  | _ =>
      refine iff_of_true ⟨_, rfl⟩ ?_
      rintro _ ⟨⟩

theorem exists_toJsonText_iff (v : FieldValue) :
  (∃ text, v.toJsonText = .ok text) ↔ v.IsLegible
  := by
  rw [← exists_toJson_iff, toJsonText]
  cases v.toJson with
  | ok value => simp [Except.map]
  | error abort => simp [Except.map]

end FieldValue

end LogRendering
