import LogRendering.Timestamp.Field
import Mathlib.Tactic.Use

/-!
# The items of a pattern

A pattern is read character by character.  A character either goes on with a specifier or ends
it, and then the rest of the pattern is read by itself, so that the items of a pattern after a
valid beginning are those of the beginning and those of the rest.  A valid pattern has a text at
every instant unless it holds the one specifier that is known but only read.
-/

namespace LogRendering.Timestamp

open Calendar (Instant)

/-! ### One character -/

theorem readingOnly_notMem_ofLetter (c : Char) :
  Item.readingOnly ∉ Item.ofLetter c
  := by
  unfold Item.ofLetter
  split
  all_goals simp [Item.shortDate, Item.hourMinute, Item.timeOfDay]

theorem readingOnly_notMem_ofPaddedLetter (padding : Padding) (c : Char) :
  Item.readingOnly ∉ Item.ofPaddedLetter padding c
  := by
  unfold Item.ofPaddedLetter
  split
  · simp
  · simp

/-- The character `c` goes on with a specifier: the rest of the pattern is read from `q` on. -/
structure GoesOn (p : Progress) (c : Char) (q : Progress) : Prop where
  itemsFrom_cons : ∀ rest, itemsFrom p (c :: rest) = itemsFrom q rest
  begun : q = .begun → p = .outside ∧ c = '%'
  alternate : q = .alternate → p = .begun ∧ c = '#'

/-- The character `c` ends a specifier with the items `ended`, or stands for itself: the rest of
the pattern is read by itself. -/
structure Ends (p : Progress) (c : Char) (ended : List Item) : Prop where
  itemsFrom_cons : ∀ rest, itemsFrom p (c :: rest) = ended ++ itemsFrom .outside rest
  readingOnly : .readingOnly ∈ ended → p = .alternate ∧ c = 'z'

variable {p q : Progress} {c : Char}

/-- A character goes on with a specifier, if neither a percent sign nor a number sign is the last
that has been read of it. -/
theorem GoesOn.of_cons (h : ∀ rest, itemsFrom p (c :: rest) = itemsFrom q rest)
    (hbegun : q ≠ .begun) (halternate : q ≠ .alternate) :
  GoesOn p c q
  where
  itemsFrom_cons := h
  begun hq := absurd hq hbegun
  alternate hq := absurd hq halternate

/-- A character ends a specifier with items that are not `readingOnly`. -/
theorem Ends.of_cons {ended : List Item}
    (h : ∀ rest, itemsFrom p (c :: rest) = ended ++ itemsFrom .outside rest)
    (hended : .readingOnly ∉ ended) :
  Ends p c ended
  where
  itemsFrom_cons := h
  readingOnly hmem := absurd hmem hended

theorem goesOn_outside (hc : c = '%') :
  GoesOn .outside c .begun
  where
  itemsFrom_cons rest := by rw [itemsFrom, if_pos hc]
  begun _ := ⟨rfl, hc⟩
  alternate := by rintro ⟨⟩

theorem ends_outside (hc : c ≠ '%') :
  Ends .outside c [.literal c]
  := by
  apply Ends.of_cons
  · intro rest
    rw [itemsFrom, if_neg hc]
    rfl
  · simp

/-- The characters that may stand between the percent sign and the letter of a specifier. -/
def modifiers : List Char :=
  ['-', '0', '_', '#', ':', '.', '3', '6', '9']

theorem exists_goesOn_begun (hc : c ∈ modifiers) :
  ∃ q, GoesOn .begun c q
  := by
  simp only [modifiers, List.mem_cons, List.not_mem_nil, or_false] at hc
  obtain rfl | rfl | rfl | rfl | rfl | rfl | rfl | rfl | rfl := hc
  · exact ⟨.padded .none, .of_cons (fun _ => rfl) (by rintro ⟨⟩) (by rintro ⟨⟩)⟩
  · exact ⟨.padded .zero, .of_cons (fun _ => rfl) (by rintro ⟨⟩) (by rintro ⟨⟩)⟩
  · exact ⟨.padded .space, .of_cons (fun _ => rfl) (by rintro ⟨⟩) (by rintro ⟨⟩)⟩
  · exact ⟨.alternate, fun _ => rfl, by rintro ⟨⟩, fun _ => ⟨rfl, rfl⟩⟩
  · exact ⟨.colons 0, .of_cons (fun _ => rfl) (by rintro ⟨⟩) (by rintro ⟨⟩)⟩
  · exact ⟨.point, .of_cons (fun _ => rfl) (by rintro ⟨⟩) (by rintro ⟨⟩)⟩
  · exact ⟨.places 3 false, .of_cons (fun _ => rfl) (by rintro ⟨⟩) (by rintro ⟨⟩)⟩
  · exact ⟨.places 6 false, .of_cons (fun _ => rfl) (by rintro ⟨⟩) (by rintro ⟨⟩)⟩
  · exact ⟨.places 9 false, .of_cons (fun _ => rfl) (by rintro ⟨⟩) (by rintro ⟨⟩)⟩

theorem ends_begun (hc : c ∉ modifiers) :
  Ends .begun c (Item.ofLetter c)
  := by
  apply Ends.of_cons
  · intro rest
    rw [itemsFrom]
    all_goals
      rintro rfl
      exact hc (by decide)
  · apply readingOnly_notMem_ofLetter

theorem ends_alternate (c : Char) :
  Ends .alternate c [if c = 'z' then .readingOnly else .invalid]
  where
  itemsFrom_cons _ := rfl
  readingOnly := by
    split
    next hc => exact fun _ => ⟨rfl, hc⟩
    next => simp

theorem goesOn_or_ends_colons (more : Nat) (c : Char) :
  (∃ q, GoesOn (.colons more) c q) ∨ ∃ ended, Ends (.colons more) c ended
  := by
  by_cases hz : c = 'z'
  · right
    use [.fixed (.zoneOffset (more + 1))]
    apply Ends.of_cons
    · intro rest
      rw [itemsFrom, if_pos hz]
      rfl
    · simp
  by_cases hcolon : c = ':' && more < 2
  · left
    have hcons (rest : List Char) :
        itemsFrom (.colons more) (c :: rest) = itemsFrom (.colons (more + 1)) rest := by
      rw [itemsFrom, if_neg hz, if_pos hcolon]
    exact ⟨.colons (more + 1), .of_cons hcons (by rintro ⟨⟩) (by rintro ⟨⟩)⟩
  · right
    use [.invalid]
    apply Ends.of_cons
    · intro rest
      rw [itemsFrom, if_neg hz, if_neg hcolon]
      rfl
    · simp

theorem exists_goesOn_point (hc : c ∈ ['3', '6', '9']) :
  ∃ q, GoesOn .point c q
  := by
  simp only [List.mem_cons, List.not_mem_nil, or_false] at hc
  obtain rfl | rfl | rfl := hc
  · exact ⟨.places 3 true, .of_cons (fun _ => rfl) (by rintro ⟨⟩) (by rintro ⟨⟩)⟩
  · exact ⟨.places 6 true, .of_cons (fun _ => rfl) (by rintro ⟨⟩) (by rintro ⟨⟩)⟩
  · exact ⟨.places 9 true, .of_cons (fun _ => rfl) (by rintro ⟨⟩) (by rintro ⟨⟩)⟩

theorem exists_ends_point (hc : c ∉ ['3', '6', '9']) :
  ∃ ended, Ends .point c ended
  := by
  by_cases hf : c = 'f'
  · subst hf
    exact ⟨[.fixed .fraction], .of_cons (fun _ => rfl) (by simp)⟩
  use [.invalid]
  apply Ends.of_cons
  · intro rest
    rw [itemsFrom]
    · rfl
    · exact hf
    all_goals
      rintro rfl
      exact hc (by decide)
  · simp

theorem ends_places (count : Nat) (point : Bool) (c : Char) :
  Ends (.places count point) c [if c = 'f' then .fixed (.places count point) else .invalid]
  := by
  apply Ends.of_cons
  · exact fun _ => rfl
  · split
    next => simp
    next => simp

/-- A character `GoesOn` with a specifier or `Ends` it. -/
theorem goesOn_or_ends (p : Progress) (c : Char) :
  (∃ q, GoesOn p c q) ∨ ∃ ended, Ends p c ended
  := by
  cases p with
  | outside =>
      by_cases hc : c = '%'
      · exact Or.inl ⟨.begun, goesOn_outside hc⟩
      · exact Or.inr ⟨[.literal c], ends_outside hc⟩
  | begun =>
      by_cases hc : c ∈ modifiers
      · exact Or.inl (exists_goesOn_begun hc)
      · exact Or.inr ⟨Item.ofLetter c, ends_begun hc⟩
  | padded padding =>
      right
      use Item.ofPaddedLetter padding c
      apply Ends.of_cons (fun _ => rfl) (readingOnly_notMem_ofPaddedLetter padding c)
  | alternate => exact Or.inr ⟨_, ends_alternate c⟩
  | colons more => apply goesOn_or_ends_colons
  | point =>
      by_cases hc : c ∈ ['3', '6', '9']
      · exact Or.inl (exists_goesOn_point hc)
      · exact Or.inr (exists_ends_point hc)
  | places count point => exact Or.inr ⟨_, ends_places count point c⟩

/-! ### Whole patterns -/

theorem itemsFrom_nil (p : Progress) :
  itemsFrom p [] = [] ∧ p = .outside ∨ itemsFrom p [] = [.invalid]
  := by
  cases p with
  | outside => exact Or.inl ⟨rfl, rfl⟩
  | begun | padded | alternate | colons | point | places => exact Or.inr rfl

/-- What follows a beginning of a pattern without an `invalid` item is read by itself. -/
theorem itemsFrom_append {p : Progress} {cs : List Char} (h : .invalid ∉ itemsFrom p cs)
    (rest : List Char) :
  itemsFrom p (cs ++ rest) = itemsFrom p cs ++ itemsFrom .outside rest
  := by
  induction cs generalizing p with
  | nil =>
      obtain ⟨hnil, rfl⟩ | hnil := itemsFrom_nil p
      · rw [hnil]
        rfl
      · rw [hnil] at h
        exact absurd List.mem_cons_self h
  | cons c cs ih =>
      rw [List.cons_append]
      obtain ⟨q, hq⟩ | ⟨ended, hended⟩ := goesOn_or_ends p c
      · rw [hq.itemsFrom_cons] at h ⊢
        rw [hq.itemsFrom_cons, ih h]
      · rw [hended.itemsFrom_cons] at h ⊢
        rw [hended.itemsFrom_cons, ih fun hmem => h (List.mem_append_right _ hmem),
          List.append_assoc]

/-- In what is left of a valid pattern, an item `readingOnly` comes from the end of its
specifier, if this has begun, or from the whole of it. -/
theorem exists_of_readingOnly_mem {p : Progress} {cs : List Char}
    (hvalid : .invalid ∉ itemsFrom p cs) (h : .readingOnly ∈ itemsFrom p cs) :
  (p = .alternate ∧ ∃ after, cs = 'z' :: after)
    ∨ (p = .begun ∧ ∃ after, cs = '#' :: 'z' :: after)
    ∨ ∃ before after, cs = before ++ '%' :: '#' :: 'z' :: after
      ∧ .invalid ∉ itemsFrom p before
  := by
  induction cs generalizing p with
  | nil =>
      exfalso
      obtain ⟨hnil, -⟩ | hnil := itemsFrom_nil p
      · simp [hnil] at h
      · simp [hnil] at h
  | cons c cs ih =>
      obtain ⟨q, hq⟩ | ⟨ended, hended⟩ := goesOn_or_ends p c
      · rw [hq.itemsFrom_cons] at h hvalid
        obtain ⟨hp, after, rfl⟩ | ⟨hp, after, rfl⟩ | ⟨before, after, rfl, hbefore⟩ := ih hvalid h
        · obtain ⟨rfl, rfl⟩ := hq.alternate hp
          exact Or.inr (Or.inl ⟨rfl, after, rfl⟩)
        · obtain ⟨rfl, rfl⟩ := hq.begun hp
          exact Or.inr (Or.inr ⟨[], after, rfl, by simp [itemsFrom]⟩)
        · refine Or.inr (Or.inr ⟨c :: before, after, rfl, ?_⟩)
          rwa [hq.itemsFrom_cons]
      · rw [hended.itemsFrom_cons, List.mem_append] at h hvalid
        obtain h | h := h
        · obtain ⟨rfl, rfl⟩ := hended.readingOnly h
          exact Or.inl ⟨rfl, cs, rfl⟩
        · obtain ⟨hp, -⟩ | ⟨hp, -⟩ | ⟨before, after, rfl, hbefore⟩ := ih (fun h => hvalid (Or.inr h)) h
          · cases hp
          · cases hp
          · refine Or.inr (Or.inr ⟨c :: before, after, rfl, ?_⟩)
            rw [hended.itemsFrom_cons, List.mem_append]
            exact fun h => h.elim (fun h => hvalid (Or.inl h)) hbefore

/-- A valid pattern has an item `readingOnly` exactly if its specifier stands in the pattern
after a valid beginning. -/
theorem readingOnly_mem_items_iff {pattern : String} (hvalid : .invalid ∉ items pattern) :
  .readingOnly ∈ items pattern
    ↔ ∃ before after, pattern = before ++ "%#z" ++ after ∧ .invalid ∉ items before
  := by
  have happend : ∀ a b c : String, (a ++ b ++ c).toList = a.toList ++ (b.toList ++ c.toList) := by
    intros
    simp only [String.toList_append, List.append_assoc]
  have hspecifier : "%#z".toList = ['%', '#', 'z'] := by decide
  constructor
  · intro h
    obtain ⟨hp, -⟩ | ⟨hp, -⟩ | ⟨before, after, hpattern, hbefore⟩ :=
      exists_of_readingOnly_mem hvalid h
    · cases hp
    · cases hp
    · use String.ofList before, String.ofList after
      constructor
      · apply String.toList_injective
        rw [happend, hspecifier, String.toList_ofList, String.toList_ofList]
        exact hpattern
      · rwa [items, String.toList_ofList]
  · rintro ⟨before, after, rfl, hbefore⟩
    have hafter : itemsFrom .outside (['%', '#', 'z'] ++ after.toList)
        = .readingOnly :: itemsFrom .outside after.toList := rfl
    rw [items, happend, hspecifier, itemsFrom_append hbefore, hafter]
    exact List.mem_append_right _ List.mem_cons_self

/-! ### Texts -/

theorem exists_text?_iff (t : Instant) (item : Item) :
  (∃ text, item.text? t = some text) ↔ item ≠ .invalid ∧ item ≠ .readingOnly
  := by
  cases item with
  | literal | numeric | fixed => simp [Item.text?]
  | readingOnly => simp [Item.text?]
  | invalid => simp [Item.text?]

/-- The `items` have a text at every instant exactly if none of them is `invalid` or
`readingOnly`. -/
theorem exists_itemsText?_iff (t : Instant) (items : List Item) :
  (∃ text, itemsText? t items = some text) ↔ .invalid ∉ items ∧ .readingOnly ∉ items
  := by
  induction items with
  | nil => simp [itemsText?]
  | cons item items ih =>
      have hcons : (∃ text, itemsText? t (item :: items) = some text)
          ↔ (∃ text, item.text? t = some text) ∧ ∃ text, itemsText? t items = some text := by
        simp only [itemsText?, Option.bind_eq_bind, Option.bind_eq_some_iff, Option.pure_def,
          Option.some.injEq]
        constructor
        · rintro ⟨_, text, htext, texts, htexts, -⟩
          exact ⟨⟨text, htext⟩, texts, htexts⟩
        · rintro ⟨⟨text, htext⟩, texts, htexts⟩
          exact ⟨_, text, htext, texts, htexts, rfl⟩
      rw [hcons, exists_text?_iff, ih, List.mem_cons, List.mem_cons, not_or, not_or]
      constructor
      · rintro ⟨⟨hvalid, hread⟩, hvalids, hreads⟩
        exact ⟨⟨hvalid.symm, hvalids⟩, hread.symm, hreads⟩
      · rintro ⟨⟨hvalid, hvalids⟩, hread, hreads⟩
        exact ⟨⟨Ne.symm hvalid, Ne.symm hread⟩, hvalids, hreads⟩

end LogRendering.Timestamp
