import LogRendering.Thrown.Frame
import Mathlib.Tactic.Use

/-!
# Entries of lines

A line of a backtrace gives a location or a symbol.  A symbol has one entry, with its location
if that is on the next line, and a location has an entry of its own only if it does not come
directly after a symbol.  The entries of the lines, in their order, are what the lines are
collapsed to.
-/

namespace LogRendering.Frame

/-! ### Locations and symbols -/

/-- The `line` gives a location. -/
def IsLocation (line : List Char) : Prop :=
  ['a', 't', ' '] <+: line

instance (line : List Char) : Decidable (IsLocation line) :=
  inferInstanceAs (Decidable (['a', 't', ' '] <+: line))

/-- The line gives a symbol: what comes after the index of a frame, or the whole line if it does
not begin with such an index. -/
inductive Gives : List Char → List Char → Prop where
  | indexed {index : List Char} (symbol : List Char) (hne : index ≠ [])
    (hdigits : ∀ c ∈ index, c.isDigit = true) : Gives (index ++ ':' :: ' ' :: symbol) symbol
  | plain {line : List Char} (h : ∀ index symbol, index ≠ [] →
    (∀ c ∈ index, c.isDigit = true) → line ≠ index ++ ':' :: ' ' :: symbol) : Gives line line

theorem stripHead?_append (head cs : List Char) :
  stripHead? head (head ++ cs) = some cs
  := by
  rw [stripHead?, if_pos (List.isPrefixOf_iff_prefix.mpr (List.prefix_append head cs)),
    List.drop_left]

theorem eq_append_of_stripHead? {head cs rest : List Char} (h : stripHead? head cs = some rest) :
  cs = head ++ rest
  := by
  unfold stripHead? at h
  split at h
  next hprefix =>
    obtain ⟨tail, rfl⟩ := List.isPrefixOf_iff_prefix.mp hprefix
    rw [List.drop_left] at h
    rw [Option.some.inj h]
  next => contradiction

theorem location?_of_isLocation {line : List Char} (h : IsLocation line) :
  location? line = some (line.drop 3)
  := if_pos (List.isPrefixOf_iff_prefix.mpr h)

theorem location?_of_not_isLocation {line : List Char} (h : ¬ IsLocation line) :
  location? line = none
  := if_neg fun hprefix => h (List.isPrefixOf_iff_prefix.mp hprefix)

/-- An index in front of a symbol is left out. -/
theorem symbol_indexed
    {index : List Char} (name : List Char) (hne : index ≠ [])
    (hdigits : ∀ c ∈ index, c.isDigit = true) :
  symbol (index ++ ':' :: ' ' :: name) = name
  := by
  have htake : (index ++ ':' :: ' ' :: name).takeWhile Char.isDigit = index := by
    rw [List.takeWhile_append_of_pos hdigits, List.takeWhile_cons_of_neg (by decide),
      List.append_nil]
  have hdrop : (index ++ ':' :: ' ' :: name).dropWhile Char.isDigit = [':', ' '] ++ name := by
    rw [List.dropWhile_append_of_pos hdigits, List.dropWhile_cons_of_neg (by decide)]
    rfl
  obtain ⟨digit, digits, rfl⟩ := List.exists_cons_of_ne_nil hne
  unfold symbol
  rw [htake, hdrop, stripHead?_append]

/-- The `symbol` of a line is the one that it gives. -/
theorem gives_symbol (line : List Char) :
  Gives line (symbol line)
  := by
  by_cases h : ∃ index name, index ≠ [] ∧ (∀ c ∈ index, c.isDigit = true)
      ∧ line = index ++ ':' :: ' ' :: name
  · obtain ⟨index, name, hne, hdigits, rfl⟩ := h
    rw [symbol_indexed name hne hdigits]
    exact .indexed name hne hdigits
  · have hplain : symbol line = line := by
      unfold symbol
      dsimp only
      split
      next digit digits rest htake hstrip =>
        exfalso
        apply h
        use line.takeWhile Char.isDigit, rest
        constructor
        · rw [htake]
          apply List.cons_ne_nil
        · constructor
          · intro c hc
            exact List.all_eq_true.mp List.all_takeWhile c hc
          · have hdrop := eq_append_of_stripHead? hstrip
            conv =>
              lhs
              rw [← List.takeWhile_append_dropWhile (p := Char.isDigit) (l := line), hdrop]
            rfl
      next => rfl
    rw [hplain]
    apply Gives.plain
    intro index name hne hdigits hline
    exact h ⟨index, name, hne, hdigits, hline⟩

/-- A `line` without an index is its own symbol. -/
theorem symbol_eq_self
    {line : List Char} (h : ∀ index symbol, index ≠ [] → (∀ c ∈ index, c.isDigit = true) →
      line ≠ index ++ ':' :: ' ' :: symbol) :
  symbol line = line
  := by
  have hgives := gives_symbol line
  generalize symbol line = name at hgives
  cases hgives with
  | indexed _ hne hdigits => exact absurd rfl (h _ _ hne hdigits)
  | plain _ => rfl

/-! ### Entries of lines -/

/-- A line that `IsLocation` completes the symbol before it, if there is one. -/
theorem collapse_location
    {line : List Char} (h : IsLocation line) (pending : Option (List Char))
    (rest : List (List Char)) :
  collapse pending (line :: rest)
    = (match pending with
      | some symbol => located symbol (line.drop 3)
      | none => line.drop 3) :: collapse none rest
  := by
  cases pending with
  | none => simp only [collapse, location?_of_isLocation h]
  | some symbol => simp only [collapse, location?_of_isLocation h]

/-- A line that is not `IsLocation` leaves the symbol before it without a location. -/
theorem collapse_symbol
    {line : List Char} (h : ¬ IsLocation line) (pending : Option (List Char))
    (rest : List (List Char)) :
  collapse pending (line :: rest) = pending.toList ++ collapse (some (symbol line)) rest
  := by
  cases pending with
  | none =>
      simp only [collapse, location?_of_not_isLocation h]
      rfl
  | some earlier =>
      simp only [collapse, location?_of_not_isLocation h]
      rfl

/-- The entry that `line` has for itself between the lines `before` and `after` it, if it has
one: a symbol together with a location that comes after it, or a location that does not come
after a symbol. -/
def entryOf (name : List Char → List Char) (before : Option (List Char)) (line : List Char)
    (after : Option (List Char)) : Option (List Char) :=
  if IsLocation line then
    if before.any (¬ IsLocation ·) then none else some (line.drop 3)
  else if after.any (IsLocation ·) then
    after.map fun location => name line ++ '(' :: (location.drop 3 ++ [')'])
  else some (name line)

/-- The line before the one at a position, where `before` comes before all of them. -/
def lineBefore (before : Option (List Char)) (lines : List (List Char)) :
    Nat → Option (List Char)
  | 0 => before
  | i + 1 => lines[i]?

/-- The entry of the line at position `i` by `entryOf`, if it has one. -/
def entryAt (name : List Char → List Char) (before : Option (List Char))
    (lines : List (List Char)) (i : Nat) : Option (List Char) :=
  lines[i]?.bind fun line => entryOf name (lineBefore before lines i) line lines[i + 1]?

/-- The entries of `lines`, in their order, where `before` comes before all of them. -/
def entriesAfter (name : List Char → List Char) (before : Option (List Char))
    (lines : List (List Char)) : List (List Char) :=
  (List.range lines.length).filterMap (entryAt name before lines)

theorem entriesAfter_cons
    (name : List Char → List Char) (before : Option (List Char)) (line : List Char)
    (rest : List (List Char)) :
  entriesAfter name before (line :: rest)
    = (entryOf name before line rest.head?).toList ++ entriesAfter name (some line) rest
  := by
  have hlater : entryAt name before (line :: rest) ∘ Nat.succ = entryAt name (some line) rest := by
    funext i
    cases i with
    | zero => rfl
    | succ i => rfl
  have hfirst : entryAt name before (line :: rest) 0 = entryOf name before line rest.head? := by
    rw [List.head?_eq_getElem?]
    rfl
  rw [entriesAfter, List.length_cons, List.range_succ_eq_map, List.filterMap_cons,
    List.filterMap_map, hlater, hfirst]
  cases entryOf name before line rest.head? with
  | none => rfl
  | some entry => rfl

section EntryOf

variable {name : List Char → List Char} {line : List Char}

/-- A location that comes after a location, or first, has an entry of its own. -/
theorem entryOf_stray
    (h : IsLocation line) {before : Option (List Char)}
    (hbefore : ∀ earlier ∈ before, IsLocation earlier) (after : Option (List Char)) :
  entryOf name before line after = some (line.drop 3)
  := by
  have hstray : before.any (¬ IsLocation ·) = false := by
    cases before with
    | none => rfl
    | some earlier => simpa using hbefore earlier rfl
  rw [entryOf, if_pos h, hstray]
  rfl

/-- A location that comes after a symbol has no entry of its own. -/
theorem entryOf_after_symbol
    (h : IsLocation line) {earlier : List Char} (hearlier : ¬ IsLocation earlier)
    (after : Option (List Char)) :
  entryOf name (some earlier) line after = none
  := by
  rw [entryOf, if_pos h, if_pos (by simpa using hearlier)]

/-- A symbol has an entry, whatever comes before it. -/
theorem entryOf_symbol (h : ¬ IsLocation line) (before before' after : Option (List Char)) :
  entryOf name before line after = entryOf name before' line after
  := by
  rw [entryOf, entryOf, if_neg h, if_neg h]

theorem entryOf_before_location
    (h : ¬ IsLocation line) {next : List Char} (hnext : IsLocation next)
    (before : Option (List Char)) :
  entryOf name before line (some next) = some (located (name line) (next.drop 3))
  := by
  rw [entryOf, if_neg h, if_pos (by simpa using hnext)]
  rfl

theorem entryOf_before_symbol
    (h : ¬ IsLocation line) {next : List Char} (hnext : ¬ IsLocation next)
    (before : Option (List Char)) :
  entryOf name before line (some next) = some (name line)
  := by
  rw [entryOf, if_neg h, if_neg (by simpa using hnext)]

end EntryOf

/-- Lines after `collapse` are the entries of the lines, if no symbol is left from before; if one
is, its entry comes first. -/
theorem collapse_eq_entriesAfter (lines : List (List Char)) :
  (∀ before : Option (List Char), (∀ earlier ∈ before, IsLocation earlier) →
      collapse none lines = entriesAfter symbol before lines)
    ∧ ∀ line, ¬ IsLocation line →
      collapse (some (symbol line)) lines
        = (entryOf symbol none line lines.head?).toList ++ entriesAfter symbol (some line) lines
  := by
  induction lines with
  | nil =>
      constructor
      · intro before _
        rfl
      · intro line h
        rw [entryOf, if_neg h]
        rfl
  | cons next rest ih =>
      obtain ⟨ihnone, ihsome⟩ := ih
      -- the entries of the lines after a location do not depend on what comes before it
      have ihlocation : IsLocation next →
          collapse none rest = entriesAfter symbol (some next) rest := by
        intro hnext
        apply ihnone
        intro earlier hearlier
        obtain rfl := Option.some.inj hearlier
        exact hnext
      constructor
      · intro before hbefore
        rw [entriesAfter_cons]
        by_cases hnext : IsLocation next
        · rw [collapse_location hnext, entryOf_stray hnext hbefore, ihlocation hnext]
          rfl
        · rw [collapse_symbol hnext, ihsome next hnext, entryOf_symbol hnext before none]
          rfl
      · intro line hline
        rw [entriesAfter_cons, List.head?_cons]
        by_cases hnext : IsLocation next
        · rw [collapse_location hnext, entryOf_before_location hline hnext,
            entryOf_after_symbol hnext hline, ihlocation hnext]
          rfl
        · rw [collapse_symbol hnext, ihsome next hnext, entryOf_before_symbol hline hnext,
            entryOf_symbol hnext (some line) none]

end LogRendering.Frame
