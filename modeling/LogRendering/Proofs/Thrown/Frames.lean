import LogRendering.Proofs.Number.Notation
import LogRendering.Proofs.Text.Trimming
import LogRendering.Proofs.Thrown.Entries

/-!
# Frames of backtraces

A backtrace in which symbols are printed, with or without the index of their frame and with or
without their location below them, has one entry for each symbol, in the order of the symbols.
-/

namespace LogRendering.Frame

/-! ### Printed symbols -/

/-- The place of a symbol in a `file`. -/
structure Place where
  file : List Char
  line : Nat
  column : Option Nat
  notMem_file : '\n' ∉ file

/-- The characters of a place: its `file`, its `line`, and its `column` if it is known. -/
def Place.text (place : Place) : List Char :=
  place.file ++ [':'] ++ decimalDigits place.line
    ++ place.column.elim [] fun column => [':'] ++ decimalDigits column

/-- A symbol of a backtrace.  It has the `index` of its frame, unless it was inlined and stands
without an index after the first symbol of the frame; then it must not look like a location, or
as if it had an index. -/
structure FrameSymbol where
  index : Option Nat
  name : List Char
  place : Option Place
  name_ne_nil : name ≠ []
  trim_name : Text.trim name = name
  notMem_name : '\n' ∉ name
  not_isLocation : index = none → ¬ IsLocation name
  not_indexed : index = none → ∀ digits rest, digits ≠ [] → (∀ c ∈ digits, c.isDigit = true) →
    name ≠ digits ++ ':' :: ' ' :: rest

namespace FrameSymbol

variable (s : FrameSymbol)

/-- The line of a symbol: its `index`, if it has one, and its `name`. -/
def nameLine : List Char :=
  match s.index with
  | some index => decimalDigits index ++ ([':', ' '] ++ s.name)
  | none => s.name

/-- The spaces before the `nameLine`, with which an index has four columns. -/
def indent : Nat :=
  match s.index with
  | some index => 4 - (decimalDigits index).length
  | none => 6

/-- The lines of a symbol with the spaces before them: its `nameLine`, and the line of its
place. -/
def rows : List (Nat × List Char) :=
  (s.indent, s.nameLine) :: s.place.elim [] fun place => [(13, ['a', 't', ' '] ++ place.text)]

/-- The characters of the line `row` with the spaces before it. -/
def printRow (row : Nat × List Char) : List Char :=
  List.replicate row.1 ' ' ++ row.2 ++ ['\n']

/-- The symbol as it is printed in a backtrace. -/
def print : List Char :=
  s.rows.flatMap printRow

/-- The entry of a symbol: its `name`, and its place in parentheses if it is known. -/
def entry : List Char :=
  match s.place with
  | some place => s.name ++ '(' :: (place.text ++ [')'])
  | none => s.name

/-! ### Lines of printed symbols -/

variable {s} in
theorem nameLine_of_index {index : Nat} (h : s.index = some index) :
  s.nameLine = decimalDigits index ++ ([':', ' '] ++ s.name)
  := by
  rw [nameLine, h]

variable {s} in
theorem nameLine_of_inlined (h : s.index = none) :
  s.nameLine = s.name
  := by
  rw [nameLine, h]

theorem not_isBlank_of_isDigit {c : Char} (h : c.isDigit = true) :
  Text.isBlank c = false
  := by
  obtain ⟨hlow, hhigh⟩ := Bool.and_eq_true_iff.mp h
  have hbelow : 48 ≤ c.toNat := UInt32.le_iff_toNat_le.mp (of_decide_eq_true hlow)
  have habove : c.toNat ≤ 57 := UInt32.le_iff_toNat_le.mp (of_decide_eq_true hhigh)
  simp only [Text.isBlank, Bool.or_eq_false_iff, Bool.and_eq_false_iff, decide_eq_false_iff_not,
    beq_eq_false_iff_ne]
  omega

theorem notMem_decimalDigits (n : Nat) :
  '\n' ∉ decimalDigits n
  := by
  intro hmem
  have hdigit := isDigit_of_mem_decimalDigits hmem
  contradiction

/-- A place ends in a number. -/
theorem exists_place_text_eq_append (place : Place) :
  ∃ front n, place.text = front ++ decimalDigits n
  := by
  cases hcolumn : place.column with
  | none =>
      use place.file ++ [':'], place.line
      rw [Place.text, hcolumn, Option.elim_none, List.append_nil]
  | some column =>
      use place.file ++ [':'] ++ decimalDigits place.line ++ [':'], column
      rw [Place.text, hcolumn, Option.elim_some, List.append_assoc _ [':'] (decimalDigits column)]

theorem notMem_place_text (place : Place) :
  '\n' ∉ place.text
  := by
  have hfile := place.notMem_file
  have hline := notMem_decimalDigits place.line
  cases hcolumn : place.column with
  | none => simp [Place.text, hcolumn, hfile, hline]
  | some column => simp [Place.text, hcolumn, hfile, hline, notMem_decimalDigits column]

/-- The line is not empty, it neither begins nor ends with a blank, and it is one line. -/
structure IsTrimmed (line : List Char) : Prop where
  ne_nil : line ≠ []
  trim : Text.trim line = line
  notMem : '\n' ∉ line

theorem isTrimmed_nameLine :
  IsTrimmed s.nameLine
  := by
  cases hindex : s.index with
  | none =>
      rw [nameLine_of_inlined hindex]
      exact ⟨s.name_ne_nil, s.trim_name, s.notMem_name⟩
  | some index =>
      have hdigits := decimalDigits_ne_nil index
      rw [nameLine_of_index hindex]
      constructor
      · apply List.append_ne_nil_of_left_ne_nil hdigits
      · apply Text.trim_eq_self
        · intro c hc
          rw [List.head?_append_of_ne_nil _ hdigits] at hc
          apply not_isBlank_of_isDigit
          apply isDigit_of_mem_decimalDigits (List.mem_of_head? hc)
        · intro c hc
          rw [← List.append_assoc, List.getLast?_append_of_ne_nil _ s.name_ne_nil] at hc
          apply Text.not_isBlank_of_trim_eq s.trim_name hc
      · simp [notMem_decimalDigits index, s.notMem_name]

theorem isTrimmed_place (place : Place) :
  IsTrimmed (['a', 't', ' '] ++ place.text)
  := by
  constructor
  · apply List.cons_ne_nil
  · apply Text.trim_eq_self
    · intro c hc
      obtain rfl := Option.some.inj hc
      decide
    · intro c hc
      obtain ⟨front, n, htext⟩ := exists_place_text_eq_append place
      rw [htext, ← List.append_assoc, List.getLast?_append_of_ne_nil _ (decimalDigits_ne_nil n)]
        at hc
      apply not_isBlank_of_isDigit
      apply isDigit_of_mem_decimalDigits (List.mem_of_getLast? hc)
  · simp [notMem_place_text place]

/-- The `rows` of a symbol are trimmed. -/
theorem isTrimmed_of_mem_rows {row : Nat × List Char} (h : row ∈ s.rows) :
  IsTrimmed row.2
  := by
  obtain rfl | h := List.mem_cons.mp h
  · apply s.isTrimmed_nameLine
  · cases hplace : s.place with
    | none =>
        rw [hplace] at h
        contradiction
    | some place =>
        rw [hplace] at h
        obtain rfl := List.mem_singleton.mp h
        apply isTrimmed_place

/-- A line that `IsTrimmed` is, behind spaces, the first line of a text. -/
theorem trimmedLines_printRow {row : Nat × List Char} (h : IsTrimmed row.2) (rest : List Char) :
  trimmedLines (printRow row ++ rest) = row.2 :: trimmedLines rest
  := by
  have hblanks : ∀ c ∈ List.replicate row.1 ' ', Text.isBlank c = true := by
    intro c hc
    obtain rfl := List.eq_of_mem_replicate hc
    decide
  have hfree : '\n' ∉ List.replicate row.1 ' ' ++ row.2 := by
    intro hmem
    obtain hmem | hmem := List.mem_append.mp hmem
    · have hblank := List.eq_of_mem_replicate hmem
      contradiction
    · exact h.notMem hmem
  have hlast : (List.replicate row.1 ' ' ++ row.2).getLast? ≠ some '\r' := by
    rw [List.getLast?_append_of_ne_nil _ h.ne_nil]
    intro hreturn
    have hblank := Text.not_isBlank_of_trim_eq h.trim hreturn
    contradiction
  have hkept : (!row.2.isEmpty) = true := by
    rw [List.isEmpty_eq_false_iff.mpr h.ne_nil]
    rfl
  rw [printRow, List.append_assoc, List.singleton_append, trimmedLines, Text.lines_line hfree,
    withoutFinal_of_ne hlast, List.map_cons, Text.trim_append hblanks, h.trim,
    List.filter_cons_of_pos (p := fun line : List Char => !line.isEmpty) hkept]
  rfl

/-- Lines that satisfy `IsTrimmed` are, behind spaces, the lines of their text. -/
theorem trimmedLines_rows {rows : List (Nat × List Char)} (h : ∀ row ∈ rows, IsTrimmed row.2) :
  trimmedLines (rows.flatMap printRow) = rows.map Prod.snd
  := by
  induction rows with
  | nil => rfl
  | cons row rows ih =>
      obtain ⟨hrow, hrows⟩ := List.forall_mem_cons.mp h
      rw [List.flatMap_cons, trimmedLines_printRow hrow, ih hrows, List.map_cons]

/-! ### Entries of printed symbols -/

theorem not_isLocation_nameLine :
  ¬ IsLocation s.nameLine
  := by
  cases hindex : s.index with
  | none =>
      rw [nameLine_of_inlined hindex]
      exact s.not_isLocation hindex
  | some index =>
      obtain ⟨digit, digits, hdigits⟩ :=
        List.exists_cons_of_ne_nil (decimalDigits_ne_nil index)
      have hdigit : digit.isDigit = true := by
        apply isDigit_of_mem_decimalDigits (n := index)
        rw [hdigits]
        apply List.mem_cons_self
      rw [nameLine_of_index hindex, hdigits]
      intro hlocation
      obtain rfl := (List.cons_prefix_cons.mp hlocation).1
      contradiction

theorem symbol_nameLine :
  symbol s.nameLine = s.name
  := by
  cases hindex : s.index with
  | some index =>
      rw [nameLine_of_index hindex]
      apply symbol_indexed s.name (decimalDigits_ne_nil index)
      intro c hc
      exact isDigit_of_mem_decimalDigits hc
  | none =>
      rw [nameLine_of_inlined hindex]
      apply symbol_eq_self (s.not_indexed hindex)

theorem collapse_some_of_head?
    {lines : List (List Char)} (h : ∀ line ∈ lines.head?, ¬ IsLocation line)
    (pending : List Char) :
  collapse (some pending) lines = pending :: collapse none lines
  := by
  cases lines with
  | nil => rfl
  | cons line rest =>
      rw [collapse_symbol (h line rfl), collapse_symbol (h line rfl)]
      rfl

/-- The `rows` of a symbol have the entry of the symbol, if no location comes after them. -/
theorem collapse_rows
    {rest : List (List Char)} (h : ∀ line ∈ rest.head?, ¬ IsLocation line) :
  collapse none (s.rows.map Prod.snd ++ rest) = s.entry :: collapse none rest
  := by
  cases hplace : s.place with
  | none =>
      rw [rows, entry, hplace, Option.elim_none, List.map_singleton, List.singleton_append,
        collapse_symbol s.not_isLocation_nameLine, s.symbol_nameLine, collapse_some_of_head? h]
      rfl
  | some place =>
      have hlocation : IsLocation (['a', 't', ' '] ++ place.text) := List.prefix_append _ _
      rw [rows, entry, hplace, Option.elim_some, List.map_cons, List.map_singleton,
        List.cons_append, List.singleton_append, collapse_symbol s.not_isLocation_nameLine,
        s.symbol_nameLine, collapse_location hlocation]
      rfl

theorem not_isLocation_head?_rows (symbols : List FrameSymbol) :
  ∀ line ∈ ((symbols.flatMap rows).map Prod.snd).head?, ¬ IsLocation line
  := by
  cases symbols with
  | nil =>
      intro line h
      contradiction
  | cons s symbols =>
      intro line h
      obtain rfl := Option.some.inj h
      apply s.not_isLocation_nameLine

/-- The rows of `symbols` have the entries of the symbols. -/
theorem collapse_flatMap_rows (symbols : List FrameSymbol) :
  collapse none ((symbols.flatMap rows).map Prod.snd) = symbols.map entry
  := by
  induction symbols with
  | nil => rfl
  | cons s symbols ih =>
      rw [List.flatMap_cons, List.map_append,
        s.collapse_rows (not_isLocation_head?_rows symbols), ih, List.map_cons]

theorem trimmedLines_print (symbols : List FrameSymbol) :
  trimmedLines (symbols.flatMap print) = (symbols.flatMap rows).map Prod.snd
  := by
  have hprint : symbols.flatMap print = (symbols.flatMap rows).flatMap printRow :=
    List.flatMap_assoc.symm
  rw [hprint]
  apply trimmedLines_rows
  intro row hrow
  obtain ⟨s, -, hmem⟩ := List.mem_flatMap.mp hrow
  apply s.isTrimmed_of_mem_rows hmem

end FrameSymbol

/-- The entries of a backtrace are those of its `trimmedLines`, in their order: a symbol has one,
with the location that comes directly after it if there is one, and a location has one unless it
comes directly after a symbol.  A backtrace in which `symbols` are printed has one entry for each
of them, its `FrameSymbol.entry`. -/
theorem entries_eq_entriesAfter :
  ∃ name : List Char → List Char, (∀ line, Gives line (name line))
    ∧ (∀ backtrace, entries backtrace
      = (entriesAfter name none (trimmedLines backtrace.toList)).map String.ofList)
    ∧ ∀ symbols : List FrameSymbol, entries (String.ofList (symbols.flatMap FrameSymbol.print))
      = symbols.map fun s => String.ofList s.entry
  := by
  use symbol
  constructor
  · apply gives_symbol
  · constructor
    · intro backtrace
      rw [entries, (collapse_eq_entriesAfter _).1 none fun _ h => nomatch h]
    · intro symbols
      rw [entries, String.toList_ofList, FrameSymbol.trimmedLines_print,
        FrameSymbol.collapse_flatMap_rows, List.map_map]
      rfl

-- a stray location, and symbols with and without an index and a location
example :
  entries "  at a:1\n\n   0: f::g\r\n        at b: 2:3:4\n      1x\n  at c:5\n  at d:6\n  7: 8: h"
    = ["a:1", "f::g(b: 2:3:4)", "1x(c:5)", "d:6", "8: h"]
  := by
  decide +kernel

end LogRendering.Frame
