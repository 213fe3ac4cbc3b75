import LogRendering.Proofs.Text.Division
import LogRendering.Text.Blank

/-!
# Trimmed lines

A text is trimmed if it neither begins nor ends with a blank character.  The lines of a text in
which trimmed lines stand behind blanks are these lines, once they are trimmed.
-/

namespace LogRendering.Text

/-! ### Trimmed texts -/

theorem not_isBlank_of_head?_dropWhile {cs : List Char} {c : Char}
    (h : (cs.dropWhile isBlank).head? = some c) :
  isBlank c = false
  := by
  have hhead := List.head?_dropWhile_not isBlank cs
  rw [h] at hhead
  simpa using hhead

theorem dropWhile_isBlank_eq_self {cs : List Char} (h : ∀ c ∈ cs.head?, isBlank c = false) :
  cs.dropWhile isBlank = cs
  := by
  cases cs with
  | nil => rfl
  | cons c cs =>
      apply List.dropWhile_cons_of_neg
      rw [h c rfl]
      exact Bool.false_ne_true

/-- A text that `trim` leaves as it is does not end in a blank. -/
theorem not_isBlank_of_trim_eq {cs : List Char} (h : trim cs = cs) {c : Char}
    (hc : cs.getLast? = some c) :
  isBlank c = false
  := by
  rw [← h, trim, List.getLast?_reverse] at hc
  exact not_isBlank_of_head?_dropWhile hc

theorem trim_eq_self {cs : List Char} (hhead : ∀ c ∈ cs.head?, isBlank c = false)
    (hlast : ∀ c ∈ cs.getLast?, isBlank c = false) :
  trim cs = cs
  := by
  have hreverse : ∀ c ∈ cs.reverse.head?, isBlank c = false := by
    rw [List.head?_reverse]
    exact hlast
  rw [trim, dropWhile_isBlank_eq_self hhead, dropWhile_isBlank_eq_self hreverse,
    List.reverse_reverse]

/-- The `blanks` in front of a text are trimmed. -/
theorem trim_append {blanks : List Char} (h : ∀ c ∈ blanks, isBlank c = true) (cs : List Char) :
  trim (blanks ++ cs) = trim cs
  := by
  rw [trim, trim, List.dropWhile_append_of_pos h]

/-! ### Lines -/

/-- The first of the `segments` of a text runs up to its line feed. -/
theorem segments_line {line : List Char} (h : '\n' ∉ line) (rest : List Char) :
  segments (line ++ '\n' :: rest) = (line ++ ['\n']) :: segments rest
  := by
  induction line with
  | nil => rw [List.nil_append, segments, if_pos rfl, List.nil_append]
  | cons c line ih =>
      have hc : c ≠ '\n' := Ne.symm (List.ne_of_not_mem_cons h)
      rw [List.cons_append, segments, if_neg hc, ih (List.not_mem_of_not_mem_cons h)]
      rfl

theorem lines_line {line : List Char} (h : '\n' ∉ line) (rest : List Char) :
  lines (line ++ '\n' :: rest) = withoutFinal '\r' line :: lines rest
  := by
  rw [lines, segments_line h, List.map_cons, lineContent_append_feed]
  rfl

end LogRendering.Text
