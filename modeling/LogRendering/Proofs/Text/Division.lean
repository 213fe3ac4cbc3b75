import LogRendering.Text.Line
import Mathlib.Tactic.Use

/-!
# Division into lines

A sequence is divided at every occurrence of a separator: into complete lines, each of which
a separator ends, and what is left after the last of them.  The content of a line is the line
without the line feed at its end, and without a carriage return directly before that.
-/

namespace LogRendering

/-! ### Lines and what is left -/

/-- The sequence `xs` consists of the `lines`, a `separator` after each, and of the `rest`; there
is no other separator in it. -/
structure IsDivided {α : Type} (separator : α) (xs : List α) (lines : List (List α))
    (rest : List α) : Prop where
  eq_append : xs = lines.flatMap (· ++ [separator]) ++ rest
  notMem_line : ∀ line ∈ lines, separator ∉ line
  notMem_rest : separator ∉ rest

variable {α : Type} [DecidableEq α]

/-- Every sequence is divided into lines. -/
theorem exists_isDivided (separator : α) (xs : List α) :
  ∃ lines rest, IsDivided separator xs lines rest
  := by
  induction xs with
  | nil => exact ⟨[], [], rfl, List.forall_mem_nil _, List.not_mem_nil⟩
  | cons x xs ih =>
      obtain ⟨lines, rest, rfl, hlines, hrest⟩ := ih
      by_cases hx : x = separator
      · obtain rfl := hx
        use [] :: lines, rest
        exact ⟨rfl, List.forall_mem_cons.mpr ⟨List.not_mem_nil, hlines⟩, hrest⟩
      · cases lines with
        | nil =>
            use [], x :: rest
            exact ⟨rfl, hlines, List.not_mem_cons_of_ne_of_not_mem (Ne.symm hx) hrest⟩
        | cons line lines =>
            obtain ⟨hline, hlines⟩ := List.forall_mem_cons.mp hlines
            use (x :: line) :: lines, rest
            refine ⟨rfl, List.forall_mem_cons.mpr ⟨?_, hlines⟩, hrest⟩
            exact List.not_mem_cons_of_ne_of_not_mem (Ne.symm hx) hline

omit [DecidableEq α] in
/-- Nothing is left of a sequence that ends in `separator`. -/
theorem IsDivided.rest_eq_nil
    {separator : α} {xs : List α} {lines : List (List α)} {rest : List α}
    (h : IsDivided separator xs lines rest) (hends : xs.getLast? = some separator) :
  rest = []
  := by
  obtain rfl | ⟨front, last, rfl⟩ := List.eq_nil_or_concat rest
  · rfl
  · rw [h.eq_append, List.concat_eq_append, ← List.append_assoc, List.getLast?_concat] at hends
    obtain rfl := Option.some.inj hends
    apply absurd _ h.notMem_rest
    rw [List.concat_eq_append]
    exact List.mem_append_right _ (List.mem_singleton_self last)

/-- The sequence without `x` at its end. -/
def withoutFinal (x : α) (xs : List α) : List α :=
  if xs.getLast? = some x then xs.dropLast else xs

theorem withoutFinal_append_singleton (x : α) (xs : List α) :
  withoutFinal x (xs ++ [x]) = xs
  := by
  rw [withoutFinal, if_pos List.getLast?_concat, List.dropLast_concat]

theorem withoutFinal_of_ne {x : α} {xs : List α} (h : xs.getLast? ≠ some x) :
  withoutFinal x xs = xs
  := if_neg h

/-- A sequence is `withoutFinal x` of it, or that with `x` at the end. -/
theorem eq_withoutFinal_or (x : α) (xs : List α) :
  withoutFinal x xs = xs ∨ xs = withoutFinal x xs ++ [x]
  := by
  by_cases h : xs.getLast? = some x
  · obtain ⟨front, rfl⟩ := List.getLast?_eq_some_iff.mp h
    rw [withoutFinal_append_singleton]
    exact Or.inr rfl
  · exact Or.inl (withoutFinal_of_ne h)

theorem notMem_withoutFinal {x y : α} {xs : List α} (h : y ∉ xs) :
  y ∉ withoutFinal x xs
  := by
  unfold withoutFinal
  split
  · exact fun hmem => h (List.dropLast_subset xs hmem)
  · exact h

theorem withoutFinal_cons_cons (x y z : α) (xs : List α) :
  withoutFinal x (y :: z :: xs) = y :: withoutFinal x (z :: xs)
  := by
  rw [withoutFinal, withoutFinal, List.getLast?_cons_cons, List.dropLast_cons_cons]
  split
  · rfl
  · rfl

namespace Text

/-! ### Contents of lines -/

/-- The content of a `line` that a line feed ends. -/
theorem lineContent_append_feed (line : List Char) :
  lineContent (line ++ ['\n']) = withoutFinal '\r' line
  := by
  have hreverse : (line ++ ['\n']).reverse = '\n' :: line.reverse := List.reverse_append
  obtain hsame | hreturn := eq_withoutFinal_or '\r' line
  · unfold lineContent
    split
    next rest h =>
      rw [hreverse] at h
      have hline : line = rest.reverse ++ ['\r'] := by
        rw [← List.reverse_reverse line, (List.cons.inj h).2, List.reverse_cons]
      rw [hline, withoutFinal_append_singleton]
    next rest h =>
      rw [hreverse] at h
      rw [hsame, ← (List.cons.inj h).2, List.reverse_reverse]
    next h =>
      exact absurd hreverse (h _)
  · rw [hreturn, withoutFinal_append_singleton, lineContent, List.append_assoc,
      List.reverse_append]
    show (withoutFinal '\r' line).reverse.reverse = _
    rw [List.reverse_reverse]

/-- The content of a `line` that no line feed ends is the line. -/
theorem lineContent_eq_self {line : List Char} (h : '\n' ∉ line) :
  lineContent line = line
  := by
  have hne : ∀ rest, line.reverse ≠ '\n' :: rest := by
    intro rest heq
    apply h
    rw [← List.mem_reverse, heq]
    exact List.mem_cons_self
  unfold lineContent
  split
  next rest heq => exact absurd heq (hne _)
  next rest heq => exact absurd heq (hne _)
  next => rfl

/-! ### Line breaks of one kind -/

/-- The text with a line feed in place of every carriage return and line feed. -/
def withPlainBreaks : List Char → List Char
  | [] => []
  | '\r' :: '\n' :: rest => '\n' :: withPlainBreaks rest
  | c :: rest => c :: withPlainBreaks rest

theorem withPlainBreaks_cons_of_ne {c d : Char} (rest : List Char) (hd : d ≠ '\n') :
  withPlainBreaks (c :: d :: rest) = c :: withPlainBreaks (d :: rest)
  := by
  rw [withPlainBreaks]
  rintro rest rfl heq
  exact hd (List.cons.inj heq).1

/-- A line feed stays in `withPlainBreaks`, and a carriage return before it goes. -/
theorem withPlainBreaks_line {line : List Char} (h : '\n' ∉ line) (rest : List Char) :
  withPlainBreaks (line ++ '\n' :: rest) = withoutFinal '\r' line ++ '\n' :: withPlainBreaks rest
  := by
  induction line with
  | nil => rfl
  | cons c line ih =>
      cases line with
      | nil =>
          by_cases hc : c = '\r'
          · obtain rfl := hc
            rfl
          · have hends : [c].getLast? ≠ some '\r' := fun heq => hc (Option.some.inj heq)
            rw [withoutFinal_of_ne hends, List.singleton_append, withPlainBreaks]
            · rfl
            · rintro rest rfl
              contradiction
      | cons d line =>
          have hd : d ≠ '\n' := by
            rintro rfl
            apply h
            exact List.mem_cons_of_mem _ List.mem_cons_self
          rw [List.cons_append, List.cons_append, withPlainBreaks_cons_of_ne _ hd,
            withoutFinal_cons_cons, List.cons_append, ← ih (List.not_mem_of_not_mem_cons h)]
          rfl

end Text

end LogRendering
