import LogRendering.Proofs.Message.Placeholders

/-!
# Patterns without placeholders

A pattern in which no opening bracket is directly followed by a closing one takes nothing from
its arguments.  Cut at every backslash that stands directly before an opening bracket, it has
pieces with a backslash and a bracket between them, and its text has the same pieces with the
bracket alone between them.  So such a pattern is its own text if and only if it has no backslash
before a bracket.
-/

namespace LogRendering

/-! ### Pieces with a separator between them -/

/-- What stands before the first `piece` belongs to it. -/
theorem cons_intercalate {α : Type} (a : α) (separator piece : List α) (pieces : List (List α)) :
  a :: separator.intercalate (piece :: pieces) = separator.intercalate ((a :: piece) :: pieces)
  := by
  cases pieces with
  | nil => rw [List.intercalate_singleton, List.intercalate_singleton]
  | cons next pieces =>
      rw [List.intercalate_cons_cons, List.intercalate_cons_cons]
      rfl

/-- A `separator` that is longer by one makes the text longer by one for each piece but the
first. -/
theorem length_intercalate_cons {α : Type} (a : α) (separator piece : List α)
    (pieces : List (List α)) :
  ((a :: separator).intercalate (piece :: pieces)).length
    = (separator.intercalate (piece :: pieces)).length + pieces.length
  := by
  induction pieces generalizing piece with
  | nil => simp
  | cons next pieces ih =>
      rw [List.intercalate_cons_cons, List.intercalate_cons_cons]
      simp only [List.length_append, List.length_cons, ih]
      omega

/-- A text of at least two pieces has `separator` in it. -/
theorem separator_infix_intercalate {α : Type} (separator piece next : List α)
    (pieces : List (List α)) :
  separator <:+: separator.intercalate (piece :: next :: pieces)
  := by
  rw [List.intercalate_cons_cons]
  exact ⟨piece, separator.intercalate (next :: pieces), rfl⟩

/-! ### Pieces of patterns -/

namespace ParameterizedMessage

/-- The `pieces` of a pattern and their text: no piece has a backslash before an opening bracket,
the pattern has the two between the pieces, and the text has the bracket alone. -/
structure IsCutInto (pattern : List Char) (pieces : List (List Char)) (text : List Char) :
    Prop where
  plain : ∀ piece ∈ pieces, ¬ ['\\', '{'] <:+: piece
  pattern_eq : pattern = ['\\', '{'].intercalate pieces
  text_eq : text = ['{'].intercalate pieces

variable {pattern : List Char} {tokens : List PatternToken}

/-- A `pattern` without placeholders is read as the characters of the text of its pieces. -/
theorem IsReadAs.exists_isCutInto (h : IsReadAs pattern tokens)
    (hplain : ¬ ['{', '}'] <:+: pattern) :
  ∃ piece pieces text, IsCutInto pattern (piece :: pieces) text ∧ tokens = text.map .char
  := by
  induction h with
  | nil => exact ⟨[], [], [], ⟨by simp, rfl, rfl⟩, rfl⟩
  | @escape rest tokens h ih =>
      obtain ⟨piece, pieces, text, hcut, rfl⟩ := ih fun hrest =>
        hplain (List.infix_cons (List.infix_cons hrest))
      refine ⟨[], piece :: pieces, '{' :: text, ⟨?_, ?_, ?_⟩, rfl⟩
      · rw [List.forall_mem_cons]
        exact ⟨by simp, hcut.plain⟩
      · rw [List.intercalate_cons_cons, ← hcut.pattern_eq]
        rfl
      · rw [List.intercalate_cons_cons, ← hcut.text_eq]
        rfl
  | placeholder h ih => exact absurd (List.prefix_append _ _).isInfix hplain
  | @char c rest tokens hescape hplaceholder h ih =>
      obtain ⟨piece, pieces, text, hcut, rfl⟩ := ih fun hrest => hplain (List.infix_cons hrest)
      obtain ⟨hpiece, hpieces⟩ := List.forall_mem_cons.mp hcut.plain
      refine ⟨c :: piece, pieces, c :: text, ⟨?_, ?_, ?_⟩, rfl⟩
      · rw [List.forall_mem_cons]
        refine ⟨?_, hpieces⟩
        rw [List.infix_cons_iff]
        rintro (hhead | hinfix)
        · -- a backslash in front of this piece would have been read together with the bracket
          obtain ⟨hc, more, hmore⟩ := List.cons_prefix_cons.mp hhead
          apply hescape hc.symm
          rw [hcut.pattern_eq, ← hmore, List.singleton_append, ← cons_intercalate]
          rfl
        · exact hpiece hinfix
      · rw [hcut.pattern_eq, cons_intercalate]
      · rw [hcut.text_eq, cons_intercalate]

/-- A `pattern` and the text of its pieces are the same if and only if the pattern is one
piece. -/
theorem IsCutInto.eq_pattern_iff {piece text : List Char} {pieces : List (List Char)}
    (h : IsCutInto pattern (piece :: pieces) text) :
  text = pattern ↔ ¬ ['\\', '{'] <:+: pattern
  := by
  constructor
  · intro heq
    have hlength := length_intercalate_cons '\\' ['{'] piece pieces
    rw [← h.pattern_eq, ← h.text_eq, heq, Nat.left_eq_add, List.length_eq_zero_iff] at hlength
    subst hlength
    rw [h.pattern_eq, List.intercalate_singleton]
    exact h.plain piece (List.mem_singleton_self piece)
  · intro hplain
    cases pieces with
    | nil => rw [h.pattern_eq, h.text_eq, List.intercalate_singleton, List.intercalate_singleton]
    | cons next pieces =>
        rw [h.pattern_eq] at hplain
        exact absurd (separator_infix_intercalate _ piece next pieces) hplain

/-- A pattern without placeholders has a text with any arguments, and `IsCutInto` pieces of which
this is the text.  It is the pattern itself if and only if the pattern has no backslash before an
opening bracket. -/
theorem text_eq_pattern_iff (m : ParameterizedMessage)
    (h : ¬ ['{', '}'] <:+: m.pattern.toList) :
  (∃ pieces text, IsCutInto m.pattern.toList pieces text ∧ m.text = .ok (String.ofList text))
    ∧ (m.text = .ok m.pattern ↔ ¬ ['\\', '{'] <:+: m.pattern.toList)
  := by
  obtain ⟨piece, pieces, text, hcut, htokens⟩ :=
    IsReadAs.exists_isCutInto (isReadAs_patternTokens m.pattern.toList) h
  have htext : m.text = .ok (String.ofList text) := by
    rw [ParameterizedMessage.text, addTo, htokens, addTokens_chars, String.empty_append]
    rfl
  constructor
  · exact ⟨piece :: pieces, text, hcut, htext⟩
  · rw [htext, Except.ok.injEq, ← String.toList_inj, String.toList_ofList,
      hcut.eq_pattern_iff]

/-- A message with the shape of a regular expression, of which the argument fails. -/
def countedMessage : ParameterizedMessage :=
  ⟨"\\w\x7b2\x7d\\\x7bx\x7d\\", [.other ⟨"", .failed⟩]⟩

/-- The pattern of `countedMessage` is cut into its pieces. -/
theorem text_eq_pattern_iff_countedMessage :
  ¬ ['{', '}'] <:+: countedMessage.pattern.toList
    ∧ (∃ pieces text, IsCutInto countedMessage.pattern.toList pieces text
      ∧ countedMessage.text = .ok (String.ofList text))
    ∧ (countedMessage.text = .ok countedMessage.pattern
      ↔ ¬ ['\\', '{'] <:+: countedMessage.pattern.toList)
  := by
  have hplain : ¬ ['{', '}'] <:+: countedMessage.pattern.toList := by decide +kernel
  exact ⟨hplain, text_eq_pattern_iff countedMessage hplain⟩

/-- The pattern in which a backslash stands before a bracket that begins no placeholder. -/
def bracePattern : String :=
  "\\\x7bx"

/-- The pattern `bracePattern`, which has no placeholders, loses its backslash. -/
theorem backslash_lost_bracePattern :
  ¬ ['{', '}'] <:+: bracePattern.toList
    ∧ text ⟨bracePattern, []⟩ = .ok "\x7bx" ∧ text ⟨bracePattern, []⟩ ≠ .ok bracePattern
  := by
  have htext : text ⟨bracePattern, []⟩ = .ok "\x7bx" := by decide +kernel
  refine ⟨by decide +kernel, htext, ?_⟩
  rw [htext]
  decide +kernel

end ParameterizedMessage

end LogRendering
