import LogRendering.Json.Text
import LogRendering.Proofs.Json.Grammar
import Mathlib.Data.List.Forall2

/-!
# What stands between quotes

Between quotes a character stands for itself, or an escape stands for it: one letter, a code
unit in hexadecimal digits, or two such units that are a surrogate pair.  What stands between
quotes denotes one text, and ends at the first quote.  A quoted text denotes the text that
was quoted.
-/

namespace LogRendering.Json

variable {cs cs' rest rest' : List Char} {c c' : Char}

/-! ### Code units -/

/-- The characters `digits` are four hexadecimal digits of the value `unit`. -/
def IsCodeUnit (digits : List Char) (unit : Nat) : Prop :=
  ∃ a b c d, digits.map Reader.hexValue? = [some a, some b, some c, some d]
    ∧ unit = ((a * 16 + b) * 16 + c) * 16 + d

/-- The code unit is the first one of a surrogate pair. -/
def IsHighSurrogate (unit : Nat) : Prop :=
  0xD800 ≤ unit ∧ unit ≤ 0xDBFF

/-- The code unit is the second one of a surrogate pair. -/
def IsLowSurrogate (unit : Nat) : Prop :=
  0xDC00 ≤ unit ∧ unit ≤ 0xDFFF

theorem isHexDigit_of_hexValue? {n : Nat} (h : Reader.hexValue? c = some n) :
  IsHexDigit c
  := by
  unfold Reader.hexValue? at h
  simp only [Bool.and_eq_true, decide_eq_true_eq] at h
  unfold IsHexDigit
  split at h
  next hdigit =>
    left
    simp only [Char.isDigit, Bool.and_eq_true, decide_eq_true_eq]
    exact hdigit
  next =>
    split at h
    next hlower => exact Or.inr (Or.inl hlower)
    next =>
      split at h
      next hupper => exact Or.inr (Or.inr hupper)
      next => cases h

theorem hexValue?_hexDigit {n : Nat} (h : n < 16) :
  Reader.hexValue? (hexDigit n) = some n
  := by
  have hall : ∀ k < 16, Reader.hexValue? (hexDigit k) = some k := by decide
  exact hall n h

namespace IsCodeUnit

variable {digits digits' : List Char} {unit unit' : Nat}

theorem length_eq (h : IsCodeUnit digits unit) :
  digits.length = 4
  := by
  obtain ⟨a, b, c, d, hmap, -⟩ := h
  rw [← List.length_map (f := Reader.hexValue?), hmap]
  rfl

theorem isHexDigit (h : IsCodeUnit digits unit) (hmem : c ∈ digits) :
  IsHexDigit c
  := by
  obtain ⟨a, b, c', d, hmap, -⟩ := h
  have hvalue : Reader.hexValue? c ∈ [some a, some b, some c', some d] := by
    rw [← hmap]
    exact List.mem_map_of_mem hmem
  have hsome : ∃ n, Reader.hexValue? c = some n := by
    simp only [List.mem_cons, List.not_mem_nil, or_false] at hvalue
    obtain hvalue | hvalue | hvalue | hvalue := hvalue
    all_goals exact ⟨_, hvalue⟩
  obtain ⟨n, hn⟩ := hsome
  exact isHexDigit_of_hexValue? hn

theorem unique (h : IsCodeUnit digits unit) (h' : IsCodeUnit digits' unit')
    (heq : digits ++ rest = digits' ++ rest') :
  unit = unit' ∧ rest = rest'
  := by
  obtain ⟨rfl, hrest⟩ := List.append_inj heq (h.length_eq.trans h'.length_eq.symm)
  obtain ⟨a, b, c, d, hmap, rfl⟩ := h
  obtain ⟨a', b', c', d', hmap', rfl⟩ := h'
  rw [hmap] at hmap'
  simp only [List.cons.injEq, Option.some.injEq, and_true] at hmap'
  obtain ⟨rfl, rfl, rfl, rfl⟩ := hmap'
  exact ⟨rfl, hrest⟩

end IsCodeUnit

/-! ### Escapes -/

/-- The characters after a backslash stand for the character: a `shortEscape?`, a code unit that
is no surrogate, or a pair of surrogates. -/
inductive IsEscape : List Char → Char → Prop where
  | letter {letter c : Char} (h : Reader.shortEscape? letter = some c) : IsEscape [letter] c
  | codeUnit {digits : List Char} {unit : Nat} (h : IsCodeUnit digits unit)
    (hhigh : ¬ IsHighSurrogate unit) (hlow : ¬ IsLowSurrogate unit) :
    IsEscape ('u' :: digits) (Char.ofNat unit)
  | pair {digits digits' : List Char} {high low : Nat} (h : IsCodeUnit digits high)
    (h' : IsCodeUnit digits' low) (hhigh : IsHighSurrogate high) (hlow : IsLowSurrogate low) :
    IsEscape ('u' :: (digits ++ '\\' :: 'u' :: digits'))
      (Char.ofNat (0x10000 + (high - 0xD800) * 0x400 + (low - 0xDC00)))

namespace IsEscape

theorem isQuotable (h : IsEscape cs c) (hrest : IsQuotable rest) :
  IsQuotable ('\\' :: (cs ++ rest))
  := by
  cases h with
  | letter h =>
      apply IsQuotable.letter _ hrest
      unfold Reader.shortEscape? at h
      split at h
      case h_9 => cases h
      all_goals decide
  | codeUnit h hhigh hlow =>
      apply IsQuotable.codeUnit _ h.length_eq _ hrest
      exact fun _ => h.isHexDigit
  | pair h h' hhigh hlow =>
      rw [List.cons_append, List.append_assoc]
      apply IsQuotable.codeUnit _ h.length_eq (fun _ => h.isHexDigit)
      apply IsQuotable.codeUnit _ h'.length_eq (fun _ => h'.isHexDigit) hrest

/-- An escape of one letter does not begin like a code unit. -/
theorem letter_cons_ne {letter : Char} (h : Reader.shortEscape? letter = some c) :
  letter :: rest ≠ 'u' :: rest'
  := by
  intro heq
  rw [(List.cons.inj heq).1] at h
  cases h

/-- An escape, whatever follows it, stands for no other character. -/
theorem unique (h : IsEscape cs c) (h' : IsEscape cs' c') (heq : cs ++ rest = cs' ++ rest') :
  c = c' ∧ rest = rest'
  := by
  cases h with
  | letter h =>
      cases h' with
      | letter h' =>
          obtain ⟨rfl, hrest⟩ := List.cons.inj heq
          exact ⟨Option.some.inj (h.symm.trans h'), hrest⟩
      | codeUnit => exact absurd heq (letter_cons_ne h)
      | pair => exact absurd heq (letter_cons_ne h)
  | codeUnit h hhigh hlow =>
      cases h' with
      | letter h' => exact absurd heq.symm (letter_cons_ne h')
      | codeUnit h' =>
          obtain ⟨rfl, hrest⟩ := h.unique h' (List.cons.inj heq).2
          exact ⟨rfl, hrest⟩
      | pair h' hlast' hhigh' =>
          rw [List.cons_append, List.cons_append, List.append_assoc] at heq
          obtain ⟨rfl, -⟩ := h.unique h' (List.cons.inj heq).2
          exact absurd hhigh' hhigh
  | pair h hlast hhigh hlow =>
      cases h' with
      | letter h' => exact absurd heq.symm (letter_cons_ne h')
      | codeUnit h' hhigh' =>
          rw [List.cons_append, List.append_assoc] at heq
          obtain ⟨rfl, -⟩ := h.unique h' (List.cons.inj heq).2
          exact absurd hhigh hhigh'
      | pair h' hlast' =>
          simp only [List.cons_append, List.append_assoc] at heq
          obtain ⟨rfl, hends⟩ := h.unique h' (List.cons.inj heq).2
          obtain ⟨rfl, hrest⟩ := hlast.unique hlast' (List.cons.inj (List.cons.inj hends).2).2
          exact ⟨rfl, hrest⟩

end IsEscape

/-! ### Characters -/

/-- The characters between quotes stand for the character: itself, or an `IsEscape` after a
backslash. -/
inductive QuotesChar : List Char → Char → Prop where
  | itself {c : Char} (hcontrol : 0x20 ≤ c.toNat) (hquote : c ≠ '"') (hbackslash : c ≠ '\\') :
    QuotesChar [c] c
  | escaped {cs : List Char} {c : Char} (h : IsEscape cs c) : QuotesChar ('\\' :: cs) c

namespace QuotesChar

theorem isQuotable (h : QuotesChar cs c) (hrest : IsQuotable rest) :
  IsQuotable (cs ++ rest)
  := by
  cases h with
  | itself hcontrol hquote hbackslash => exact .char hcontrol hquote hbackslash hrest
  | escaped h => exact h.isQuotable hrest

/-- Characters that satisfy `QuotesChar` do not begin with a quote. -/
theorem ne_quote (h : QuotesChar cs c) :
  cs ++ rest ≠ '"' :: rest'
  := by
  intro heq
  cases h with
  | itself hcontrol hquote hbackslash => exact hquote (List.cons.inj heq).1
  | escaped h => exact absurd (List.cons.inj heq).1 (by decide)

/-- Characters that satisfy `QuotesChar`, whatever follows them, stand for no other character. -/
theorem unique (h : QuotesChar cs c) (h' : QuotesChar cs' c')
    (heq : cs ++ rest = cs' ++ rest') :
  c = c' ∧ rest = rest'
  := by
  cases h with
  | itself hcontrol hquote hbackslash =>
      cases h' with
      | itself => exact List.cons.inj heq
      | escaped => exact absurd (List.cons.inj heq).1 hbackslash
  | escaped h =>
      cases h' with
      | itself hcontrol' hquote' hbackslash' =>
          exact absurd (List.cons.inj heq).1.symm hbackslash'
      | escaped h' => exact h.unique h' (List.cons.inj heq).2

theorem of_escapeChar (c : Char) :
  QuotesChar (escapeChar c) c
  := by
  unfold escapeChar
  split
  case h_8 hquote hbackslash _ _ _ _ _ =>
    split
    case isTrue hcontrol =>
      have hunit : IsCodeUnit ['0', '0', hexDigit (c.toNat / 16), hexDigit (c.toNat % 16)]
          c.toNat := by
        refine ⟨0, 0, c.toNat / 16, c.toNat % 16, ?_, by omega⟩
        simp only [List.map_cons, List.map_nil]
        rw [hexValue?_hexDigit (by omega), hexValue?_hexDigit (by omega)]
        rfl
      have hescape := IsEscape.codeUnit hunit (fun h => by have := h.1; omega)
        (fun h => by have := h.1; omega)
      rw [Char.ofNat_toNat] at hescape
      exact escaped hescape
    case isFalse hcontrol => exact itself (Nat.le_of_not_lt hcontrol) hquote hbackslash
  all_goals exact escaped (.letter rfl)

end QuotesChar

/-! ### Texts -/

/-- The characters `cs` between quotes stand for the characters of `text`. -/
def Quotes (cs text : List Char) : Prop :=
  ∃ parts, List.Forall₂ QuotesChar parts text ∧ cs = parts.flatten

namespace Quotes

variable {text text' : List Char}

theorem isQuotable (h : Quotes cs text) :
  IsQuotable cs
  := by
  obtain ⟨parts, hparts, rfl⟩ := h
  induction hparts with
  | nil => exact .nil
  | cons hpart hparts ih =>
      rw [List.flatten_cons]
      exact hpart.isQuotable ih

/-- What stands between quotes denotes one `text`, and ends at the first quote. -/
theorem unique (h : Quotes cs text) (h' : Quotes cs' text')
    (heq : cs ++ '"' :: rest = cs' ++ '"' :: rest') :
  text = text' ∧ rest = rest'
  := by
  obtain ⟨parts, hparts, rfl⟩ := h
  obtain ⟨parts', hparts', rfl⟩ := h'
  induction hparts generalizing text' parts' with
  | nil =>
      cases hparts' with
      | nil => exact ⟨rfl, (List.cons.inj heq).2⟩
      | cons hpart' hparts' =>
          rw [List.flatten_cons, List.append_assoc] at heq
          exact absurd heq.symm hpart'.ne_quote
  | cons hpart hparts ih =>
      rw [List.flatten_cons, List.append_assoc] at heq
      cases hparts' with
      | nil => exact absurd heq hpart.ne_quote
      | cons hpart' hparts' =>
          rw [List.flatten_cons, List.append_assoc] at heq
          obtain ⟨rfl, hends⟩ := hpart.unique hpart' heq
          obtain ⟨rfl, hrest⟩ := ih _ hparts' hends
          exact ⟨rfl, hrest⟩

theorem flatMap_escapeChar (text : List Char) :
  Quotes (text.flatMap escapeChar) text
  := by
  refine ⟨text.map escapeChar, ?_, List.flatMap_def⟩
  rw [List.forall₂_map_left_iff, List.forall₂_same]
  exact fun c _ => .of_escapeChar c

end Quotes

end LogRendering.Json
