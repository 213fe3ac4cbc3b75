import LogRendering.Proofs.Charset.Decoding
import LogRendering.Proofs.Html.Lexeme

/-!
# Replaced characters in HTML

What remains of an HTML text in a charset that does not represent all of its characters.  The
text of tokens with characters replaced is the text of the same tokens with the characters of
their contents replaced, since the characters of markup are represented in every charset.  So
a reader finds the same tags and attributes, and only values and characters outside tags differ.
-/

namespace LogRendering.Html

open Charset

variable {charset : Charset}

/-! ### Escaped text -/

theorem escapeChar_of_le {c : Char} (h : 0x80 ≤ c.toNat) :
  escapeChar c = [c]
  := by
  unfold escapeChar
  split
  case h_6 => rfl
  all_goals
    revert h
    decide

/-- What `escapeChar` changes is made of characters of ASCII. -/
theorem eq_or_lt_of_mem_escapeChar {c d : Char} (h : d ∈ escapeChar c) :
  d = c ∨ d.toNat < 0x80
  := by
  unfold escapeChar at h
  split at h
  case h_6 =>
    left
    apply List.mem_singleton.mp h
  all_goals
    right
    revert d
    simp

theorem escapeChar_replaceChar (charset : Charset) (c : Char) :
  escapeChar (charset.replaceChar c) = (escapeChar c).map charset.replaceChar
  := by
  obtain hc | ⟨hge, hc⟩ := charset.replaceChar_eq_or c
  · have hkept : ∀ d ∈ escapeChar c, charset.replaceChar d = d := by
      intro d hd
      obtain rfl | hlt := eq_or_lt_of_mem_escapeChar hd
      · apply hc
      · apply replaceChar_of_lt hlt
    rw [hc, List.map_congr_left hkept, List.map_id']
  · rw [escapeChar_of_le hge, List.map_singleton, hc]
    rfl

/-- Characters may be replaced before `escape` or after it. -/
theorem escape_replaceAll (charset : Charset) (s : String) :
  escape (charset.replaceAll s) = charset.replaceAll (escape s)
  := by
  rw [escape, toList_replaceAll, replaceAll, escape, String.toList_ofList, List.map_flatMap,
    List.flatMap_map]
  simp only [escapeChar_replaceChar]

/-! ### Tokens -/

theorem lt_of_isAlphanum {c : Char} (h : c.isAlphanum ∨ c = '-') :
  c.toNat < 0x80
  := by
  have hbound : ∀ d : Char, d.toNat < 0x80 → c.val ≤ d.val → c.toNat < 0x80 := by
    intro d hd hle
    apply Nat.lt_of_le_of_lt (UInt32.le_iff_toNat_le.mp hle) hd
  obtain h | rfl := h
  · obtain hletter | hdigit := Bool.or_eq_true_iff.mp h
    · obtain hupper | hlower := Bool.or_eq_true_iff.mp hletter
      · obtain ⟨-, hle⟩ := of_decide_eq_true hupper
        apply hbound 'Z' (by decide) hle
      · obtain ⟨-, hle⟩ := Bool.and_eq_true_iff.mp hlower
        apply hbound 'z' (by decide) (of_decide_eq_true hle)
    · obtain ⟨-, hle⟩ := Bool.and_eq_true_iff.mp hdigit
      apply hbound '9' (by decide) (of_decide_eq_true hle)
  · decide

/-- A text that `IsName` is represented in every charset. -/
theorem IsName.replaceAll {s : String} (h : IsName s) (charset : Charset) :
  charset.replaceAll s = s
  := replaceAll_of_isAscii (fun c hc => lt_of_isAlphanum (h.2 c hc)) charset

/-- The attribute with `replaceAll` of its value. -/
def Attribute.replaced (charset : Charset) (a : Attribute) : Attribute :=
  ⟨a.name, a.value.map charset.replaceAll⟩

/-- The token with `replaceAll` of its content and values, but not of its names. -/
def Token.replaced (charset : Charset) : Token → Token
  | .opening name attributes => .opening name (attributes.map (Attribute.replaced charset))
  | .closing name => .closing name
  | .text content => .text (charset.replaceAll content)
  | .hardSpace => .hardSpace
  | .declaration content => .declaration (charset.replaceAll content)
  | .comment content => .comment (charset.replaceAll content)

theorem Attribute.render_replaced {a : Attribute} (h : IsName a.name) :
  (a.replaced charset).render = charset.replaceAll a.render
  := by
  unfold replaced render
  cases a.value with
  | none =>
      simp (disch := decide) only [Option.map_none, replaceAll_append, replaceAll_of_isAscii,
        h.replaceAll]
  | some value =>
      simp (disch := decide) only [Option.map_some, replaceAll_append, replaceAll_of_isAscii,
        h.replaceAll, escape_replaceAll]

/-- The text of a token that `IsLegible` keeps its markup when characters are replaced. -/
theorem Token.render_replaced {t : Token} (h : t.IsLegible) :
  (t.replaced charset).render = charset.replaceAll t.render
  := by
  cases t with
  | opening name attributes =>
      obtain ⟨hname, hattributes⟩ := h
      have hrender : attributes.map (fun a => (a.replaced charset).render)
          = attributes.map fun a => charset.replaceAll a.render := by
        apply List.map_congr_left
        intro a ha
        apply Attribute.render_replaced (hattributes a ha)
      simp (disch := decide) only [replaced, render, replaceAll_append, replaceAll_join,
        replaceAll_of_isAscii, hname.replaceAll, List.map_map, Function.comp_def, hrender]
  | closing name =>
      simp (disch := decide) only [replaced, render, replaceAll_append, replaceAll_of_isAscii,
        IsName.replaceAll h]
  | text content => apply escape_replaceAll
  | hardSpace => simp (disch := decide) only [replaced, render, replaceAll_of_isAscii]
  | declaration content =>
      simp (disch := decide) only [replaced, render, replaceAll_append, replaceAll_of_isAscii]
  | comment content =>
      simp (disch := decide) only [replaced, render, replaceAll_append, replaceAll_of_isAscii]

/-- The text of `tokens` after `replaceAll` is that of the tokens with characters replaced. -/
theorem render_replaced {tokens : List Token} (h : ∀ t ∈ tokens, t.IsLegible) :
  render (tokens.map (Token.replaced charset)) = charset.replaceAll (render tokens)
  := by
  rw [render, render, replaceAll_join, List.map_map, List.map_map]
  congr 1
  apply List.map_congr_left
  intro t ht
  apply Token.render_replaced (h t ht)

theorem Token.IsLegible.replaced {t : Token} (h : t.IsLegible) (charset : Charset) :
  (t.replaced charset).IsLegible
  := by
  cases t with
  | opening name attributes =>
      constructor
      · apply h.1
      · intro a ha
        obtain ⟨b, hb, rfl⟩ := List.mem_map.mp ha
        apply h.2 b hb
  | closing name => apply h
  | text content => trivial
  | hardSpace => trivial
  | declaration content =>
      obtain ⟨hgt, hamp, hdash⟩ := h
      refine ⟨?_, ?_, ?_⟩
      · intro hmem
        apply hgt (mem_of_mem_replaceAll (by decide) hmem)
      · intro hmem
        apply hamp (mem_of_mem_replaceAll (by decide) hmem)
      · intro hhead
        rw [toList_replaceAll, List.head?_map, Option.map_eq_some_iff] at hhead
        obtain ⟨c, hc, heq⟩ := hhead
        apply hdash
        rw [hc, eq_of_replaceChar_eq (by decide) heq]
  | comment content =>
      obtain ⟨hgt, hamp⟩ := h
      constructor
      · intro hmem
        apply hgt (mem_of_mem_replaceAll (by decide) hmem)
      · intro hmem
        apply hamp (mem_of_mem_replaceAll (by decide) hmem)

/-! ### Lexemes -/

/-- The lexeme with `replaceAll` of values and content, but not of names. -/
def Lexeme.replaced (charset : Charset) : Lexeme → Lexeme
  | .opening name attributes =>
    .opening name (attributes.map fun a => (a.1, a.2.map charset.replaceAll))
  | .closing name attributes =>
    .closing name (attributes.map fun a => (a.1, a.2.map charset.replaceAll))
  | .declaration inside => .declaration (charset.replaceAll inside)
  | .comment inside => .comment (charset.replaceAll inside)
  | .char c => .char (charset.replaceChar c)

theorem charLexemes_replaceAll (charset : Charset) (s : String) :
  charLexemes (charset.replaceAll s) = (charLexemes s).map (Lexeme.replaced charset)
  := by
  rw [charLexemes, toList_replaceAll, charLexemes, List.map_map, List.map_map]
  rfl

theorem Attribute.read_replaced (charset : Charset) (a : Attribute) :
  (a.replaced charset).read = (a.read.1, a.read.2.map charset.replaceAll)
  := by
  unfold read replaced
  simp only [Option.map_map, Function.comp_def, escape_replaceAll]

theorem Token.lexemes_replaced (charset : Charset) (t : Token) :
  (t.replaced charset).lexemes = t.lexemes.map (Lexeme.replaced charset)
  := by
  cases t with
  | opening name attributes =>
      simp only [replaced, lexemes, List.map_map, Function.comp_def, Attribute.read_replaced,
        List.map_singleton, Lexeme.replaced]
  | closing name => rfl
  | text content =>
      rw [replaced, lexemes, escape_replaceAll, charLexemes_replaceAll]
      rfl
  | hardSpace =>
      have hascii : IsAscii "&nbsp;" := by decide
      rw [replaced, lexemes, ← charLexemes_replaceAll, replaceAll_of_isAscii hascii]
  | declaration content => rfl
  | comment content => rfl

/-- A reader of the text of `tokens` in a charset finds the same markup, with characters replaced
in values and outside tags. -/
theorem lexemes?_replaceAll_render {tokens : List Token} (h : ∀ t ∈ tokens, t.IsLegible) :
  lexemes? (charset.replaceAll (render tokens))
    = (lexemes? (render tokens)).map (List.map (Lexeme.replaced charset))
  := by
  have hreplaced : ∀ t ∈ tokens.map (Token.replaced charset), t.IsLegible := by
    intro t ht
    obtain ⟨u, hu, rfl⟩ := List.mem_map.mp ht
    apply (h u hu).replaced
  rw [← render_replaced h, lexemes?_render hreplaced, lexemes?_render h, Option.map_some,
    List.flatMap_map, List.map_flatMap]
  simp only [Token.lexemes_replaced]

end LogRendering.Html
