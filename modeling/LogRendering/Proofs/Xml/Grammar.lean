import LogRendering.Proofs.Lists
import LogRendering.Text.Printable

/-!
# The grammar of XML

The texts that are documents according to XML 1.0: one element, with comments, processing
instructions and blanks around it.  The declarations of the version and of the document type,
which need not be there, are left out, so that the only entities are the five predefined ones.
The characters that may stand between the marks of the grammar are a parameter, as nothing else
in the grammar depends on them; those of XML are `IsChar`.
-/

namespace LogRendering.Xml

/-! ### Characters -/

/-- The ranges of the characters of a document, for `IsChar`. -/
def charRanges : List (Nat × Nat) :=
  [(0x9, 0x9), (0xA, 0xA), (0xD, 0xD), (0x20, 0xD7FF), (0xE000, 0xFFFD), (0x10000, 0x10FFFF)]

/-- The ranges of the characters with which a name begins, for `IsName`. -/
def nameStartRanges : List (Nat × Nat) :=
  [(0x3A, 0x3A), (0x41, 0x5A), (0x5F, 0x5F), (0x61, 0x7A), (0xC0, 0xD6), (0xD8, 0xF6),
    (0xF8, 0x2FF), (0x370, 0x37D), (0x37F, 0x1FFF), (0x200C, 0x200D), (0x2070, 0x218F),
    (0x2C00, 0x2FEF), (0x3001, 0xD7FF), (0xF900, 0xFDCF), (0xFDF0, 0xFFFD), (0x10000, 0xEFFFF)]

/-- The ranges of the characters with which a name goes on, for `IsName`. -/
def nameRanges : List (Nat × Nat) :=
  nameStartRanges
    ++ [(0x2D, 0x2E), (0x30, 0x39), (0xB7, 0xB7), (0x300, 0x36F), (0x203F, 0x2040)]

/-- The character `c` may stand in a document. -/
def IsChar (c : Char) : Prop :=
  Text.inRanges charRanges c.toNat

instance (c : Char) : Decidable (IsChar c) :=
  inferInstanceAs (Decidable (_ = true))

/-- All characters of `cs` are in the `alphabet`. -/
def IsOver (alphabet : Char → Prop) (cs : List Char) : Prop :=
  ∀ c ∈ cs, alphabet c

instance (alphabet : Char → Prop) [DecidablePred alphabet] (cs : List Char) :
    Decidable (IsOver alphabet cs) :=
  List.decidableBAll alphabet cs

/-- The character `c` is one of the four that separate parts of markup. -/
def IsBlank (c : Char) : Prop :=
  c = ' ' ∨ c = '\t' ∨ c = '\n' ∨ c = '\r'

/-- The text is a name. -/
def IsName (cs : List Char) : Prop :=
  ∃ c rest, cs = c :: rest ∧ Text.inRanges nameStartRanges c.toNat
    ∧ IsOver (fun d => Text.inRanges nameRanges d.toNat) rest

/-! ### Parts of documents -/

/-- The names of the entities that need no declaration. -/
def entityNames : List (List Char) :=
  [['a', 'm', 'p'], ['l', 't'], ['g', 't'], ['q', 'u', 'o', 't'], ['a', 'p', 'o', 's']]

/-- The reference to the entity `name`. -/
def referenceTo (name : List Char) : List Char :=
  '&' :: (name ++ [';'])

/-- The marks of references to characters, with the base of the digits after them. -/
def codeMarks : List (List Char × Nat) :=
  [([], 10), (['x'], 16)]

/-- The character `c` is the digit of `value`, which is below the base. -/
def IsDigitOf (base : Nat) (c : Char) (value : Nat) : Prop :=
  value < base ∧ c ∈ [value.digitChar, value.digitChar.toUpper]

/-- The number whose digits in `base` have the given values. -/
def numberOf (base : Nat) (values : List Nat) : Nat :=
  values.foldl (fun n value => n * base + value) 0

variable (alphabet : Char → Prop)

/-- A reference to one of the entities of `entityNames`, or to a character of the alphabet by its
number. -/
inductive IsReference : List Char → Prop where
  | entity {name : List Char} (h : name ∈ entityNames) : IsReference (referenceTo name)
  | code {mark digits : List Char} {base : Nat} {values : List Nat} {c : Char}
    (hmark : (mark, base) ∈ codeMarks) (hdigits : List.Forall₂ (IsDigitOf base) digits values)
    (hne : digits ≠ []) (hvalue : numberOf base values = c.toNat) (hc : alphabet c) :
    IsReference ('&' :: '#' :: (mark ++ (digits ++ [';'])))

/-- What stands between the quotes of an attribute, in which `quote` itself does not. -/
inductive IsValue (quote : Char) : List Char → Prop where
  | nil : IsValue quote []
  | char {c : Char} {rest : List Char} (hc : alphabet c) (hlt : c ≠ '<') (hamp : c ≠ '&')
    (hquote : c ≠ quote) (hrest : IsValue quote rest) : IsValue quote (c :: rest)
  | reference {reference rest : List Char} (h : IsReference alphabet reference)
    (hrest : IsValue quote rest) : IsValue quote (reference ++ rest)

/-- Attributes with the given names, whose values satisfy `IsValue`, with blanks before each and
around the equals signs. -/
inductive AreAttributes : List (List Char) → List Char → Prop where
  | nil : AreAttributes [] []
  | cons {name value before after space rest : List Char} {names : List (List Char)}
    {blank quote : Char} (hblank : IsBlank blank) (hbefore : IsOver IsBlank before)
    (hname : IsName name) (hafter : IsOver IsBlank after) (hspace : IsOver IsBlank space)
    (hquote : quote = '"' ∨ quote = '\'') (hvalue : IsValue alphabet quote value)
    (hrest : AreAttributes names rest) :
    AreAttributes (name :: names)
      (blank :: (before ++ (name ++ (after ++ '=' :: (space ++ quote :: (value ++ quote :: rest))))))

/-- Character data `cs`: text without the beginnings of markup and without the end of a
section. -/
def IsCharData (cs : List Char) : Prop :=
  IsOver (fun c => alphabet c ∧ c ≠ '<' ∧ c ≠ '&') cs ∧ ¬ [']', ']', '>'] <:+: cs

/-- A section, in which nothing is markup but its end. -/
def IsSection (cs : List Char) : Prop :=
  ∃ body, IsOver alphabet body ∧ ¬ [']', ']', '>'] <:+: body
    ∧ cs = ['<', '!', '[', 'C', 'D', 'A', 'T', 'A', '['] ++ (body ++ [']', ']', '>'])

/-- A comment, which does not hold two hyphens in a row before its end. -/
def IsComment (cs : List Char) : Prop :=
  ∃ body, IsOver alphabet body ∧ ¬ ['-', '-'] <:+: body ∧ body.getLast? ≠ some '-'
    ∧ cs = ['<', '!', '-', '-'] ++ (body ++ ['-', '-', '>'])

/-- A processing instruction, whose target has another name than XML itself. -/
def IsInstruction (cs : List Char) : Prop :=
  ∃ target body, IsName target ∧ target.map Char.toLower ≠ ['x', 'm', 'l']
    ∧ IsOver alphabet body ∧ (∀ c ∈ body.head?, IsBlank c) ∧ ¬ ['?', '>'] <:+: body
    ∧ cs = ['<', '?'] ++ (target ++ (body ++ ['?', '>']))

/-! ### Elements and documents -/

mutual

/-- An element, whose attributes have different names.  It holds what satisfies `IsContent`, and
its end tag has the name of its start tag. -/
inductive IsElement : List Char → Prop where
  | empty {name attributes space : List Char} {names : List (List Char)} (hname : IsName name)
    (hattributes : AreAttributes alphabet names attributes) (hunique : names.Nodup)
    (hspace : IsOver IsBlank space) :
    IsElement ('<' :: (name ++ (attributes ++ (space ++ ['/', '>']))))
  | holding {name attributes space content endSpace : List Char} {names : List (List Char)}
    (hname : IsName name) (hattributes : AreAttributes alphabet names attributes)
    (hunique : names.Nodup) (hspace : IsOver IsBlank space) (hcontent : IsContent content)
    (hendSpace : IsOver IsBlank endSpace) :
    IsElement ('<' :: (name ++ (attributes ++ (space
      ++ '>' :: (content ++ '<' :: '/' :: (name ++ (endSpace ++ ['>'])))))))

/-- What an `IsElement` holds: elements, references, sections, comments and processing
instructions, with character data between them. -/
inductive IsContent : List Char → Prop where
  | data {data : List Char} (h : IsCharData alphabet data) : IsContent data
  | element {data element rest : List Char} (h : IsCharData alphabet data)
    (helement : IsElement element) (hrest : IsContent rest) :
    IsContent (data ++ (element ++ rest))
  | other {data other rest : List Char} (h : IsCharData alphabet data)
    (hother : IsReference alphabet other ∨ IsSection alphabet other ∨ IsComment alphabet other
      ∨ IsInstruction alphabet other) (hrest : IsContent rest) :
    IsContent (data ++ (other ++ rest))

end

/-- What stands around the element of a document: blanks, comments and processing
instructions. -/
inductive IsMargin : List Char → Prop where
  | nil : IsMargin []
  | blank {c : Char} {rest : List Char} (hc : IsBlank c) (hrest : IsMargin rest) :
    IsMargin (c :: rest)
  | other {other rest : List Char} (h : IsComment alphabet other ∨ IsInstruction alphabet other)
    (hrest : IsMargin rest) : IsMargin (other ++ rest)

/-- A document without declarations: one that `IsElement`, and what stands around it. -/
def IsDocument (cs : List Char) : Prop :=
  ∃ before element after, IsMargin alphabet before ∧ IsElement alphabet element
    ∧ IsMargin alphabet after ∧ cs = before ++ (element ++ after)

/-! ### Characters of documents -/

variable {alphabet} {cs ds : List Char} {c : Char}

theorem isOver_nil :
  IsOver alphabet []
  := by
  simp [IsOver]

theorem isOver_cons :
  IsOver alphabet (c :: cs) ↔ alphabet c ∧ IsOver alphabet cs
  := List.forall_mem_cons

theorem isOver_append :
  IsOver alphabet (cs ++ ds) ↔ IsOver alphabet cs ∧ IsOver alphabet ds
  := List.forall_mem_append

theorem IsOver.mono {alphabet' : Char → Prop} (h : IsOver alphabet cs)
    (hsub : ∀ c, alphabet c → alphabet' c) :
  IsOver alphabet' cs
  := fun c hc => hsub c (h c hc)

/-- The `ranges` that lie within others hold no more numbers than these. -/
theorem inRanges_of_within {ranges ranges' : List (Nat × Nat)} {n : Nat}
    (h : ∀ range ∈ ranges, ∃ range' ∈ ranges', range'.1 ≤ range.1 ∧ range.2 ≤ range'.2)
    (hn : Text.inRanges ranges n) :
  Text.inRanges ranges' n
  := by
  simp only [Text.inRanges, List.any_eq_true, Bool.and_eq_true, decide_eq_true_eq] at hn ⊢
  obtain ⟨range, hmem, hfirst, hlast⟩ := hn
  obtain ⟨range', hmem', hfirst', hlast'⟩ := h range hmem
  exact ⟨range', hmem', Nat.le_trans hfirst' hfirst, Nat.le_trans hlast hlast'⟩

theorem IsName.isOver (h : IsName cs) :
  IsOver IsChar cs
  := by
  obtain ⟨c, rest, rfl, hc, hrest⟩ := h
  have hnames : ∀ range ∈ nameRanges, ∃ range' ∈ charRanges,
      range'.1 ≤ range.1 ∧ range.2 ≤ range'.2 := by
    decide
  rw [isOver_cons]
  constructor
  · exact inRanges_of_within (fun range h => hnames range (List.mem_append_left _ h)) hc
  · exact fun d hd => inRanges_of_within hnames (hrest d hd)

theorem IsBlank.isChar (h : IsBlank c) :
  IsChar c
  := by
  obtain rfl | rfl | rfl | rfl := h
  all_goals decide

theorem IsDigitOf.isChar {base value : Nat} (h : IsDigitOf base c value) (hbase : base ≤ 16) :
  IsChar c
  := by
  have hall : ∀ n < 16, IsChar n.digitChar ∧ IsChar n.digitChar.toUpper := by decide
  obtain ⟨hdigit, hupper⟩ := hall value (Nat.lt_of_lt_of_le h.1 hbase)
  obtain hc | hc := List.mem_pair.mp h.2
  · rwa [hc]
  · rwa [hc]

theorem IsReference.isOver (h : IsReference alphabet cs) :
  IsOver IsChar cs
  := by
  cases h with
  | entity h =>
      have hall : ∀ name ∈ entityNames, IsOver IsChar (referenceTo name) := by decide
      exact hall _ h
  | code hmark hdigits =>
      have hmarks : ∀ mark ∈ codeMarks, IsOver IsChar mark.1 ∧ mark.2 ≤ 16 := by decide
      obtain ⟨hover, hbase⟩ := hmarks _ hmark
      have hdigit : IsOver IsChar _ := fun c hc => by
        obtain ⟨value, -, hvalue⟩ := exists_mem_of_forall₂ hdigits hc
        exact hvalue.isChar hbase
      simp only [isOver_cons, isOver_append]
      exact ⟨by decide, by decide, hover, hdigit, by decide⟩

theorem IsCharData.isOver (h : IsCharData alphabet cs) :
  IsOver alphabet cs
  := h.1.mono fun _ hc => hc.1

section Alphabet

-- the marks of the grammar are characters of XML
variable (hsub : ∀ c, IsChar c → alphabet c)

include hsub

theorem IsValue.isOver {quote : Char} (h : IsValue alphabet quote cs) :
  IsOver alphabet cs
  := by
  induction h with
  | nil => exact isOver_nil
  | char hc _ _ _ _ ih => exact isOver_cons.mpr ⟨hc, ih⟩
  | reference h _ ih => exact isOver_append.mpr ⟨h.isOver.mono hsub, ih⟩

theorem AreAttributes.isOver {names : List (List Char)} (h : AreAttributes alphabet names cs) :
  IsOver alphabet cs
  := by
  have hblanks : ∀ c, IsBlank c → alphabet c := fun c hc => hsub c hc.isChar
  have hquotes : ∀ c, c = '"' ∨ c = '\'' → alphabet c := by
    rintro c (rfl | rfl)
    · exact hsub _ (by decide)
    · exact hsub _ (by decide)
  induction h with
  | nil => exact isOver_nil
  | cons hblank hbefore hname hafter hspace hquote hvalue _ ih =>
      simp only [isOver_cons, isOver_append]
      exact ⟨hblanks _ hblank, hbefore.mono hblanks, hname.isOver.mono hsub, hafter.mono hblanks,
        hsub _ (by decide), hspace.mono hblanks, hquotes _ hquote, hvalue.isOver hsub,
        hquotes _ hquote, ih⟩

theorem IsSection.isOver (h : IsSection alphabet cs) :
  IsOver alphabet cs
  := by
  obtain ⟨body, hbody, -, rfl⟩ := h
  rw [isOver_append, isOver_append]
  exact ⟨IsOver.mono (by decide) hsub, hbody, IsOver.mono (by decide) hsub⟩

theorem IsComment.isOver (h : IsComment alphabet cs) :
  IsOver alphabet cs
  := by
  obtain ⟨body, hbody, -, -, rfl⟩ := h
  rw [isOver_append, isOver_append]
  exact ⟨IsOver.mono (by decide) hsub, hbody, IsOver.mono (by decide) hsub⟩

theorem IsInstruction.isOver (h : IsInstruction alphabet cs) :
  IsOver alphabet cs
  := by
  obtain ⟨target, body, htarget, -, hbody, -, -, rfl⟩ := h
  rw [isOver_append, isOver_append, isOver_append]
  exact ⟨IsOver.mono (by decide) hsub, htarget.isOver.mono hsub, hbody,
    IsOver.mono (by decide) hsub⟩

mutual

theorem IsElement.isOver : ∀ {cs}, IsElement alphabet cs → IsOver alphabet cs
  | _, .empty hname hattributes _ hspace => by
      simp only [isOver_cons, isOver_append]
      exact ⟨hsub _ (by decide), hname.isOver.mono hsub, hattributes.isOver hsub,
        hspace.mono fun c hc => hsub c hc.isChar, hsub _ (by decide), hsub _ (by decide),
        isOver_nil⟩
  | _, .holding hname hattributes _ hspace hcontent hendSpace => by
      simp only [isOver_cons, isOver_append]
      exact ⟨hsub _ (by decide), hname.isOver.mono hsub, hattributes.isOver hsub,
        hspace.mono fun c hc => hsub c hc.isChar, hsub _ (by decide), hcontent.isOver,
        hsub _ (by decide), hsub _ (by decide), hname.isOver.mono hsub,
        hendSpace.mono fun c hc => hsub c hc.isChar, hsub _ (by decide), isOver_nil⟩

theorem IsContent.isOver : ∀ {cs}, IsContent alphabet cs → IsOver alphabet cs
  | _, .data h => h.isOver
  | _, .element h helement hrest => by
      rw [isOver_append, isOver_append]
      exact ⟨h.isOver, helement.isOver, hrest.isOver⟩
  | _, .other h hother hrest => by
      rw [isOver_append, isOver_append]
      refine ⟨h.isOver, ?_, hrest.isOver⟩
      obtain hother | hother | hother | hother := hother
      · exact hother.isOver.mono hsub
      · exact hother.isOver hsub
      · exact hother.isOver hsub
      · exact hother.isOver hsub

end

theorem IsMargin.isOver (h : IsMargin alphabet cs) :
  IsOver alphabet cs
  := by
  induction h with
  | nil => exact isOver_nil
  | blank hc _ ih => exact isOver_cons.mpr ⟨hsub _ hc.isChar, ih⟩
  | other h _ ih =>
      refine isOver_append.mpr ⟨?_, ih⟩
      obtain h | h := h
      · exact h.isOver hsub
      · exact h.isOver hsub

/-- All characters of a document are in the `alphabet`. -/
theorem IsDocument.isOver (h : IsDocument alphabet cs) :
  IsOver alphabet cs
  := by
  obtain ⟨before, element, after, hbefore, helement, hafter, rfl⟩ := h
  rw [isOver_append, isOver_append]
  exact ⟨hbefore.isOver hsub, helement.isOver hsub, hafter.isOver hsub⟩

end Alphabet

end LogRendering.Xml
