import LogRendering.Json.Writer

/-!
# The grammar of JSON

The texts that are JSON according to RFC 8259: one value with blanks around it.  A quoted
text is such a text, whatever it quotes.
-/

namespace LogRendering.Json

/-! ### Parts of texts -/

/-- The characters `cs` are among the four that may stand between the parts of a text. -/
def AreBlank (cs : List Char) : Prop :=
  ∀ c ∈ cs, c ∈ [' ', '\t', '\n', '\r']

/-- The characters `cs` are one or more decimal digits. -/
def AreDigits (cs : List Char) : Prop :=
  cs ≠ [] ∧ ∀ c ∈ cs, c.isDigit

/-- Digits of which the first is not zero, unless it is the only one. -/
def IsWhole (cs : List Char) : Prop :=
  AreDigits cs ∧ (cs.head? = some '0' → cs = ['0'])

/-- The part of a number from the point on, which need not be there. -/
def IsFraction (cs : List Char) : Prop :=
  cs = [] ∨ ∃ digits, AreDigits digits ∧ cs = '.' :: digits

/-- The exponent of a number, which need not be there. -/
def IsExponent (cs : List Char) : Prop :=
  cs = [] ∨ ∃ letter sign digits, letter ∈ ['e', 'E'] ∧ sign ∈ [[], ['+'], ['-']]
    ∧ AreDigits digits ∧ cs = letter :: (sign ++ digits)

/-- A number: a sign, and parts that satisfy `IsWhole`, `IsFraction` and `IsExponent`. -/
def IsNumber (cs : List Char) : Prop :=
  ∃ sign whole fraction exponent, sign ∈ [[], ['-']] ∧ IsWhole whole ∧ IsFraction fraction
    ∧ IsExponent exponent ∧ cs = sign ++ (whole ++ (fraction ++ exponent))

/-- The character `c` is a hexadecimal digit, in either case. -/
def IsHexDigit (c : Char) : Prop :=
  c.isDigit ∨ ('a' ≤ c ∧ c ≤ 'f') ∨ ('A' ≤ c ∧ c ≤ 'F')

/-- The characters may stand between quotes: no control character, and quotes and backslashes in
escapes only. -/
inductive IsQuotable : List Char → Prop where
  | nil : IsQuotable []
  | char {c : Char} {rest : List Char} (hcontrol : 0x20 ≤ c.toNat) (hquote : c ≠ '"')
    (hbackslash : c ≠ '\\') (hrest : IsQuotable rest) : IsQuotable (c :: rest)
  | letter {c : Char} {rest : List Char} (h : c ∈ ['"', '\\', '/', 'b', 'f', 'n', 'r', 't'])
    (hrest : IsQuotable rest) : IsQuotable ('\\' :: c :: rest)
  | codeUnit (digits : List Char) {rest : List Char} (hlength : digits.length = 4)
    (hdigits : ∀ c ∈ digits, IsHexDigit c) (hrest : IsQuotable rest) :
    IsQuotable ('\\' :: 'u' :: (digits ++ rest))

/-! ### Values -/

mutual

/-- The characters are a JSON value, without blanks before it or after it. -/
inductive IsValue : List Char → Prop where
  | null : IsValue ['n', 'u', 'l', 'l']
  | true : IsValue ['t', 'r', 'u', 'e']
  | false : IsValue ['f', 'a', 'l', 's', 'e']
  | number {cs : List Char} (h : IsNumber cs) : IsValue cs
  | text {cs : List Char} (h : IsQuotable cs) : IsValue ('"' :: (cs ++ ['"']))
  | emptyArray {blanks : List Char} (h : AreBlank blanks) : IsValue ('[' :: (blanks ++ [']']))
  | array {items : List Char} (h : AreItems items) : IsValue ('[' :: (items ++ [']']))
  | emptyObject {blanks : List Char} (h : AreBlank blanks) :
    IsValue ('{' :: (blanks ++ ['}']))
  | object {members : List Char} (h : AreMembers members) :
    IsValue ('{' :: (members ++ ['}']))

/-- The characters are one that `IsValue`, with blanks around it. -/
inductive IsItem : List Char → Prop where
  | padded {before value after : List Char} (hbefore : AreBlank before) (h : IsValue value)
    (hafter : AreBlank after) : IsItem (before ++ (value ++ after))

/-- One or more texts that satisfy `IsItem`, with commas between them. -/
inductive AreItems : List Char → Prop where
  | one {item : List Char} (h : IsItem item) : AreItems item
  | more {item items : List Char} (h : IsItem item) (hitems : AreItems items) :
    AreItems (item ++ ',' :: items)

/-- A key and a value with a colon between them. -/
inductive IsMember : List Char → Prop where
  | keyed {before key after item : List Char} (hbefore : AreBlank before)
    (hkey : IsQuotable key) (hafter : AreBlank after) (h : IsItem item) :
    IsMember (before ++ '"' :: (key ++ '"' :: (after ++ ':' :: item)))

/-- One or more texts that satisfy `IsMember`, with commas between them. -/
inductive AreMembers : List Char → Prop where
  | one {member : List Char} (h : IsMember member) : AreMembers member
  | more {member members : List Char} (h : IsMember member) (hmembers : AreMembers members) :
    AreMembers (member ++ ',' :: members)

end

/-- The text `s` is JSON: one value with blanks around it. -/
def IsText (s : String) : Prop :=
  IsItem s.toList

theorem areBlank_nil :
  AreBlank []
  := by
  simp [AreBlank]

/-- Characters that satisfy `IsValue` are a text. -/
theorem IsValue.isText {s : String} (h : IsValue s.toList) :
  IsText s
  := by
  have hitem := IsItem.padded areBlank_nil h areBlank_nil
  rw [List.nil_append, List.append_nil] at hitem
  apply hitem

/-! ### Beginnings of texts -/

/-- The characters besides digits with which a value may begin. -/
def valueStarts : List Char :=
  ['n', 't', 'f', '"', '[', '{', '-']

theorem AreDigits.isDigit {c : Char} {cs : List Char} (h : AreDigits (c :: cs)) :
  c.isDigit
  := h.2 c List.mem_cons_self

theorem IsNumber.mem_starts {c : Char} {cs : List Char} (h : IsNumber (c :: cs)) :
  c ∈ valueStarts ∨ c.isDigit
  := by
  obtain ⟨sign, whole, fraction, exponent, hsign, ⟨hdigits, -⟩, -, -, heq⟩ := h
  simp only [List.mem_cons, List.not_mem_nil, or_false] at hsign
  obtain rfl | rfl := hsign
  · cases whole with
    | nil => exact absurd rfl hdigits.1
    | cons d ds =>
        obtain ⟨rfl, -⟩ := List.cons.inj heq
        apply Or.inr hdigits.isDigit
  · obtain ⟨rfl, -⟩ := List.cons.inj heq
    left
    decide

/-- A value begins with a digit or with one of the `valueStarts`. -/
theorem IsValue.exists_start {cs : List Char} (h : IsValue cs) :
  ∃ c rest, cs = c :: rest ∧ (c ∈ valueStarts ∨ c.isDigit)
  := by
  cases h with
  | number h =>
      cases cs with
      | nil =>
          obtain ⟨sign, whole, fraction, exponent, -, ⟨hdigits, -⟩, -, -, heq⟩ := h
          have hempty := List.append_eq_nil_iff.mp heq.symm
          exact absurd (List.append_eq_nil_iff.mp hempty.2).1 hdigits.1
      | cons c rest => exact ⟨c, rest, rfl, h.mem_starts⟩
  | _ => exact ⟨_, _, rfl, Or.inl (by decide)⟩

/-- A text begins with a blank, with a digit or with one of the `valueStarts`. -/
theorem IsItem.mem_starts {c : Char} {cs : List Char} (h : IsItem (c :: cs)) :
  c ∈ [' ', '\t', '\n', '\r'] ∨ c ∈ valueStarts ∨ c.isDigit
  := by
  generalize hcs : c :: cs = text at h
  cases h with
  | @padded before value after hbefore hvalue hafter =>
      cases before with
      | nil =>
          obtain ⟨d, rest, rfl, hd⟩ := hvalue.exists_start
          obtain ⟨rfl, -⟩ := List.cons.inj hcs
          apply Or.inr hd
      | cons d before =>
          obtain ⟨rfl, -⟩ := List.cons.inj hcs
          apply Or.inl (hbefore c List.mem_cons_self)

/-! ### Quoted texts -/

theorem isHexDigit_hexDigit {n : Nat} (h : n < 16) :
  IsHexDigit (hexDigit n)
  := by
  have hall : ∀ k < 16, (hexDigit k).isDigit ∨ ('a' ≤ hexDigit k ∧ hexDigit k ≤ 'f')
      ∨ ('A' ≤ hexDigit k ∧ hexDigit k ≤ 'F') := by
    decide
  apply hall n h

/-- A character after `escapeChar` may stand between quotes. -/
theorem isQuotable_escapeChar_append (c : Char) {rest : List Char} (h : IsQuotable rest) :
  IsQuotable (escapeChar c ++ rest)
  := by
  unfold escapeChar
  split
  case h_8 hquote hbackslash _ _ _ _ _ =>
    split
    case isTrue hcontrol =>
      apply IsQuotable.codeUnit ['0', '0', _, _] rfl _ h
      intro d hd
      simp only [List.mem_cons, List.not_mem_nil, or_false] at hd
      obtain rfl | rfl | rfl | rfl := hd
      · apply Or.inl rfl
      · apply Or.inl rfl
      · apply isHexDigit_hexDigit
        omega
      · apply isHexDigit_hexDigit
        omega
    case isFalse hcontrol =>
      apply IsQuotable.char (Nat.le_of_not_lt hcontrol) hquote hbackslash h
  all_goals
    apply IsQuotable.letter (by decide) h

/-- The text `quote s` is a value. -/
theorem isValue_quote (s : String) :
  IsValue (quote s).toList
  := by
  rw [quote, String.toList_ofList]
  apply IsValue.text
  induction s.toList with
  | nil => apply IsQuotable.nil
  | cons c cs ih =>
      rw [List.flatMap_cons]
      apply isQuotable_escapeChar_append c ih

end LogRendering.Json
