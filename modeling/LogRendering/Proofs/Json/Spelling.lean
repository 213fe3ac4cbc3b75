import LogRendering.Proofs.Json.Joined
import LogRendering.Proofs.Json.NumberText
import LogRendering.Proofs.Json.Quoted

/-!
# What texts denote

A text of JSON denotes a value.  The text of a value is one value of the grammar, it denotes
this value, and a text denotes at most one value.
-/

namespace LogRendering.Json

namespace Value

/-! ### Induction on values -/

/-- Induction on values, with the items of an array and the values of an object at hand. -/
@[elab_as_elim, induction_eliminator]
theorem induction
    {motive : Value → Prop}
    (null : motive .null) (bool : ∀ b, motive (.bool b)) (number : ∀ n, motive (.number n))
    (text : ∀ s, motive (.text s))
    (array : ∀ items, (∀ item ∈ items, motive item) → motive (.array items))
    (object : ∀ members, (∀ member ∈ members, motive member.2) → motive (.object members))
    (v : Value) :
  motive v
  := by
  apply Value.rec (motive_1 := motive)
    (motive_2 := fun items => ∀ item ∈ items, motive item)
    (motive_3 := fun members => ∀ member ∈ members, motive member.2)
    (motive_4 := fun member => motive member.2) null bool number text array object
  case nil => simp
  case cons =>
    intro item items hitem hitems
    exact List.forall_mem_cons.mpr ⟨hitem, hitems⟩
  case nil => simp
  case cons =>
    intro member members hmember hmembers
    exact List.forall_mem_cons.mpr ⟨hmember, hmembers⟩
  case mk =>
    intro key value hvalue
    exact hvalue

/-! ### Texts of values -/

/-- The characters `cs` are the given key and, after a colon, a value that satisfies
`spelled`. -/
def IsKeyed (key : String) (spelled : List Char → Prop) (cs : List Char) : Prop :=
  ∃ quoted after before value, Quotes quoted key.toList ∧ AreBlank after ∧ AreBlank before
    ∧ spelled value ∧ cs = '"' :: (quoted ++ '"' :: (after ++ ':' :: (before ++ value)))

mutual

/-- The characters denote the value, in any of its spellings: with blanks, escapes and numerals
of any form. -/
def SpelledBy : Value → List Char → Prop
  | null, cs => cs = ['n', 'u', 'l', 'l']
  | bool b, cs => cs = if b then ['t', 'r', 'u', 'e'] else ['f', 'a', 'l', 's', 'e']
  | number n, cs => n.SpelledBy cs
  | text s, cs => ∃ quoted, Quotes quoted s.toList ∧ cs = '"' :: (quoted ++ ['"'])
  | array items, cs =>
    ∃ parts inner, SpelledByItems items parts ∧ IsJoined parts inner
      ∧ cs = '[' :: (inner ++ [']'])
  | object members, cs =>
    ∃ parts inner, SpelledByMembers members parts ∧ IsJoined parts inner
      ∧ cs = '{' :: (inner ++ ['}'])

/-- The parts denote the items of an array, each by `SpelledBy`. -/
def SpelledByItems : List Value → List (List Char) → Prop
  | [], parts => parts = []
  | item :: rest, parts =>
    ∃ part more, SpelledBy item part ∧ SpelledByItems rest more ∧ parts = part :: more

/-- The parts denote the members of an object, each by `IsKeyed`. -/
def SpelledByMembers : List (String × Value) → List (List Char) → Prop
  | [], parts => parts = []
  | (key, value) :: rest, parts =>
    ∃ part more, IsKeyed key (SpelledBy value) part ∧ SpelledByMembers rest more
      ∧ parts = part :: more

end

/-- The characters denote the `member` of an object. -/
def MemberSpelledBy (member : String × Value) : List Char → Prop :=
  IsKeyed member.1 member.2.SpelledBy

theorem spelledByItems_iff (items : List Value) (parts : List (List Char)) :
  SpelledByItems items parts ↔ List.Forall₂ SpelledBy items parts
  := by
  induction items generalizing parts with
  | nil => rw [SpelledByItems, List.forall₂_nil_left_iff]
  | cons item items ih =>
      rw [SpelledByItems, List.forall₂_cons_left_iff]
      simp only [ih]

theorem spelledByMembers_iff (members : List (String × Value)) (parts : List (List Char)) :
  SpelledByMembers members parts ↔ List.Forall₂ MemberSpelledBy members parts
  := by
  induction members generalizing parts with
  | nil => rw [SpelledByMembers, List.forall₂_nil_left_iff]
  | cons member members ih =>
      rw [SpelledByMembers, List.forall₂_cons_left_iff]
      simp only [ih]
      rfl

theorem spelledBy_array_iff (items : List Value) (cs : List Char) :
  (array items).SpelledBy cs
    ↔ ∃ parts inner, List.Forall₂ SpelledBy items parts ∧ IsJoined parts inner
      ∧ cs = '[' :: (inner ++ [']'])
  := by
  simp only [SpelledBy, spelledByItems_iff]

theorem spelledBy_object_iff (members : List (String × Value)) (cs : List Char) :
  (object members).SpelledBy cs
    ↔ ∃ parts inner, List.Forall₂ MemberSpelledBy members parts ∧ IsJoined parts inner
      ∧ cs = '{' :: (inner ++ ['}'])
  := by
  simp only [SpelledBy, spelledByMembers_iff]

/-! ### Texts in the grammar -/

/-- The characters `cs` are a key and a value of the grammar with a colon between them. -/
def IsKeyedValue (cs : List Char) : Prop :=
  ∃ quoted after before value, IsQuotable quoted ∧ AreBlank after ∧ AreBlank before
    ∧ IsValue value ∧ cs = '"' :: (quoted ++ '"' :: (after ++ ':' :: (before ++ value)))

theorem IsKeyedValue.isMember {before after cs : List Char} (hbefore : AreBlank before)
    (h : IsKeyedValue cs) (hafter : AreBlank after) :
  IsMember (before ++ (cs ++ after))
  := by
  obtain ⟨quoted, after', before', value, hquoted, hafter', hbefore', hvalue, rfl⟩ := h
  have hmember := IsMember.keyed hbefore hquoted hafter' (.padded hbefore' hvalue hafter)
  simpa only [List.cons_append, List.append_assoc] using hmember

theorem MemberSpelledBy.isKeyedValue {member : String × Value} {cs : List Char}
    (h : MemberSpelledBy member cs) (hvalue : ∀ cs, member.2.SpelledBy cs → IsValue cs) :
  IsKeyedValue cs
  := by
  obtain ⟨quoted, after, before, value, hquoted, hafter, hbefore, hspelled, rfl⟩ := h
  exact ⟨quoted, after, before, value, hquoted.isQuotable, hafter, hbefore, hvalue _ hspelled, rfl⟩

/-- The text of a value satisfies the grammar `IsValue`. -/
theorem SpelledBy.isValue {v : Value} {cs : List Char} (h : v.SpelledBy cs) :
  IsValue cs
  := by
  induction v generalizing cs with
  | null =>
      obtain rfl : cs = _ := h
      exact .null
  | bool b =>
      obtain rfl : cs = _ := h
      cases b with
      | false => exact .false
      | true => exact .true
  | number n => exact .number (Number.SpelledBy.isNumber h)
  | text s =>
      obtain ⟨quoted, hquoted, rfl⟩ := h
      exact .text hquoted.isQuotable
  | array items ih =>
      obtain ⟨parts, inner, hparts, hjoined, rfl⟩ := (spelledBy_array_iff _ _).mp h
      have hvalues := forall_mem_of_forall₂ hparts fun item hmem _ => ih item hmem
      cases parts with
      | nil => exact .emptyArray hjoined
      | cons part parts =>
          obtain ⟨before, more, hbefore, hmore, rfl⟩ := hjoined
          obtain ⟨hvalue, hvalues⟩ := List.forall_mem_cons.mp hvalues
          exact .array (hmore.isSequence .padded .one .more hbefore hvalue hvalues)
  | object members ih =>
      obtain ⟨parts, inner, hparts, hjoined, rfl⟩ := (spelledBy_object_iff _ _).mp h
      have hkeyed := forall_mem_of_forall₂ hparts fun member hmem _ hmember =>
        hmember.isKeyedValue fun _ => ih member hmem
      cases parts with
      | nil => exact .emptyObject hjoined
      | cons part parts =>
          obtain ⟨before, more, hbefore, hmore, rfl⟩ := hjoined
          obtain ⟨hmember, hmembers⟩ := List.forall_mem_cons.mp hkeyed
          exact .object (hmore.isSequence IsKeyedValue.isMember .one .more hbefore hmember
            hmembers)

/-! ### Reading texts -/

/-- The kinds of values, which their first characters tell apart. -/
inductive Kind where
  | null
  | bool
  | number
  | text
  | array
  | object

/-- The `Kind` of a value. -/
def kind : Value → Kind
  | null => .null
  | bool _ => .bool
  | number _ => .number
  | text _ => .text
  | array _ => .array
  | object _ => .object

/-- The `Kind` of the values of which the text begins with a character. -/
def kindOf : Char → Kind
  | 'n' => .null
  | 't' | 'f' => .bool
  | '"' => .text
  | '[' => .array
  | '{' => .object
  | _ => .number

theorem SpelledBy.starts {v : Value} {cs : List Char} (h : v.SpelledBy cs) :
  Starts cs
  := by
  obtain ⟨c, tail, rfl, hstart⟩ := h.isValue.exists_start
  refine ⟨c, tail, rfl, ?_⟩
  obtain hstart | hdigit := hstart
  · have hall : ∀ d ∈ valueStarts, d ∉ [' ', '\t', '\n', '\r', ',', ']', '}'] := by
      simp [valueStarts]
    exact hall c hstart
  · have hall : ∀ d ∈ [' ', '\t', '\n', '\r', ',', ']', '}'], ¬ d.isDigit := by
      simp
    exact fun hmem => hall c hmem hdigit

theorem kindOf_of_isNumeralChar {c : Char} (h : IsNumeralChar c) :
  kindOf c = .number
  := by
  unfold IsNumeralChar at h
  unfold kindOf
  split
  case h_7 => rfl
  all_goals exact absurd h (by decide)

/-- The first character of a text tells, by `kindOf`, the kind of its value. -/
theorem SpelledBy.kindOf_eq {v : Value} {c : Char} {cs : List Char}
    (h : v.SpelledBy (c :: cs)) :
  kindOf c = v.kind
  := by
  cases v with
  | null =>
      obtain ⟨rfl, -⟩ := List.cons.inj h
      rfl
  | bool b =>
      cases b with
      | false =>
          obtain ⟨rfl, -⟩ := List.cons.inj h
          rfl
      | true =>
          obtain ⟨rfl, -⟩ := List.cons.inj h
          rfl
  | number n =>
      obtain ⟨numeral, htext, -⟩ := h
      apply kindOf_of_isNumeralChar
      apply Numeral.isNumeralChar_of_mem (n := numeral)
      rw [htext]
      exact List.mem_cons_self
  | text s =>
      obtain ⟨quoted, -, heq⟩ := h
      obtain ⟨rfl, -⟩ := List.cons.inj heq
      rfl
  | array items =>
      obtain ⟨parts, inner, -, -, heq⟩ := h
      obtain ⟨rfl, -⟩ := List.cons.inj heq
      rfl
  | object members =>
      obtain ⟨parts, inner, -, -, heq⟩ := h
      obtain ⟨rfl, -⟩ := List.cons.inj heq
      rfl

variable {v w : Value} {cs cs' rest rest' : List Char}

/-- Values of different `kind` have texts that begin differently. -/
theorem SpelledBy.kind_eq (h : v.SpelledBy cs) (h' : w.SpelledBy cs')
    (heq : cs ++ rest = cs' ++ rest') :
  v.kind = w.kind
  := by
  obtain ⟨c, tail, rfl, -⟩ := h.starts
  obtain ⟨c', tail', rfl, -⟩ := h'.starts
  obtain ⟨rfl, -⟩ := List.cons.inj heq
  rw [← h.kindOf_eq, ← h'.kindOf_eq]

theorem MemberSpelledBy.starts {member : String × Value} (h : MemberSpelledBy member cs) :
  Starts cs
  := by
  obtain ⟨quoted, after, before, value, -, -, -, -, rfl⟩ := h
  exact ⟨'"', _, rfl, by decide⟩

/-- A `member` of an object can be read in one way only if its value can. -/
theorem isReadOnlyAs_member {member : String × Value} (hvalue : IsReadOnlyAs SpelledBy member.2) :
  IsReadOnlyAs MemberSpelledBy member
  := by
  intro member' cs cs' rest rest' h h' hrest hrest' heq
  obtain ⟨quoted, after, before, value, hquoted, hafter, hbefore, hspelled, rfl⟩ := h
  obtain ⟨quoted', after', before', value', hquoted', hafter', hbefore', hspelled', rfl⟩ := h'
  have hcolon : ':' ∉ [' ', '\t', '\n', '\r'] := by decide
  simp only [List.cons_append, List.append_assoc, List.cons.injEq, true_and] at heq
  obtain ⟨hkey, hends⟩ := hquoted.unique hquoted' heq
  have hvalues := (AreBlank.unique hafter hafter' hcolon hcolon hends).2
  obtain ⟨hsame, hends⟩ := hvalue.unique_padded SpelledBy.starts hspelled hspelled' hbefore
    hbefore' hrest hrest' hvalues
  exact ⟨Prod.ext (String.toList_inj.mp hkey) hsame, hends⟩

theorem isReadOnlyAs_bool (b : Bool) :
  IsReadOnlyAs SpelledBy (bool b)
  := by
  intro w cs cs' rest rest' h h' hrest hrest' heq
  have hkind := h.kind_eq h' heq
  cases w with
  | bool b' =>
      obtain rfl : cs = _ := h
      obtain rfl : cs' = _ := h'
      cases b with
      | false =>
          cases b' with
          | false => exact ⟨rfl, List.append_cancel_left heq⟩
          | true => exact absurd (List.cons.inj heq).1 (by decide)
      | true =>
          cases b' with
          | false => exact absurd (List.cons.inj heq).1 (by decide)
          | true => exact ⟨rfl, List.append_cancel_left heq⟩
  | _ => cases hkind

theorem isReadOnlyAs_text (s : String) :
  IsReadOnlyAs SpelledBy (text s)
  := by
  intro w cs cs' rest rest' h h' hrest hrest' heq
  have hkind := h.kind_eq h' heq
  cases w with
  | text s' =>
      obtain ⟨quoted, hquoted, rfl⟩ := h
      obtain ⟨quoted', hquoted', rfl⟩ := h'
      simp only [List.cons_append, List.append_assoc, List.cons.injEq, true_and,
        List.nil_append] at heq
      obtain ⟨htext, hends⟩ := hquoted.unique hquoted' heq
      rw [String.toList_inj.mp htext]
      exact ⟨rfl, hends⟩
  | _ => cases hkind

theorem isReadOnlyAs_array {items : List Value}
    (hitems : ∀ item ∈ items, IsReadOnlyAs SpelledBy item) :
  IsReadOnlyAs SpelledBy (array items)
  := by
  intro w cs cs' rest rest' h h' hrest hrest' heq
  have hkind := h.kind_eq h' heq
  cases w with
  | array items' =>
      obtain ⟨parts, inner, hparts, hjoined, rfl⟩ := (spelledBy_array_iff _ _).mp h
      obtain ⟨parts', inner', hparts', hjoined', rfl⟩ := (spelledBy_array_iff _ _).mp h'
      simp only [List.cons_append, List.append_assoc, List.cons.injEq, true_and,
        List.nil_append] at heq
      obtain ⟨rfl, hends⟩ := IsJoined.unique (by decide) SpelledBy.starts hitems hparts hparts'
        hjoined hjoined' heq
      exact ⟨rfl, hends⟩
  | _ => cases hkind

theorem isReadOnlyAs_object {members : List (String × Value)}
    (hmembers : ∀ member ∈ members, IsReadOnlyAs MemberSpelledBy member) :
  IsReadOnlyAs SpelledBy (object members)
  := by
  intro w cs cs' rest rest' h h' hrest hrest' heq
  have hkind := h.kind_eq h' heq
  cases w with
  | object members' =>
      obtain ⟨parts, inner, hparts, hjoined, rfl⟩ := (spelledBy_object_iff _ _).mp h
      obtain ⟨parts', inner', hparts', hjoined', rfl⟩ := (spelledBy_object_iff _ _).mp h'
      simp only [List.cons_append, List.append_assoc, List.cons.injEq, true_and,
        List.nil_append] at heq
      obtain ⟨rfl, hends⟩ := IsJoined.unique (by decide) MemberSpelledBy.starts hmembers hparts
        hparts' hjoined hjoined' heq
      exact ⟨rfl, hends⟩
  | _ => cases hkind

/-- A text, up to something that is no number, denotes at most one value. -/
theorem isReadOnlyAs (v : Value) :
  IsReadOnlyAs SpelledBy v
  := by
  -- the first character gives `w` the kind of `v`, and then only its parts are left to compare
  induction v with
  | null =>
      intro w cs cs' rest rest' h h' hrest hrest' heq
      have hkind := h.kind_eq h' heq
      cases w with
      | null =>
          obtain rfl : cs = _ := h
          obtain rfl : cs' = _ := h'
          exact ⟨rfl, List.append_cancel_left heq⟩
      | _ => cases hkind
  | bool b => exact isReadOnlyAs_bool b
  | number n =>
      intro w cs cs' rest rest' h h' hrest hrest' heq
      have hkind := h.kind_eq h' heq
      cases w with
      | number n' =>
          obtain ⟨rfl, hends⟩ := Number.SpelledBy.unique h h' hrest hrest' heq
          exact ⟨rfl, hends⟩
      | _ => cases hkind
  | text s => exact isReadOnlyAs_text s
  | array items ih => exact isReadOnlyAs_array ih
  | object members ih =>
      apply isReadOnlyAs_object
      exact fun member hmem => isReadOnlyAs_member (ih member hmem)

/-- A text denotes at most one value. -/
theorem SpelledBy.unique (h : v.SpelledBy cs) (h' : w.SpelledBy cs) :
  v = w
  := by
  have hstops : Stops [] := by
    intro c hc
    cases hc
  exact (isReadOnlyAs v h h' hstops hstops rfl).1

/-! ### Written texts -/

theorem quotes_quote (s : String) :
  ∃ quoted, Quotes quoted s.toList ∧ (quote s).toList = '"' :: (quoted ++ ['"'])
  := ⟨_, .flatMap_escapeChar s.toList, String.toList_ofList⟩

theorem writeItems_eq (items : List Value) :
  writeItems items = items.map write
  := by
  induction items with
  | nil => rfl
  | cons item items ih => rw [writeItems, ih, List.map_cons]

/-- The text of the `member` of an object. -/
def writeMember (member : String × Value) : String :=
  quote member.1 ++ ":" ++ member.2.write

theorem writeMembers_eq (members : List (String × Value)) :
  writeMembers members = members.map writeMember
  := by
  induction members with
  | nil => rfl
  | cons member members ih =>
      rw [writeMembers, ih, List.map_cons]
      rfl

theorem memberSpelledBy_writeMember {member : String × Value}
    (hvalue : member.2.SpelledBy member.2.write.toList) :
  MemberSpelledBy member (writeMember member).toList
  := by
  obtain ⟨quoted, hquoted, htext⟩ := quotes_quote member.1
  refine ⟨quoted, [], [], _, hquoted, areBlank_nil, areBlank_nil, hvalue, ?_⟩
  simp [writeMember, htext]

/-- The function `text` gives for each of `xs` a text that is `spelled` like it. -/
theorem forall₂_map_toList {α : Type} {spelled : α → List Char → Prop} {text : α → String}
    {xs : List α} (h : ∀ x ∈ xs, spelled x (text x).toList) :
  List.Forall₂ spelled xs ((xs.map text).map String.toList)
  := by
  rw [List.map_map, List.forall₂_map_right_iff, List.forall₂_same]
  exact h

/-- The text `v.write` denotes the value `v`. -/
theorem spelledBy_write (v : Value) :
  v.SpelledBy v.write.toList
  := by
  induction v with
  | null => rfl
  | bool b =>
      cases b with
      | false => rfl
      | true => rfl
  | number n => exact n.spelledBy_text
  | text s => exact quotes_quote s
  | array items ih =>
      rw [spelledBy_array_iff]
      refine ⟨_, _, forall₂_map_toList ih, isJoined_intercalate _, ?_⟩
      simp [write, writeItems_eq, String.toList_intercalate]
  | object members ih =>
      rw [spelledBy_object_iff]
      have hmembers := forall₂_map_toList fun member hmem =>
        memberSpelledBy_writeMember (ih member hmem)
      refine ⟨_, _, hmembers, isJoined_intercalate _, ?_⟩
      simp [write, writeMembers_eq, String.toList_intercalate]

end Value

/-! ### Faithful texts -/

/-- The text `s` is one value of the grammar, and it denotes `value` only. -/
structure IsTextOf (s : String) (value : Value) : Prop where
  isValue : IsValue s.toList
  denotes_iff : ∀ v : Value, v.SpelledBy s.toList ↔ v = value

/-- The text that `write` gives of a value satisfies `IsTextOf`. -/
theorem isTextOf_write (value : Value) :
  IsTextOf value.write value
  := by
  refine ⟨value.spelledBy_write.isValue, fun v => ⟨fun h => ?_, ?_⟩⟩
  · exact h.unique value.spelledBy_write
  · rintro rfl
    exact v.spelledBy_write

end LogRendering.Json
