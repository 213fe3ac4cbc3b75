import LogRendering.Proofs.Json.Numeral

/-!
# Parts with commas between them

What stands between brackets is blank, or it is a sequence of parts with commas between them
and blanks around them.  If each part can be read in one way only, so can the sequence, up to
the bracket that closes it.
-/

namespace LogRendering.Json

variable {cs cs' rest rest' : List Char}

/-! ### Blanks -/

/-- The text `cs` begins with a character that is neither blank nor stands after a value. -/
def Starts (cs : List Char) : Prop :=
  ∃ c tail, cs = c :: tail ∧ c ∉ [' ', '\t', '\n', '\r', ',', ']', '}']

/-- The text `cs` does not go on with a number. -/
def Stops (cs : List Char) : Prop :=
  ∀ c ∈ cs.head?, ¬ IsNumeralChar c

/-- Blanks end at the first character that is none. -/
theorem AreBlank.unique {c c' : Char} (h : AreBlank cs) (h' : AreBlank cs')
    (hc : c ∉ [' ', '\t', '\n', '\r']) (hc' : c' ∉ [' ', '\t', '\n', '\r'])
    (heq : cs ++ c :: rest = cs' ++ c' :: rest') :
  c = c' ∧ rest = rest'
  := by
  have hnot : ∀ d ∈ (c :: rest).head?, d ∉ [' ', '\t', '\n', '\r'] := by
    intro d hd
    rwa [← Option.some.inj hd]
  have hnot' : ∀ d ∈ (c' :: rest').head?, d ∉ [' ', '\t', '\n', '\r'] := by
    intro d hd
    rwa [← Option.some.inj hd]
  exact List.cons.inj (append_inj_of_longest h h' hnot hnot' heq).2

/-- Blanks before a comma or a bracket satisfy `Stops`. -/
theorem AreBlank.stops {c : Char} (h : AreBlank cs) (hc : c ∈ [',', ']', '}']) :
  Stops (cs ++ c :: rest)
  := by
  have hblank : ∀ d ∈ [' ', '\t', '\n', '\r', ',', ']', '}'], ¬ IsNumeralChar d := by
    simp [IsNumeralChar]
  intro d hd
  apply hblank
  cases cs with
  | nil =>
      rw [← Option.some.inj hd]
      exact List.mem_append_right [' ', '\t', '\n', '\r'] hc
  | cons e cs =>
      rw [← Option.some.inj hd]
      exact List.mem_append_left [',', ']', '}'] (h e List.mem_cons_self)

/-! ### Parts -/

/-- What follows a part: blanks, or a comma and further `parts`, with blanks around each. -/
def IsContinued : List (List Char) → List Char → Prop
  | [], cs => AreBlank cs
  | part :: parts, cs =>
    ∃ after before more, AreBlank after ∧ AreBlank before ∧ IsContinued parts more
      ∧ cs = after ++ ',' :: (before ++ (part ++ more))

/-- The `parts` have commas between them and blanks around them. -/
def IsJoined : List (List Char) → List Char → Prop
  | [], cs => AreBlank cs
  | part :: parts, cs =>
    ∃ before more, AreBlank before ∧ IsContinued parts more ∧ cs = before ++ (part ++ more)

/-- What follows a part of a sequence satisfies `Stops`. -/
theorem IsContinued.stops {parts : List (List Char)} {close : Char} (h : IsContinued parts cs)
    (hclose : close ∈ [']', '}']) :
  Stops (cs ++ close :: rest)
  := by
  cases parts with
  | nil => exact AreBlank.stops h (List.mem_cons_of_mem ',' hclose)
  | cons part parts =>
      obtain ⟨after, before, more, hafter, -, -, rfl⟩ := h
      rw [List.append_assoc, List.cons_append]
      exact hafter.stops List.mem_cons_self

section Unique

variable {α : Type} (spelled : α → List Char → Prop)

/-- A text of `x`, up to something that is no number, is the text of nothing else and of no
other length. -/
def IsReadOnlyAs (x : α) : Prop :=
  ∀ {y cs cs' rest rest'}, spelled x cs → spelled y cs' → Stops rest → Stops rest' →
    cs ++ rest = cs' ++ rest' → x = y ∧ rest = rest'

variable {spelled} {x y : α} {before before' : List Char}

/-- Blanks before a part do not change what it is read as, if it `IsReadOnlyAs` something. -/
theorem IsReadOnlyAs.unique_padded (hx : IsReadOnlyAs spelled x)
    (hstarts : ∀ {y cs}, spelled y cs → Starts cs) (h : spelled x cs) (h' : spelled y cs')
    (hbefore : AreBlank before) (hbefore' : AreBlank before') (hrest : Stops rest)
    (hrest' : Stops rest') (heq : before ++ (cs ++ rest) = before' ++ (cs' ++ rest')) :
  x = y ∧ rest = rest'
  := by
  have hnot : ∀ {z cs rest}, spelled z cs →
      ∀ c ∈ (cs ++ rest).head?, c ∉ [' ', '\t', '\n', '\r'] := by
    intro z cs rest h c hc hmem
    obtain ⟨d, tail, rfl, hd⟩ := hstarts h
    obtain rfl : d = c := Option.some.inj hc
    exact hd (List.mem_append_left [',', ']', '}'] hmem)
  have hparts := append_inj_of_longest hbefore hbefore' (hnot h) (hnot h') heq
  exact hx h h' hrest hrest' hparts.2

variable {xs ys : List α} {parts parts' : List (List Char)} {close : Char}

theorem not_blank (hclose : close ∈ [']', '}']) :
  close ∉ [' ', '\t', '\n', '\r']
  := by
  simp only [List.mem_cons, List.not_mem_nil, or_false] at hclose
  obtain rfl | rfl := hclose
  · decide
  · decide

/-- The bracket `close` does not begin a part. -/
theorem close_ne_part (hclose : close ∈ [']', '}']) (h : AreBlank cs) (hbefore : AreBlank before)
    (hpart : Starts cs') :
  cs ++ close :: rest ≠ before ++ (cs' ++ rest')
  := by
  intro heq
  obtain ⟨c, tail, rfl, hc⟩ := hpart
  have hnot : c ∉ [' ', '\t', '\n', '\r'] := fun hmem =>
    hc (List.mem_append_left [',', ']', '}'] hmem)
  obtain rfl := (AreBlank.unique h hbefore (not_blank hclose) hnot heq).1
  exact hc (List.mem_append_right [' ', '\t', '\n', '\r', ','] hclose)

/-- What follows a part is read in one way only, if each of `xs` is. -/
theorem IsContinued.unique (hclose : close ∈ [']', '}'])
    (hstarts : ∀ {y cs}, spelled y cs → Starts cs) (hxs : ∀ x ∈ xs, IsReadOnlyAs spelled x)
    (hparts : List.Forall₂ spelled xs parts) (hparts' : List.Forall₂ spelled ys parts')
    (h : IsContinued parts cs) (h' : IsContinued parts' cs')
    (heq : cs ++ close :: rest = cs' ++ close :: rest') :
  xs = ys ∧ rest = rest'
  := by
  have hcomma : ',' ∉ [' ', '\t', '\n', '\r'] := by decide
  have hblank := not_blank hclose
  have hne : close ≠ ',' := by
    rintro rfl
    exact absurd hclose (by decide)
  induction hparts generalizing ys parts' cs cs' with
  | nil =>
      cases hparts' with
      | nil => exact ⟨rfl, (AreBlank.unique h h' hblank hblank heq).2⟩
      | cons hpart' hparts' =>
          obtain ⟨after', before', more', hafter', -, -, rfl⟩ := h'
          rw [List.append_assoc, List.cons_append] at heq
          exact absurd (AreBlank.unique h hafter' hblank hcomma heq).1 hne
  | cons hpart hparts ih =>
      obtain ⟨after, before, more, hafter, hbefore, hmore, rfl⟩ := h
      rw [List.append_assoc, List.cons_append] at heq
      cases hparts' with
      | nil =>
          exact absurd (AreBlank.unique hafter h' hcomma hblank heq).1.symm hne
      | cons hpart' hparts' =>
          obtain ⟨after', before', more', hafter', hbefore', hmore', rfl⟩ := h'
          obtain ⟨hx, hxs⟩ := List.forall_mem_cons.mp hxs
          rw [List.append_assoc after', List.cons_append] at heq
          -- both go on with a comma, and so the parts after it begin at the same place
          have hends := (AreBlank.unique hafter hafter' hcomma hcomma heq).2
          simp only [List.append_assoc] at hends
          obtain ⟨rfl, hends⟩ := hx.unique_padded hstarts hpart hpart' hbefore hbefore'
            (hmore.stops hclose) (hmore'.stops hclose) hends
          obtain ⟨rfl, hrest⟩ := ih hxs hparts' hmore hmore' hends
          exact ⟨rfl, hrest⟩

/-- A sequence of parts is read in one way only, if each of `xs` is. -/
theorem IsJoined.unique (hclose : close ∈ [']', '}'])
    (hstarts : ∀ {y cs}, spelled y cs → Starts cs) (hxs : ∀ x ∈ xs, IsReadOnlyAs spelled x)
    (hparts : List.Forall₂ spelled xs parts) (hparts' : List.Forall₂ spelled ys parts')
    (h : IsJoined parts cs) (h' : IsJoined parts' cs')
    (heq : cs ++ close :: rest = cs' ++ close :: rest') :
  xs = ys ∧ rest = rest'
  := by
  cases hparts with
  | nil =>
      cases hparts' with
      | nil => exact ⟨rfl, (AreBlank.unique h h' (not_blank hclose) (not_blank hclose) heq).2⟩
      | cons hpart' hparts' =>
          obtain ⟨before', more', hbefore', -, rfl⟩ := h'
          simp only [List.append_assoc] at heq
          exact absurd heq (close_ne_part hclose h hbefore' (hstarts hpart'))
  | cons hpart hparts =>
      obtain ⟨before, more, hbefore, hmore, rfl⟩ := h
      simp only [List.append_assoc] at heq
      cases hparts' with
      | nil => exact absurd heq.symm (close_ne_part hclose h' hbefore (hstarts hpart))
      | cons hpart' hparts' =>
          obtain ⟨before', more', hbefore', hmore', rfl⟩ := h'
          obtain ⟨hx, hxs⟩ := List.forall_mem_cons.mp hxs
          simp only [List.append_assoc] at heq
          obtain ⟨rfl, hends⟩ := hx.unique_padded hstarts hpart hpart' hbefore hbefore'
            (hmore.stops hclose) (hmore'.stops hclose) heq
          obtain ⟨rfl, hrest⟩ := IsContinued.unique hclose hstarts hxs hparts hparts' hmore
            hmore' hends
          exact ⟨rfl, hrest⟩

end Unique

/-! ### Sequences -/

/-- Parts that satisfy `IsContinued` are a sequence in every grammar that has blanks around parts
and commas between them. -/
theorem IsContinued.isSequence {IsPart IsPadded IsSequence : List Char → Prop}
    (hpad : ∀ {before part after}, AreBlank before → IsPart part → AreBlank after →
      IsPadded (before ++ (part ++ after)))
    (hone : ∀ {part}, IsPadded part → IsSequence part)
    (hmore : ∀ {part parts}, IsPadded part → IsSequence parts →
      IsSequence (part ++ ',' :: parts))
    {before part : List Char} (hbefore : AreBlank before) (hpart : IsPart part)
    {parts : List (List Char)} (hparts : ∀ part ∈ parts, IsPart part)
    (h : IsContinued parts cs) :
  IsSequence (before ++ (part ++ cs))
  := by
  induction parts generalizing before part cs with
  | nil => exact hone (hpad hbefore hpart h)
  | cons part' parts ih =>
      obtain ⟨after, before', more, hafter, hbefore', hmore', rfl⟩ := h
      obtain ⟨hpart', hparts⟩ := List.forall_mem_cons.mp hparts
      have hsequence := hmore (hpad hbefore hpart hafter) (ih hbefore' hpart' hparts hmore')
      simpa only [List.append_assoc] using hsequence

theorem isContinued_flatMap (parts : List (List Char)) :
  IsContinued parts (parts.flatMap (',' :: ·))
  := by
  induction parts with
  | nil => exact areBlank_nil
  | cons part parts ih => exact ⟨[], [], _, areBlank_nil, areBlank_nil, ih, rfl⟩

theorem intercalate_cons (part : List Char) (parts : List (List Char)) :
  [','].intercalate (part :: parts) = part ++ parts.flatMap (',' :: ·)
  := by
  induction parts generalizing part with
  | nil => rw [List.intercalate_singleton, List.flatMap_nil, List.append_nil]
  | cons part' parts ih =>
      rw [List.intercalate_cons_cons, ih, List.flatMap_cons, List.append_assoc]
      rfl

/-- The `parts` with commas between them and no blanks satisfy `IsJoined`. -/
theorem isJoined_intercalate (parts : List (List Char)) :
  IsJoined parts ([','].intercalate parts)
  := by
  cases parts with
  | nil => exact areBlank_nil
  | cons part parts =>
      rw [intercalate_cons]
      exact ⟨[], _, areBlank_nil, isContinued_flatMap parts, rfl⟩

end LogRendering.Json
