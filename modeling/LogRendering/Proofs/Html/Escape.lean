import LogRendering.Html.Escape
import LogRendering.Proofs.Lists
import Mathlib.Tactic.Use

/-!
# Escaped text

Escaped text holds none of the characters that delimit tags and quoted values, and every
ampersand in it begins an entity.  Replacing the entities by their characters in one pass
from left to right gives the text back, so that escaping is injective.  Every text without such
characters, in which every ampersand begins an entity, is an escaped one.
-/

namespace LogRendering.Html

/-! ### Characters of markup -/

/-- The character `c` neither delimits a tag nor a quoted value. -/
def IsHarmless (c : Char) : Prop :=
  c ≠ '<' ∧ c ≠ '>' ∧ c ≠ '"' ∧ c ≠ '\''

instance (c : Char) : Decidable (IsHarmless c) :=
  inferInstanceAs (Decidable (_ ∧ _))

theorem isHarmless_of_mem_escapeChar {c d : Char} (h : d ∈ escapeChar c) :
  IsHarmless d
  := by
  unfold escapeChar at h
  split at h
  case h_6 =>
    obtain rfl := List.mem_singleton.mp h
    unfold IsHarmless
    simp_all
  all_goals
    revert d
    simp [IsHarmless]

/-- All characters of an escaped text satisfy `IsHarmless`. -/
theorem isHarmless_of_mem_escape {s : String} {c : Char} (h : c ∈ (escape s).toList) :
  IsHarmless c
  := by
  simp only [escape, String.toList_ofList, List.mem_flatMap] at h
  obtain ⟨d, -, hd⟩ := h
  apply isHarmless_of_mem_escapeChar hd

/-- A character that `IsHarmless` and no ampersand is not changed by `escapeChar`. -/
theorem escapeChar_eq_self {c : Char} (h : IsHarmless c) (hamp : c ≠ '&') :
  escapeChar c = [c]
  := by
  obtain ⟨hlt, hgt, hquote, happ⟩ := h
  unfold escapeChar
  split
  all_goals simp_all

/-- A text without characters of markup and without ampersands is not changed by `escape`. -/
theorem escape_eq_self {s : String} (h : ∀ c ∈ s.toList, IsHarmless c ∧ c ≠ '&') :
  escape s = s
  := by
  have hchars : ∀ cs : List Char, (∀ c ∈ cs, IsHarmless c ∧ c ≠ '&') →
      cs.flatMap escapeChar = cs := by
    intro cs hcs
    induction cs with
    | nil => rfl
    | cons c cs ih =>
        obtain ⟨hharmless, hamp⟩ := hcs c List.mem_cons_self
        rw [List.flatMap_cons, escapeChar_eq_self hharmless hamp,
          ih fun d hd => hcs d (List.mem_cons_of_mem c hd)]
        rfl
  rw [escape, hchars _ h, String.ofList_toList]

/-! ### Entities -/

/-- Every ampersand in `cs` begins one of the given `entities`. -/
def AmpersandsBegin (entities : List (List Char)) (cs : List Char) : Prop :=
  ∀ front rest, cs = front ++ '&' :: rest → ∃ entity ∈ entities, entity <+: '&' :: rest

/-- A text without ampersands satisfies `AmpersandsBegin`. -/
theorem AmpersandsBegin.of_notMem
    (entities : List (List Char)) {cs : List Char} (h : '&' ∉ cs) :
  AmpersandsBegin entities cs
  := by
  rintro front rest rfl
  simp at h

/-- An entity satisfies `AmpersandsBegin` if only its first character is an ampersand. -/
theorem AmpersandsBegin.of_mem
    {entities : List (List Char)} {entity : List Char} (h : '&' :: entity ∈ entities)
    (hrest : '&' ∉ entity) :
  AmpersandsBegin entities ('&' :: entity)
  := by
  intro front rest heq
  cases front with
  | nil =>
      use '&' :: entity, h
      rw [heq]
      apply List.prefix_refl
  | cons c front =>
      obtain ⟨-, rfl⟩ := List.cons.inj heq
      simp at hrest

/-- Texts put together satisfy `AmpersandsBegin` if each does. -/
theorem AmpersandsBegin.append
    {entities : List (List Char)} {cs ds : List Char} (hcs : AmpersandsBegin entities cs)
    (hds : AmpersandsBegin entities ds) :
  AmpersandsBegin entities (cs ++ ds)
  := by
  intro front rest heq
  obtain ⟨middle, rfl, h⟩ | ⟨middle, rfl, h⟩ := List.append_eq_append_iff.mp heq
  · apply hds middle rest h
  · cases middle with
    | nil => apply hds [] rest (by simpa using h.symm)
    | cons c middle =>
        obtain ⟨rfl, rfl⟩ := List.cons.inj h
        obtain ⟨entity, hmem, hentity⟩ := hcs front middle rfl
        use entity, hmem
        apply hentity.trans
        apply List.prefix_append

/-- The end of a text satisfies `AmpersandsBegin` if the text does. -/
theorem AmpersandsBegin.of_append
    {entities : List (List Char)} {cs ds : List Char} (h : AmpersandsBegin entities (cs ++ ds)) :
  AmpersandsBegin entities ds
  := by
  rintro front rest rfl
  apply h (cs ++ front) rest
  rw [List.append_assoc]

/-- A concatenation satisfies `AmpersandsBegin` if each `f a` in it does. -/
theorem AmpersandsBegin.flatMap
    {α : Type} {entities : List (List Char)} {f : α → List Char} {as : List α}
    (h : ∀ a ∈ as, AmpersandsBegin entities (f a)) :
  AmpersandsBegin entities (as.flatMap f)
  := by
  induction as with
  | nil => apply AmpersandsBegin.of_notMem _ List.not_mem_nil
  | cons a as ih =>
      rw [List.flatMap_cons]
      apply AmpersandsBegin.append
      · apply h a List.mem_cons_self
      · apply ih
        intro b hb
        apply h b (List.mem_cons_of_mem a hb)

/-- The entities that `escapeChar` gives in place of the characters of markup. -/
def entities : List (List Char) :=
  ["&amp;".toList, "&lt;".toList, "&gt;".toList, "&quot;".toList, "&#x27;".toList]

theorem ampersandsBegin_escapeChar (c : Char) :
  AmpersandsBegin entities (escapeChar c)
  := by
  unfold escapeChar
  split
  case h_6 hne _ _ _ _ =>
    apply AmpersandsBegin.of_notMem
    simpa using fun h => hne h.symm
  all_goals apply AmpersandsBegin.of_mem (by decide) (by decide)

/-- Every ampersand in an escaped text begins one of the `entities`. -/
theorem ampersandsBegin_escape (s : String) :
  AmpersandsBegin entities (escape s).toList
  := by
  rw [escape, String.toList_ofList]
  apply AmpersandsBegin.flatMap
  intro c _
  apply ampersandsBegin_escapeChar

/-! ### Entities replaced by their characters -/

/-- The text with each of the `entities` replaced by its character, in one pass from left to
right. -/
def unescape : List Char → List Char
  | [] => []
  | '&' :: 'a' :: 'm' :: 'p' :: ';' :: rest => '&' :: unescape rest
  | '&' :: 'l' :: 't' :: ';' :: rest => '<' :: unescape rest
  | '&' :: 'g' :: 't' :: ';' :: rest => '>' :: unescape rest
  | '&' :: 'q' :: 'u' :: 'o' :: 't' :: ';' :: rest => '"' :: unescape rest
  | '&' :: '#' :: 'x' :: '2' :: '7' :: ';' :: rest => '\'' :: unescape rest
  | c :: rest => c :: unescape rest

theorem unescape_escapeChar_append (c : Char) (rest : List Char) :
  unescape (escapeChar c ++ rest) = c :: unescape rest
  := by
  unfold escapeChar
  split
  case h_6 hne _ _ _ _ =>
    rw [List.singleton_append, unescape]
    all_goals
      rintro _ rfl
      contradiction
  all_goals rfl

/-- Reading by `unescape` undoes `escape`. -/
theorem unescape_escape (s : String) :
  unescape (escape s).toList = s.toList
  := by
  rw [escape, String.toList_ofList]
  apply flatMap_read_back rfl unescape_escapeChar_append

/-- Texts with the same escaped text are equal. -/
theorem escape_injective {s t : String} (h : escape s = escape t) :
  s = t
  := by
  apply String.toList_inj.mp
  rw [← unescape_escape s, h, unescape_escape]

/-! ### Texts that are escaped -/

/-- An escaped text is added to a buffer one character after the other. -/
theorem pushEscaped_eq_foldl (buffer s : String) :
  pushEscaped buffer s
    = s.toList.foldl (fun out c => out ++ String.ofList (escapeChar c)) buffer
  := by
  rw [pushEscaped, escape]
  induction s.toList generalizing buffer with
  | nil => exact String.append_empty
  | cons c cs ih =>
      rw [List.flatMap_cons, String.ofList_append, ← String.append_assoc, ih, List.foldl_cons]

theorem pushEscaped_append (buffer s t : String) :
  pushEscaped buffer (s ++ t) = pushEscaped (pushEscaped buffer s) t
  := by
  rw [pushEscaped_eq_foldl, pushEscaped_eq_foldl, pushEscaped_eq_foldl, String.toList_append,
    List.foldl_append]

/-- Each of the `entities` is `escapeChar` of a character. -/
theorem exists_escapeChar_eq_of_mem :
  ∀ entity ∈ entities, ∃ c, escapeChar c = entity
  := by
  simp only [entities, List.forall_mem_cons, List.not_mem_nil, false_imp_iff, implies_true,
    and_true]
  exact ⟨⟨'&', rfl⟩, ⟨'<', rfl⟩, ⟨'>', rfl⟩, ⟨'"', rfl⟩, ⟨'\'', rfl⟩⟩

/-- A text that begins with a harmless character, and in which every ampersand begins one of the
`entities`, begins with an escaped character. -/
theorem exists_eq_escapeChar_append {c : Char} {cs : List Char} (hc : IsHarmless c)
    (hamp : AmpersandsBegin entities (c :: cs)) :
  ∃ d rest, c :: cs = escapeChar d ++ rest
  := by
  by_cases hne : c = '&'
  · subst hne
    obtain ⟨entity, hmem, rest, hrest⟩ := hamp [] cs rfl
    obtain ⟨d, rfl⟩ := exists_escapeChar_eq_of_mem entity hmem
    exact ⟨d, rest, hrest.symm⟩
  · use c, cs
    rw [escapeChar_eq_self hc hne, List.singleton_append]

theorem escapeChar_ne_nil (c : Char) :
  escapeChar c ≠ []
  := by
  unfold escapeChar
  split
  all_goals apply List.cons_ne_nil

/-- A text of harmless characters, in which every ampersand begins one of the `entities`, is made
of escaped characters. -/
theorem exists_flatMap_escapeChar_eq {cs : List Char} (hharmless : ∀ c ∈ cs, IsHarmless c)
    (hamp : AmpersandsBegin entities cs) :
  ∃ ds : List Char, ds.flatMap escapeChar = cs
  := by
  -- on the length, as an entity is more than the first character
  induction hlength : cs.length using Nat.strongRecOn generalizing cs with
  | _ n ih =>
      subst hlength
      cases cs with
      | nil => exact ⟨[], rfl⟩
      | cons c cs =>
          obtain ⟨d, rest, heq⟩ := exists_eq_escapeChar_append (hharmless c List.mem_cons_self) hamp
          rw [heq] at hharmless hamp ih ⊢
          have hlt : rest.length < (escapeChar d ++ rest).length := by
            have hpos := List.length_pos_iff.mpr (escapeChar_ne_nil d)
            rw [List.length_append]
            omega
          obtain ⟨ds, rfl⟩ := ih _ hlt (fun c hc => hharmless c (List.mem_append_right _ hc))
            hamp.of_append rfl
          exact ⟨d :: ds, List.flatMap_cons⟩

/-- Escaping adds to a buffer, text by text.  `unescape` undoes it in one pass, whatever the
text.  The texts that it makes are those whose characters satisfy `IsHarmless` and in which every
ampersand begins one of the `entities`. -/
theorem escape_onto_and_back :
  (∀ buffer s t : String, pushEscaped buffer (s ++ t) = pushEscaped (pushEscaped buffer s) t
      ∧ buffer.toList <+: (pushEscaped buffer s).toList)
    ∧ (∀ s : String, unescape (escape s).toList = s.toList)
    ∧ ∀ t : String, (∃ s, escape s = t)
      ↔ (∀ c ∈ t.toList, IsHarmless c) ∧ AmpersandsBegin entities t.toList
  := by
  refine ⟨?_, unescape_escape, ?_⟩
  · intro buffer s t
    constructor
    · apply pushEscaped_append
    · rw [pushEscaped, String.toList_append]
      apply List.prefix_append
  · intro t
    constructor
    · rintro ⟨s, rfl⟩
      exact ⟨fun c => isHarmless_of_mem_escape, ampersandsBegin_escape s⟩
    · rintro ⟨hharmless, hamp⟩
      obtain ⟨cs, hcs⟩ := exists_flatMap_escapeChar_eq hharmless hamp
      use String.ofList cs
      rw [escape, String.toList_ofList, hcs, String.ofList_toList]

end LogRendering.Html
