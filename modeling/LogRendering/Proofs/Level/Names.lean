import LogRendering.Level
import LogRendering.Proofs.Lists
import Mathlib.Data.List.Infix
import Mathlib.Tactic.SplitIfs

/-!
# Names of levels

A level is read from a text through the upper case of the text.  The dotless `ı` is the one
character outside ASCII of which the upper case is a letter of a name, so the texts that are read as
a level are its names in any case, with the dots of the letter `i` or without them.  All other texts
are refused, and so a text is read by the names alone unless it is one of them that lacks dots.
-/

namespace LogRendering

namespace Text

/-! ### Upper case -/

/-- The character `c`, with a dot if it is the letter `ı`. -/
def dottedChar (c : Char) : Char :=
  if c = 'ı' then 'i' else c

/-- The text with `dottedChar` of each character. -/
def dotted (s : String) : String :=
  String.ofList (s.toList.map dottedChar)

/-- The letters that stand, alone or next to each other, in the upper case of the characters outside
ASCII other than the dotless letter. -/
def joinedLetters : List (List Char) :=
  [['S'], ['F', 'F'], ['F', 'I'], ['F', 'L']]

/-- The characters `cs` are in ASCII, and are not the upper case of characters outside it, but
for the letter `ı`. -/
structure IsUnligated (cs : List Char) : Prop where
  lt : ∀ c ∈ cs, c.toNat < 0x80
  joined_free : ∀ letters ∈ joinedLetters, ¬ letters <:+: cs

instance (cs : List Char) : Decidable (IsUnligated cs) :=
  have := List.decidableBAll (fun c : Char => c.toNat < 0x80) cs
  have := List.decidableBAll (fun letters => ¬ letters <:+: cs) joinedLetters
  decidable_of_iff ((∀ c ∈ cs, c.toNat < 0x80) ∧ ∀ letters ∈ joinedLetters, ¬ letters <:+: cs)
    ⟨fun h => ⟨h.1, h.2⟩, fun h => ⟨h.lt, h.joined_free⟩⟩

theorem dottedChar_of_ne {c : Char} (h : c.toNat ≠ 0x131) :
  dottedChar c = c
  := by
  apply if_neg
  rintro rfl
  exact h rfl

theorem toUpper_of_le {c : Char} (h : 0x80 ≤ c.toNat) :
  c.toUpper = c
  := by
  apply dif_neg
  rintro ⟨-, hle⟩
  have hz : c.toNat ≤ 'z'.toNat := hle
  have hlt : 'z'.toNat < 0x80 := by decide
  omega

/-- The upper case `upperChar c` is one letter, that of `dottedChar c`, or `c` is outside ASCII
and some of the `joinedLetters` stand in its upper case. -/
theorem upperChar_eq_or (c : Char) :
  upperChar c = [(dottedChar c).toUpper]
    ∨ (0x80 ≤ c.toNat ∧ dottedChar c = c) ∧ ∃ letters ∈ joinedLetters, letters <:+: upperChar c
  := by
  unfold upperChar
  split
  case h_2 hc =>
    obtain rfl : c = 'ı' := Char.toNat_inj.mp hc
    exact .inl (by decide)
  case h_11 _ hne _ _ _ _ _ _ _ _ => exact .inl (by rw [dottedChar_of_ne hne])
  all_goals
    rename_i hc
    exact .inr ⟨⟨by omega, dottedChar_of_ne (by omega)⟩, by decide⟩

/-- The upper case of characters is a `target` that `IsUnligated` exactly if that of each
character with a dot is its letter. -/
theorem flatMap_upperChar_eq_iff {target : List Char} (h : IsUnligated target) (cs : List Char) :
  cs.flatMap upperChar = target ↔ cs.map (fun c => (dottedChar c).toUpper) = target
  := by
  have hflatMap (hcs : ∀ c ∈ cs, upperChar c = [(dottedChar c).toUpper]) :
      cs.flatMap upperChar = cs.map fun c => (dottedChar c).toUpper := by
    rw [List.map_eq_flatMap, List.flatMap_congr hcs]
  constructor
  · rintro rfl
    symm
    apply hflatMap
    intro c hc
    obtain hone | ⟨-, letters, hletters, hstands⟩ := upperChar_eq_or c
    · exact hone
    · have hupper := List.infix_flatMap_of_mem hc upperChar
      exact absurd (hstands.trans hupper) (h.joined_free letters hletters)
  · rintro rfl
    apply hflatMap
    intro c hc
    obtain hone | ⟨⟨hle, hdotted⟩, -⟩ := upperChar_eq_or c
    · exact hone
    · have hlt := h.lt _ (List.mem_map_of_mem hc)
      rw [hdotted, toUpper_of_le hle] at hlt
      omega

theorem dotted_eq_self {s : String} (h : 'ı' ∉ s.toList) :
  dotted s = s
  := by
  have hchars : s.toList.map dottedChar = s.toList := by
    apply (map_eq_self_iff _ _).mpr
    intro c hc
    apply if_neg
    rintro rfl
    exact h hc
  rw [dotted, hchars, String.ofList_toList]

/-- The upper case of a text is a `target` that `IsUnligated` exactly if the text with dots is
the same but for the case of its letters. -/
theorem upper_eq_iff {s target : String} (h : IsUnligated target.toList)
    (hupper : target.toList.map Char.toUpper = target.toList) :
  upper s = target ↔ equalIgnoringCase (dotted s) target = true
  := by
  rw [equalIgnoringCase, beq_iff_eq, hupper, dotted, String.toList_ofList, List.map_map, upper,
    ← String.toList_inj, String.toList_ofList]
  apply flatMap_upperChar_eq_iff h

/-- A text that is the same as a `target` in ASCII but for the case of its letters is in
ASCII. -/
theorem lt_of_equalIgnoringCase {s target : String} (h : ∀ c ∈ target.toList, c.toNat < 0x80)
    (hupper : target.toList.map Char.toUpper = target.toList)
    (hequal : equalIgnoringCase s target = true) :
  ∀ c ∈ s.toList, c.toNat < 0x80
  := by
  intro c hc
  rw [equalIgnoringCase, beq_iff_eq, hupper] at hequal
  by_contra hle
  have hlt := h c.toUpper (hequal ▸ List.mem_map_of_mem hc)
  rw [toUpper_of_le (Nat.not_lt.mp hle)] at hlt
  exact hle hlt

end Text

/-! ### Names -/

namespace Level

/-- The names under which a level is known, in upper case. -/
def names : Level → List String
  | trace => ["TRACE"]
  | debug => ["DEBUG"]
  | info => ["INFO"]
  | warn => ["WARN", "WARNING"]
  | error => ["ERROR"]
  | fatal => ["FATAL"]

/-- The text `s` is one of `level.names`, up to the case of ASCII letters. -/
def IsNamed (level : Level) (s : String) : Prop :=
  ∃ name ∈ level.names, Text.equalIgnoringCase s name = true

/-- The text `s` in upper case is read as the level of which it is a name. -/
theorem ofUpperName?_eq_some_iff (s : String) (level : Level) :
  ofUpperName? s = some level ↔ s ∈ level.names
  := by
  constructor
  · intro h
    unfold ofUpperName? at h
    split_ifs at h with htrace hdebug hinfo hwarn herror hfatal
    all_goals obtain rfl := Option.some.inj h
    · simp [names, htrace]
    · simp [names, hdebug]
    · simp [names, hinfo]
    · simpa [names] using hwarn
    · simp [names, herror]
    · simp [names, hfatal]
  · intro h
    cases level with
    | warn =>
        simp only [names, List.mem_cons, List.not_mem_nil, or_false] at h
        obtain rfl | rfl := h
        · rfl
        · rfl
    | trace | debug | info | error | fatal =>
        obtain rfl := List.mem_singleton.mp h
        rfl

theorem isUnligated_of_mem_names {level : Level} :
  ∀ name ∈ level.names, Text.IsUnligated name.toList
  := by
  cases level with
  | trace | debug | info | warn | error | fatal => decide +kernel

theorem map_toUpper_of_mem_names {level : Level} :
  ∀ name ∈ level.names, name.toList.map Char.toUpper = name.toList
  := by
  cases level with
  | trace | debug | info | warn | error | fatal => decide

/-- The upper case of a text is a `name` exactly if the text after `dotted` is this name in any
case. -/
theorem upper_eq_name_iff {level : Level} {name : String} (h : name ∈ level.names) (s : String) :
  Text.upper s = name ↔ Text.equalIgnoringCase (Text.dotted s) name = true
  := Text.upper_eq_iff (isUnligated_of_mem_names name h) (map_toUpper_of_mem_names name h)

/-- A text is read as a level exactly if it `IsNamed` by the text after `dotted`. -/
theorem parse_eq_ok_iff (s : String) (level : Level) :
  parse s = .ok level ↔ level.IsNamed (Text.dotted s)
  := by
  have hparse : parse s = .ok level ↔ ofUpperName? (Text.upper s) = some level := by
    unfold parse
    cases ofUpperName? (Text.upper s) with
    | some level' => simp
    | none => simp
  rw [hparse, ofUpperName?_eq_some_iff]
  constructor
  · intro h
    exact ⟨_, h, (upper_eq_name_iff h s).mp rfl⟩
  · rintro ⟨name, h, hequal⟩
    rwa [(upper_eq_name_iff h s).mpr hequal]

/-- A text that is not read is quoted by the failure, unchanged. -/
theorem parse_eq_error_iff (s : String) (e : UnknownLevel) :
  parse s = .error e ↔ e = ⟨s⟩ ∧ ∀ level : Level, ¬ level.IsNamed (Text.dotted s)
  := by
  simp only [← parse_eq_ok_iff]
  unfold parse
  cases ofUpperName? (Text.upper s) with
  | some level => simp
  | none => simp [eq_comm]

/-- A text by which a level `IsNamed` is in ASCII. -/
theorem IsNamed.lt {level : Level} {s : String} (h : level.IsNamed s) :
  ∀ c ∈ s.toList, c.toNat < 0x80
  := by
  obtain ⟨name, hname, hequal⟩ := h
  exact Text.lt_of_equalIgnoringCase (isUnligated_of_mem_names _ hname).lt
    (map_toUpper_of_mem_names _ hname) hequal

theorem dotless_notMem_of_lt {s : String} (h : ∀ c ∈ s.toList, c.toNat < 0x80) :
  'ı' ∉ s.toList
  := by
  intro hmem
  have hlt := h _ hmem
  revert hlt
  decide

theorem message_of_parse_eq_error {s : String} {e : UnknownLevel} (h : parse s = .error e) :
  e.message = "Invalid log level: '" ++ s ++ "'"
  := by
  obtain ⟨rfl, -⟩ := (parse_eq_error_iff s e).mp h
  rfl

theorem exists_error_iff (s : String) :
  (∃ e, parse s = .error e) ↔ ∀ level : Level, ¬ level.IsNamed (Text.dotted s)
  := by
  constructor
  · rintro ⟨e, he⟩
    exact ((parse_eq_error_iff s e).mp he).2
  · intro h
    exact ⟨⟨s⟩, (parse_eq_error_iff s _).mpr ⟨rfl, h⟩⟩

/-- The text `level.name` is read as the level. -/
theorem parse_name (level : Level) :
  parse level.name = .ok level
  := by
  cases level with
  | trace | debug | info | warn | error | fatal => decide +kernel

/-! ### Texts that are read by their names -/

/-- The text `s` is read by the names of levels: as a level if it is one of its names in any
case, and of such a level the name is read again; and with a complaint that quotes the text if it
is no name, as it never is if one of its characters is not in ASCII. -/
structure IsReadByName (s : String) : Prop where
  ok_iff : ∀ level : Level, parse s = .ok level ↔ level.IsNamed s
  parse_name : ∀ level : Level, parse s = .ok level → parse level.name = .ok level
  error_iff : (∃ e, parse s = .error e) ↔ ∀ level : Level, ¬ level.IsNamed s
  error_of_le : ∀ c ∈ s.toList, 0x80 ≤ c.toNat → ∃ e, parse s = .error e
  message_eq : ∀ e, parse s = .error e → e.message = "Invalid log level: '" ++ s ++ "'"

/-- The text `s` is a name of a level but for dots that are missing: it holds the letter `ı`, and
a level `IsNamed` by it after `dotted`. -/
def LacksDots (s : String) : Prop :=
  'ı' ∈ s.toList ∧ ∃ level : Level, level.IsNamed (Text.dotted s)

/-- If the text does not satisfy `LacksDots`, `dotted` makes no difference to the levels that it
names. -/
theorem isNamed_dotted_iff {s : String} (h : ¬ LacksDots s) (level : Level) :
  level.IsNamed (Text.dotted s) ↔ level.IsNamed s
  := by
  constructor
  · intro hdotted
    have hmem : 'ı' ∉ s.toList := fun hmem => h ⟨hmem, level, hdotted⟩
    rwa [Text.dotted_eq_self hmem] at hdotted
  · intro hnamed
    rwa [Text.dotted_eq_self (dotless_notMem_of_lt hnamed.lt)]

theorem isReadByName_of_not_lacksDots {s : String} (h : ¬ LacksDots s) :
  IsReadByName s
  where
  ok_iff level := (parse_eq_ok_iff s level).trans (isNamed_dotted_iff h level)
  parse_name level _ := Level.parse_name level
  error_iff := by
    rw [exists_error_iff]
    apply forall_congr'
    intro level
    rw [isNamed_dotted_iff h]
  error_of_le c hc hle := by
    apply (exists_error_iff s).mpr
    intro level hnamed
    have hlt := ((isNamed_dotted_iff h level).mp hnamed).lt c hc
    omega
  message_eq _ := message_of_parse_eq_error

/-- A text is read as the levels of which it is a name after `dotted`, and any other text is
refused with a complaint that quotes it.  So a text satisfies `IsReadByName` exactly if it does
not satisfy `LacksDots`. -/
theorem isReadByName_iff_not_lacksDots (s : String) :
  (∀ level : Level, parse s = .ok level ↔ level.IsNamed (Text.dotted s))
    ∧ ((∃ e, parse s = .error e ∧ e.message = "Invalid log level: '" ++ s ++ "'")
      ↔ ∀ level : Level, ¬ level.IsNamed (Text.dotted s))
    ∧ (IsReadByName s ↔ ¬ LacksDots s)
  := by
  refine ⟨parse_eq_ok_iff s, ?_, ?_⟩
  · rw [← exists_error_iff]
    constructor
    · rintro ⟨e, he, -⟩
      exact ⟨e, he⟩
    · rintro ⟨e, he⟩
      exact ⟨e, he, message_of_parse_eq_error he⟩
  · constructor
    · rintro h ⟨hdotless, level, hlevel⟩
      have hnamed := (h.ok_iff level).mp ((parse_eq_ok_iff s level).mpr hlevel)
      exact dotless_notMem_of_lt hnamed.lt hdotless
    · apply isReadByName_of_not_lacksDots

/-- The letter `ı` makes a name of a level out of a text that is none. -/
theorem dotless_read_as_info :
  parse "ınfo" = .ok .info ∧ ¬ IsReadByName "ınfo"
  := by
  have hparse : parse "ınfo" = .ok .info := by
    rw [parse_eq_ok_iff]
    exact ⟨"INFO", by decide, by decide⟩
  constructor
  · exact hparse
  · intro h
    have hnamed := (h.ok_iff .info).mp hparse
    exact dotless_notMem_of_lt hnamed.lt (by decide)

end Level

end LogRendering
