import LogRendering.Message.Map
import LogRendering.Proofs.Field.Parts
import LogRendering.Proofs.Html.Escape
import LogRendering.Proofs.SortedMap

/-!
# Map messages read back from XML

A map message as XML has a line for each entry, with the key in an attribute value and the
displayed value in the content of an element.  Escaped text holds neither the quote nor the
angle bracket at which a reader stops, and a reader that decodes the entities of what is before
them finds the keys and the displayed values again, whatever the texts are.
-/

namespace LogRendering

/-! ### Escaped text -/

namespace MapMessage

/-- Characters other than the apostrophe have the same entities in XML and in HTML. -/
theorem xmlEscapeChar_eq_escapeChar {c : Char} (h : c ≠ '\'') :
  xmlEscapeChar c = Html.escapeChar c
  := by
  unfold xmlEscapeChar Html.escapeChar
  split
  case h_5 => exact absurd rfl h
  case h_6 => simp
  all_goals rfl

theorem isHarmless_of_mem_xmlEscapeChar {c d : Char} (h : d ∈ xmlEscapeChar c) :
  Html.IsHarmless d
  := by
  by_cases hc : c = '\''
  · subst hc
    revert d
    simp [xmlEscapeChar, Html.IsHarmless]
  · rw [xmlEscapeChar_eq_escapeChar hc] at h
    exact Html.isHarmless_of_mem_escapeChar h

/-- All characters of a text after `xmlEscape` satisfy `IsHarmless`. -/
theorem isHarmless_of_mem_xmlEscape {s : String} {c : Char} (h : c ∈ (xmlEscape s).toList) :
  Html.IsHarmless c
  := by
  simp only [xmlEscape, String.toList_ofList, List.mem_flatMap] at h
  obtain ⟨d, -, hd⟩ := h
  exact isHarmless_of_mem_xmlEscapeChar hd

end MapMessage

namespace Xml

open MapMessage

/-- The text with each of the five entities replaced by its character, in one pass from left to
right. -/
def unescape : List Char → List Char
  | [] => []
  | '&' :: 'a' :: 'm' :: 'p' :: ';' :: rest => '&' :: unescape rest
  | '&' :: 'l' :: 't' :: ';' :: rest => '<' :: unescape rest
  | '&' :: 'g' :: 't' :: ';' :: rest => '>' :: unescape rest
  | '&' :: 'q' :: 'u' :: 'o' :: 't' :: ';' :: rest => '"' :: unescape rest
  | '&' :: 'a' :: 'p' :: 'o' :: 's' :: ';' :: rest => '\'' :: unescape rest
  | c :: rest => c :: unescape rest

theorem unescape_xmlEscapeChar_append (c : Char) (rest : List Char) :
  unescape (xmlEscapeChar c ++ rest) = c :: unescape rest
  := by
  unfold xmlEscapeChar
  split
  case h_6 hne _ _ _ _ =>
    rw [List.singleton_append, unescape]
    all_goals
      rintro _ rfl
      contradiction
  all_goals rfl

/-- Reading by `unescape` undoes `xmlEscape`. -/
theorem unescape_xmlEscape (s : String) :
  unescape (xmlEscape s).toList = s.toList
  := by
  rw [xmlEscape, String.toList_ofList]
  apply flatMap_read_back rfl unescape_xmlEscapeChar_append

/-! ### Reading -/

/-- The text up to the next `mark`, with its entities replaced, and what begins with the mark. -/
def readText (mark : Char) (cs : List Char) : String × List Char :=
  (String.ofList (unescape (cs.takeWhile (· ≠ mark))), cs.dropWhile (· ≠ mark))

/-- What stands in the line of an entry before its key. -/
def beforeKey : List Char :=
  "  <Entry key=\"".toList

/-- What stands in the line of an entry between its key and its content. -/
def afterKey : List Char :=
  "\">".toList

/-- What stands in the line of an entry after its content. -/
def afterContent : List Char :=
  "</Entry>\n".toList

/-- An entry read from its line at the head of `cs`, and what follows the line.  The key goes up
to the next quote, and the content up to the next angle bracket. -/
def readLine? (cs : List Char) : Option ((String × String) × List Char) := do
  let key := readText '"' (← cs.dropPrefix? beforeKey)
  let content := readText '<' (← key.2.dropPrefix? afterKey)
  let rest ← content.2.dropPrefix? afterContent
  return ((key.1, content.1), rest)

theorem length_readText_le (mark : Char) (cs : List Char) :
  (readText mark cs).2.length ≤ cs.length
  := (List.dropWhile_suffix _).length_le

theorem length_of_dropPrefix? {cs marks rest : List Char} (h : cs.dropPrefix? marks = some rest) :
  cs.length = marks.length + rest.length
  := by
  obtain ⟨marks', rfl, heq⟩ := List.dropPrefix?_eq_some_iff.mp h
  rw [eq_of_beq heq, List.length_append]

/-- What `readLine?` leaves is shorter than the text. -/
theorem length_lt_of_readLine? {cs rest : List Char} {entry : String × String}
    (h : readLine? cs = some (entry, rest)) :
  rest.length < cs.length
  := by
  simp only [readLine?, Option.bind_eq_bind, Option.bind_eq_some_iff, Option.pure_def,
    Option.some.injEq, Prod.mk.injEq] at h
  obtain ⟨inKey, hkey, inContent, hcontent, follow, hrest, -, rfl⟩ := h
  have hmarks : 0 < beforeKey.length := by decide
  calc follow.length ≤ (readText '<' inContent).2.length := by
        rw [length_of_dropPrefix? hrest]
        apply Nat.le_add_left
    _ ≤ inContent.length := length_readText_le '<' inContent
    _ ≤ (readText '"' inKey).2.length := by
        rw [length_of_dropPrefix? hcontent]
        apply Nat.le_add_left
    _ ≤ inKey.length := length_readText_le '"' inKey
    _ < cs.length := by
        rw [length_of_dropPrefix? hkey]
        exact Nat.lt_add_of_pos_left hmarks

/-- The entries of the lines of `cs`, each by `readLine?`, up to the end tag of a map. -/
def readEntries? (cs : List Char) : Option (List (String × String)) :=
  if cs = "</Map>".toList then some []
  else
    match _h : readLine? cs with
    | none => none
    | some (entry, rest) => (readEntries? rest).map (entry :: ·)
termination_by cs.length
decreasing_by exact length_lt_of_readLine? _h

/-- The entries of a map that is the whole text `xml`. -/
def read? (xml : String) : Option (List (String × String)) := do
  readEntries? (← xml.toList.dropPrefix? "<Map>\n".toList)

/-! ### Entries read back -/

/-- A text after `xmlEscape` is read up to a `mark` that cannot stand in it. -/
theorem readText_xmlEscape (s : String) {mark : Char} (h : ¬ Html.IsHarmless mark)
    {rest : List Char} (hrest : rest.head? = some mark) :
  readText mark ((xmlEscape s).toList ++ rest) = (s, rest)
  := by
  have hne : ∀ c ∈ (xmlEscape s).toList, (c ≠ mark : Bool) := by
    intro c hc
    apply decide_eq_true
    rintro rfl
    exact h (isHarmless_of_mem_xmlEscape hc)
  obtain ⟨tail, rfl⟩ := List.head?_eq_some_iff.mp hrest
  rw [readText, List.takeWhile_append_of_pos hne, List.dropWhile_append_of_pos hne]
  simp [unescape_xmlEscape]

theorem dropPrefix?_append_self (marks rest : List Char) :
  (marks ++ rest).dropPrefix? marks = some rest
  := List.dropPrefix?_append_of_beq rest BEq.rfl

theorem toList_xmlEntry (key text : String) :
  (xmlEntry key text).toList = beforeKey ++ (xmlEscape key).toList ++ afterKey
    ++ (xmlEscape text).toList ++ afterContent
  := by
  -- for any texts, as a literal would be compared with every text that is put together
  have happend : ∀ a b c d e : String, (a ++ b ++ c ++ d ++ e).toList
      = a.toList ++ b.toList ++ c.toList ++ d.toList ++ e.toList := by
    intros
    simp only [String.toList_append]
  exact happend _ (xmlEscape key) _ (xmlEscape text) _

/-- The line `xmlEntry key text` is read as the entry. -/
theorem readLine?_xmlEntry (key text : String) (rest : List Char) :
  readLine? ((xmlEntry key text).toList ++ rest) = some ((key, text), rest)
  := by
  have hkey : ∀ cs, readText '"' ((xmlEscape key).toList ++ (afterKey ++ cs))
      = (key, afterKey ++ cs) := fun cs => readText_xmlEscape key (by decide) rfl
  have htext : ∀ cs, readText '<' ((xmlEscape text).toList ++ (afterContent ++ cs))
      = (text, afterContent ++ cs) := fun cs => readText_xmlEscape text (by decide) rfl
  simp only [toList_xmlEntry, List.append_assoc, readLine?, dropPrefix?_append_self, hkey, htext,
    Option.bind_eq_bind, Option.bind_some, Option.pure_def]

theorem readEntries?_endTag :
  readEntries? "</Map>".toList = some []
  := by
  rw [readEntries?, if_pos rfl]

/-- An entry at the head of a text, read by `readLine?`, is the first of its entries. -/
theorem readEntries?_of_readLine? {cs rest : List Char} {entry : String × String}
    (h : readLine? cs = some (entry, rest)) :
  readEntries? cs = (readEntries? rest).map (entry :: ·)
  := by
  have hend : readLine? "</Map>".toList = none := by decide
  have hne : cs ≠ "</Map>".toList := by
    rintro rfl
    cases hend.symm.trans h
  rw [readEntries?, if_neg hne]
  split
  next hnone => cases h.symm.trans hnone
  next hsome =>
    cases h.symm.trans hsome
    rfl

/-! ### Written entries -/

/-- The lines of XML of the given entries, each by `xmlEntry`. -/
def lines : List (String × String) → String
  | [] => ""
  | (key, text) :: rest => xmlEntry key text ++ lines rest

/-- The map of the given `entries`. -/
def document (entries : List (String × String)) : String :=
  "<Map>\n" ++ lines entries ++ "</Map>"

theorem toList_document (entries : List (String × String)) :
  (document entries).toList = "<Map>\n".toList ++ ((lines entries).toList ++ "</Map>".toList)
  := by
  have happend : ∀ a b c : String, (a ++ b ++ c).toList = a.toList ++ (b.toList ++ c.toList) := by
    intros
    simp only [String.toList_append, List.append_assoc]
  exact happend _ _ _

/-- The `lines` of entries at the head of a text are read as its first entries. -/
theorem readEntries?_lines_append (entries : List (String × String)) (rest : List Char) :
  readEntries? ((lines entries).toList ++ rest) = (readEntries? rest).map (entries ++ ·)
  := by
  induction entries with
  | nil =>
      rw [lines, String.toList_empty, List.nil_append]
      exact Option.map_id'.symm
  | cons entry entries ih =>
      rw [lines, String.toList_append, List.append_assoc,
        readEntries?_of_readLine? (readLine?_xmlEntry _ _ _), ih, Option.map_map]
      rfl

/-- The `document` of entries is read as the entries. -/
theorem read?_document (entries : List (String × String)) :
  read? (document entries) = some entries
  := by
  rw [read?, toList_document, dropPrefix?_append_self, Option.bind_eq_bind, Option.bind_some,
    readEntries?_lines_append, readEntries?_endTag, Option.map_some, List.append_nil]

/-- Entries with the same `document` are the same. -/
theorem document_inj (entries entries' : List (String × String)) :
  document entries = document entries' ↔ entries = entries'
  := by
  constructor
  · intro h
    apply Option.some.inj
    rw [← read?_document entries, h, read?_document]
  · rintro rfl
    rfl

end Xml

/-! ### Messages -/

namespace MapMessage

/-- The keys of `m` with the displayed texts of their values. -/
def shown (m : MapMessage) : SortedMap String :=
  m.entries.mapValues fun v => v.display.text

/-- Entries of which each value `IsLegible` are written with their displayed texts. -/
theorem xmlEntries_eq {entries : List (String × FieldValue)}
    (h : ∀ entry ∈ entries, entry.2.IsLegible) :
  xmlEntries entries = .ok (Xml.lines (entries.map fun entry => (entry.1, entry.2.display.text)))
  := by
  induction entries with
  | nil => rfl
  | cons entry entries ih =>
      obtain ⟨hentry, hentries⟩ := List.forall_mem_cons.mp h
      rw [xmlEntries, FieldValue.toText_of_isLegible hentry, ih hentries]
      rfl

/-- A message of which each value `IsLegible` is, as XML, the `document` of what is `shown`. -/
theorem formatAs_xml {m : MapMessage} (h : ∀ entry ∈ m.entries.entries, entry.2.IsLegible) :
  m.multiformat.formatAs "XML" = .ok (Xml.document m.shown.entries)
  := by
  show m.xmlText = _
  rw [xmlText, xmlEntries_eq h]
  rfl

/-- The XML of a message of which each value `IsLegible` is read by `Xml.read?` as its keys, in
their strict order, with the displayed texts of the values.  Two messages have the same XML if
and only if they have the same keys with the same displayed texts. -/
theorem xml_read_back {m n : MapMessage} (hm : ∀ entry ∈ m.entries.entries, entry.2.IsLegible)
    (hn : ∀ entry ∈ n.entries.entries, entry.2.IsLegible) :
  (∃ xml entries, m.multiformat.formatAs "XML" = .ok xml
      ∧ Xml.read? xml = some entries
      ∧ entries = m.entries.entries.map (fun entry => (entry.1, entry.2.display.text))
      ∧ KeysIncrease entries)
    ∧ (m.multiformat.formatAs "XML" = n.multiformat.formatAs "XML"
      ↔ ∀ key, (m.get? key).map (·.display.text) = (n.get? key).map (·.display.text))
  := by
  constructor
  · exact ⟨_, _, formatAs_xml hm, Xml.read?_document _, rfl, m.shown.increasing⟩
  · have hshown : m.shown = n.shown ↔ m.shown.entries = n.shown.entries :=
      ⟨congrArg SortedMap.entries, SortedMap.ext⟩
    rw [formatAs_xml hm, formatAs_xml hn, Except.ok.injEq, Xml.document_inj, ← hshown]
    exact SortedMap.mapValues_eq_iff _ _ m.entries n.entries

/-- A message with markup in a key and in a text, and the value `v` under another key. -/
def markupMessage (v : FieldValue) : MapMessage where
  entries :=
    ⟨[("a\"><b", .text "</Entry>\n  <Entry key=\"c\">&lt;"), ("c", v)],
      List.pairwise_pair.mpr (show "a\"><b" < "c" by decide)⟩

theorem isLegible_markupMessage {v : FieldValue} (h : v.IsLegible) :
  ∀ entry ∈ (markupMessage v).entries.entries, entry.2.IsLegible
  := by
  refine List.forall_mem_cons.mpr ⟨?_, List.forall_mem_singleton.mpr h⟩
  rintro _ ⟨⟩

theorem shown_markupMessage (v : FieldValue) :
  (markupMessage v).shown.entries
    = [("a\"><b", "</Entry>\n  <Entry key=\"c\">&lt;"), ("c", v.display.text)]
  := rfl

/-- A sequence and the text that it shows are the same in the XML of `markupMessage`. -/
theorem xml_read_back_markupMessage :
  ∃ m n : MapMessage, m = markupMessage (.seq [.bool true, .null])
    ∧ n = markupMessage (.text "[true, null]")
    ∧ (∀ entry ∈ m.entries.entries, entry.2.IsLegible)
    ∧ (∀ entry ∈ n.entries.entries, entry.2.IsLegible)
    ∧ (∃ xml, m.multiformat.formatAs "XML" = .ok xml
      ∧ Xml.read? xml = some
        [("a\"><b", "</Entry>\n  <Entry key=\"c\">&lt;"), ("c", "[true, null]")])
    ∧ m.multiformat.formatAs "XML" = n.multiformat.formatAs "XML"
  := by
  have hseq : (FieldValue.seq [.bool true, .null]).IsLegible := by
    rw [FieldValue.isLegible_seq_iff]
    simp only [List.forall_mem_cons]
    refine ⟨?_, ?_, List.forall_mem_nil _⟩
    · rintro _ ⟨⟩
    · rintro _ ⟨⟩
  have htext : (FieldValue.text "[true, null]").IsLegible := by
    rintro _ ⟨⟩
  have hm := isLegible_markupMessage hseq
  have hn := isLegible_markupMessage htext
  obtain ⟨⟨xml, entries, hxml, hread, rfl, -⟩, hsame⟩ := xml_read_back hm hn
  have hshown : (FieldValue.seq [.bool true, .null]).display.text = "[true, null]" := by decide
  refine ⟨_, _, rfl, rfl, hm, hn, ⟨xml, hxml, ?_⟩, hsame.mpr ?_⟩
  · rw [← hshown, ← shown_markupMessage]
    exact hread
  · apply (SortedMap.mapValues_eq_iff _ _ (markupMessage _).entries (markupMessage _).entries).mp
    apply SortedMap.ext
    show (markupMessage _).shown.entries = (markupMessage _).shown.entries
    rw [shown_markupMessage, shown_markupMessage, hshown]
    rfl

end MapMessage

end LogRendering
