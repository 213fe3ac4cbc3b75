import LogRendering.Proofs.Message.Xml
import LogRendering.Proofs.Xml.Grammar

/-!
# Map messages as documents of XML

Escaping keeps the characters of markup out of attribute values and of character data, so that a
map message as XML has the structure of a document, whatever the texts are.  It leaves every other
character as it is, among them those that a document must not hold, such as the controls of a
terminal.  So the message is a document of XML exactly if its keys and displayed texts have no
such characters.
-/

namespace LogRendering

namespace Xml

open MapMessage

variable {alphabet : Char → Prop} {cs : List Char}

/-! ### Escaped text -/

/-- The characters that `xmlEscapeChar` replaces. -/
def markup : List Char :=
  ['&', '<', '>', '"', '\'']

/-- A character is escaped as the reference to an entity if it is one of `markup`, and as itself
otherwise. -/
theorem xmlEscapeChar_cases (c : Char) :
  (c ∈ markup ∧ ∃ name ∈ entityNames, xmlEscapeChar c = referenceTo name)
    ∨ (c ∉ markup ∧ xmlEscapeChar c = [c])
  := by
  by_cases h : c ∈ markup
  · have hall : IsOver (fun c => ∃ name ∈ entityNames, xmlEscapeChar c = referenceTo name) markup :=
      by decide
    exact Or.inl ⟨h, hall c h⟩
  · refine Or.inr ⟨h, ?_⟩
    unfold xmlEscapeChar
    split
    case h_6 => rfl
    all_goals exact absurd (by decide) h

theorem toList_xmlEscape (s : String) :
  (xmlEscape s).toList = s.toList.flatMap xmlEscapeChar
  := String.toList_ofList

/-- Escaping by `xmlEscape` neither adds nor removes characters that a document must not hold. -/
theorem isOver_xmlEscape_iff (s : String) :
  IsOver IsChar (xmlEscape s).toList ↔ IsOver IsChar s.toList
  := by
  have hchar : ∀ c, IsOver IsChar (xmlEscapeChar c) ↔ IsChar c := by
    intro c
    obtain ⟨hc, name, hname, heq⟩ | ⟨-, heq⟩ := xmlEscapeChar_cases c
    · have hmarkup : IsOver IsChar markup := by decide
      have hreference : IsReference IsChar (xmlEscapeChar c) := by
        rw [heq]
        exact .entity hname
      exact iff_of_true hreference.isOver (hmarkup c hc)
    · rw [heq, isOver_cons]
      exact and_iff_left isOver_nil
  rw [toList_xmlEscape]
  induction s.toList with
  | nil => exact Iff.rfl
  | cons c cs ih =>
      rw [List.flatMap_cons, isOver_append, isOver_cons]
      exact and_congr (hchar c) ih

/-- A text after `xmlEscape` may stand between double quotes. -/
theorem isValue_xmlEscape {s : String} (h : IsOver alphabet s.toList) :
  IsValue alphabet '"' (xmlEscape s).toList
  := by
  rw [toList_xmlEscape]
  generalize s.toList = cs at h
  induction cs with
  | nil => exact .nil
  | cons c cs ih =>
      obtain ⟨hc, hcs⟩ := isOver_cons.mp h
      rw [List.flatMap_cons]
      obtain ⟨-, name, hname, heq⟩ | ⟨hmarkup, heq⟩ := xmlEscapeChar_cases c
      · rw [heq]
        exact .reference (.entity hname) (ih hcs)
      · rw [heq]
        simp only [markup, List.mem_cons, not_or] at hmarkup
        exact .char hc hmarkup.2.1 hmarkup.1 hmarkup.2.2.2.1 (ih hcs)

/-- Text without `markup` is character data. -/
theorem isCharData_of_plain (h : IsOver (fun c => alphabet c ∧ c ∉ markup) cs) :
  IsCharData alphabet cs
  := by
  constructor
  · intro c hc
    obtain ⟨halphabet, hmarkup⟩ := h c hc
    simp only [markup, List.mem_cons, not_or] at hmarkup
    exact ⟨halphabet, hmarkup.2.1, hmarkup.1⟩
  · intro hwithin
    exact (h '>' (hwithin.subset (by decide))).2 (by decide)

/-- A text after `xmlEscapeChar`, behind text without `markup`, may stand in an element. -/
theorem isContent_append_xmlEscapeChars {plain : List Char}
    (hplain : IsOver (fun c => alphabet c ∧ c ∉ markup) plain) (h : IsOver alphabet cs) :
  IsContent alphabet (plain ++ cs.flatMap xmlEscapeChar)
  := by
  -- the text without markup grows until a reference ends it
  induction cs generalizing plain with
  | nil =>
      rw [List.flatMap_nil, List.append_nil]
      exact .data (isCharData_of_plain hplain)
  | cons c cs ih =>
      obtain ⟨hc, hcs⟩ := isOver_cons.mp h
      rw [List.flatMap_cons]
      obtain ⟨-, name, hname, heq⟩ | ⟨hmarkup, heq⟩ := xmlEscapeChar_cases c
      · rw [heq]
        exact .other (isCharData_of_plain hplain) (Or.inl (.entity hname)) (ih isOver_nil hcs)
      · rw [heq, ← List.append_assoc]
        exact ih (isOver_append.mpr ⟨hplain, isOver_cons.mpr ⟨⟨hc, hmarkup⟩, isOver_nil⟩⟩) hcs

theorem isContent_xmlEscape {s : String} (h : IsOver alphabet s.toList) :
  IsContent alphabet (xmlEscape s).toList
  := by
  rw [toList_xmlEscape]
  exact isContent_append_xmlEscapeChars isOver_nil h

/-! ### Maps -/

/-- The name of the element of an entry. -/
def entryName : List Char :=
  ['E', 'n', 't', 'r', 'y']

/-- The name of the element of a map. -/
def mapName : List Char :=
  ['M', 'a', 'p']

/-- The attribute of an entry with its `key`. -/
def keyAttribute (key : String) : List Char :=
  ' ' :: (['k', 'e', 'y'] ++ '=' :: '"' :: ((xmlEscape key).toList ++ ['"']))

/-- The element of an entry with its `keyAttribute`. -/
def entryElement (key text : String) : List Char :=
  '<' :: (entryName ++ (keyAttribute key
    ++ '>' :: ((xmlEscape text).toList ++ '<' :: '/' :: (entryName ++ ['>']))))

theorem toList_xmlEntry_eq (key text : String) :
  (xmlEntry key text).toList = ' ' :: ' ' :: (entryElement key text ++ ['\n'])
  := by
  have hbefore : beforeKey = ' ' :: ' ' :: '<' :: (entryName ++ ' ' :: ['k', 'e', 'y', '=', '"'])
    := by decide
  have hmiddle : afterKey = ['"', '>'] := by decide
  have hafter : afterContent = '<' :: '/' :: (entryName ++ ['>', '\n']) := by decide
  simp only [toList_xmlEntry, entryElement, keyAttribute, hbefore, hmiddle, hafter,
    List.append_assoc, List.cons_append, List.nil_append]

/-- What the element of a map holds, with the line break after its start tag. -/
def mapContent (entries : List (String × String)) : List Char :=
  '\n' :: (lines entries).toList

theorem mapContent_cons (entry : String × String) (entries : List (String × String)) :
  mapContent (entry :: entries)
    = ['\n', ' ', ' '] ++ (entryElement entry.1 entry.2 ++ mapContent entries)
  := by
  rw [mapContent, lines, String.toList_append, toList_xmlEntry_eq, mapContent]
  simp only [List.append_assoc, List.cons_append, List.nil_append]

theorem toList_document_eq (entries : List (String × String)) :
  (document entries).toList
    = '<' :: (mapName ++ '>' :: (mapContent entries ++ '<' :: '/' :: (mapName ++ ['>'])))
  := by
  have hbefore : "<Map>\n".toList = '<' :: (mapName ++ ['>', '\n']) := by decide
  have hafter : "</Map>".toList = '<' :: '/' :: (mapName ++ ['>']) := by decide
  rw [toList_document, hbefore, hafter, mapContent]
  simp only [List.append_assoc, List.cons_append, List.nil_append]

theorem isElement_entryElement {key text : String} (hkey : IsOver alphabet key.toList)
    (htext : IsOver alphabet text.toList) :
  IsElement alphabet (entryElement key text)
  := by
  have hentry : IsName entryName := ⟨'E', _, rfl, by decide, by decide⟩
  have hname : IsName ['k', 'e', 'y'] := ⟨'k', _, rfl, by decide, by decide⟩
  have hattributes : AreAttributes alphabet [['k', 'e', 'y']] (keyAttribute key) :=
    .cons (Or.inl rfl) isOver_nil hname isOver_nil isOver_nil (Or.inl rfl)
      (isValue_xmlEscape hkey) .nil
  have helement := IsElement.holding hentry hattributes (List.nodup_singleton _) isOver_nil
    (isContent_xmlEscape htext) isOver_nil
  rwa [List.nil_append, List.nil_append] at helement

section Alphabet

variable (hsub : ∀ c, IsChar c → alphabet c)

include hsub

theorem isContent_mapContent {entries : List (String × String)}
    (h : ∀ entry ∈ entries, IsOver alphabet entry.1.toList ∧ IsOver alphabet entry.2.toList) :
  IsContent alphabet (mapContent entries)
  := by
  have hplain : ∀ {cs}, IsOver (fun c => IsChar c ∧ c ∉ markup) cs → IsCharData alphabet cs :=
    fun hcs => isCharData_of_plain (hcs.mono fun c hc => ⟨hsub c hc.1, hc.2⟩)
  induction entries with
  | nil => exact .data (hplain (by decide))
  | cons entry entries ih =>
      obtain ⟨⟨hkey, htext⟩, hentries⟩ := List.forall_mem_cons.mp h
      rw [mapContent_cons]
      exact .element (hplain (by decide)) (isElement_entryElement hkey htext) (ih hentries)

/-- The `document` of entries satisfies `IsDocument` if its keys and texts are in the
alphabet. -/
theorem isDocument_document {entries : List (String × String)}
    (h : ∀ entry ∈ entries, IsOver alphabet entry.1.toList ∧ IsOver alphabet entry.2.toList) :
  IsDocument alphabet (document entries).toList
  := by
  have hname : IsName mapName := ⟨'M', _, rfl, by decide, by decide⟩
  have helement : IsElement alphabet (document entries).toList := by
    have hmap := IsElement.holding hname .nil List.nodup_nil isOver_nil
      (isContent_mapContent hsub h) isOver_nil
    rwa [List.nil_append, List.nil_append, List.nil_append, ← toList_document_eq] at hmap
  refine ⟨[], _, [], .nil, helement, .nil, ?_⟩
  rw [List.nil_append, List.append_nil]

end Alphabet

theorem isOver_of_isOver_mapContent {entries : List (String × String)}
    (h : IsOver IsChar (mapContent entries)) :
  ∀ entry ∈ entries, IsOver IsChar entry.1.toList ∧ IsOver IsChar entry.2.toList
  := by
  induction entries with
  | nil => exact List.forall_mem_nil _
  | cons entry entries ih =>
      simp only [mapContent_cons, entryElement, keyAttribute, isOver_append, isOver_cons,
        isOver_xmlEscape_iff] at h
      obtain ⟨-, ⟨-, -, ⟨-, -, -, -, hkey, -⟩, -, htext, -⟩, hentries⟩ := h
      exact List.forall_mem_cons.mpr ⟨⟨hkey, htext⟩, ih hentries⟩

/-- The characters of a `document` are those of XML exactly if the characters of its keys and
texts are. -/
theorem isOver_document_iff (entries : List (String × String)) :
  IsOver IsChar (document entries).toList
    ↔ ∀ entry ∈ entries, IsOver IsChar entry.1.toList ∧ IsOver IsChar entry.2.toList
  := by
  constructor
  · rw [toList_document_eq]
    intro h
    simp only [isOver_append, isOver_cons] at h
    exact isOver_of_isOver_mapContent h.2.2.2.1
  · intro h
    exact (isDocument_document (fun _ hc => hc) h).isOver fun _ hc => hc

/-! ### References -/

/-- The references to the entities of `entityNames`. -/
def references : List (List Char) :=
  entityNames.map referenceTo

theorem ampersandsBegin_xmlEscape (s : String) :
  Html.AmpersandsBegin references (xmlEscape s).toList
  := by
  rw [toList_xmlEscape]
  apply Html.AmpersandsBegin.flatMap
  intro c _
  obtain ⟨-, name, hname, heq⟩ | ⟨hc, heq⟩ := xmlEscapeChar_cases c
  · have hnames : ∀ name ∈ entityNames, '&' ∉ name ++ [';'] := by decide
    rw [heq]
    exact .of_mem (List.mem_map_of_mem hname) (hnames name hname)
  · rw [heq]
    apply Html.AmpersandsBegin.of_notMem
    rw [List.mem_singleton]
    rintro rfl
    exact hc (by decide)

theorem ampersandsBegin_lines (entries : List (String × String)) :
  Html.AmpersandsBegin references (lines entries).toList
  := by
  have hmark : ∀ cs ∈ [beforeKey, afterKey, afterContent], '&' ∉ cs := by decide
  have hbefore := Html.AmpersandsBegin.of_notMem references (hmark beforeKey (by simp))
  have hmiddle := Html.AmpersandsBegin.of_notMem references (hmark afterKey (by simp))
  have hafter := Html.AmpersandsBegin.of_notMem references (hmark afterContent (by simp))
  induction entries with
  | nil => exact .of_notMem _ (by decide)
  | cons entry entries ih =>
      rw [lines, String.toList_append, toList_xmlEntry]
      have hkey := ampersandsBegin_xmlEscape entry.1
      have htext := ampersandsBegin_xmlEscape entry.2
      exact ((((hbefore.append hkey).append hmiddle).append htext).append hafter).append ih

/-- Every ampersand of a `document` begins one of the `references`. -/
theorem ampersandsBegin_document (entries : List (String × String)) :
  Html.AmpersandsBegin references (document entries).toList
  := by
  rw [toList_document]
  have hstart := Html.AmpersandsBegin.of_notMem references
    (show '&' ∉ "<Map>\n".toList by decide)
  have hend := Html.AmpersandsBegin.of_notMem references (show '&' ∉ "</Map>".toList by decide)
  exact hstart.append ((ampersandsBegin_lines entries).append hend)

end Xml

/-! ### Messages -/

namespace MapMessage

open Xml

/-- A message of which each value `IsLegible` has, as XML, the structure of a document, with one
of the `references` at every ampersand; and it satisfies `IsDocument` with the characters of XML
exactly if all characters of its keys and displayed texts satisfy `IsChar`. -/
theorem xml_isDocument_iff {m : MapMessage} (h : ∀ entry ∈ m.entries.entries, entry.2.IsLegible) :
  ∃ xml, m.multiformat.formatAs "XML" = .ok xml
    ∧ IsDocument (fun _ => True) xml.toList
    ∧ Html.AmpersandsBegin references xml.toList
    ∧ (IsDocument IsChar xml.toList ↔ IsOver IsChar xml.toList)
    ∧ (IsOver IsChar xml.toList
      ↔ ∀ entry ∈ m.entries.entries,
          IsOver IsChar entry.1.toList ∧ IsOver IsChar entry.2.display.text.toList)
  := by
  refine ⟨_, formatAs_xml h, ?_, ampersandsBegin_document _, ?_, ?_⟩
  · apply isDocument_document (fun _ _ => trivial)
    intro entry _
    exact ⟨fun _ _ => trivial, fun _ _ => trivial⟩
  · constructor
    · intro hdocument
      exact hdocument.isOver fun _ hc => hc
    · intro hover
      exact isDocument_document (fun _ hc => hc) ((isOver_document_iff _).mp hover)
  · rw [isOver_document_iff]
    exact List.forall_mem_map

/-- The message `markupMessage`, with markup in a key and in a text, is a document of XML. -/
theorem xml_isDocument_markupMessage :
  ∃ m : MapMessage, m = markupMessage (.text "]]>\t&#1;")
    ∧ (∀ entry ∈ m.entries.entries, entry.2.IsLegible)
    ∧ ∃ xml, m.multiformat.formatAs "XML" = .ok xml ∧ IsDocument IsChar xml.toList
  := by
  have hlegible : (FieldValue.text "]]>\t&#1;").IsLegible := by
    rintro _ ⟨⟩
  have hentries := isLegible_markupMessage hlegible
  obtain ⟨xml, hxml, -, -, hdocument, hover⟩ := xml_isDocument_iff hentries
  refine ⟨_, rfl, hentries, xml, hxml, hdocument.mpr (hover.mpr ?_)⟩
  rw [markupMessage, List.forall_mem_cons, List.forall_mem_singleton]
  decide

/-- A message with the text that makes a terminal write in red. -/
def colouredMessage : MapMessage :=
  MapMessage.empty.insert "k" (.text "\x1b[31m")

/-- The text for a terminal in `colouredMessage` makes its XML no document of XML. -/
theorem xml_no_document_colouredMessage :
  ∃ m : MapMessage, m = colouredMessage
    ∧ (∀ entry ∈ m.entries.entries, entry.2.IsLegible)
    ∧ ∃ xml, m.multiformat.formatAs "XML" = .ok xml ∧ ¬ IsDocument IsChar xml.toList
  := by
  have hlegible : ∀ entry ∈ colouredMessage.entries.entries, entry.2.IsLegible := by
    refine List.forall_mem_singleton.mpr ?_
    rintro _ ⟨⟩
  refine ⟨_, rfl, hlegible, _, formatAs_xml hlegible, ?_⟩
  intro hdocument
  have hover := (isOver_document_iff _).mp (hdocument.isOver fun _ hc => hc)
  have htext := (List.forall_mem_singleton.mp hover).2
  revert htext
  decide

end MapMessage

end LogRendering
