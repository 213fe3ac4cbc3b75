import LogRendering.Html.Markup
import LogRendering.Proofs.Html.Escape

/-!
# Lexemes

What a reader finds in an HTML text: tags, with the names and the raw values of their
attributes, declarations, comments, and the characters outside all of these.  An opening angle
bracket begins a tag, blanks and slashes separate its attributes, a value in quotes runs up to
the next double quote and ends the attribute, and a closing angle bracket outside quotes ends
the tag.  `Place.step` says what one character does.  The lexemes of a rendered sequence of
tokens are those of its tokens, whatever the texts in it are.
-/

namespace LogRendering.Html

/-- A part of an HTML text as a reader finds it. -/
inductive Lexeme where
  /-- A tag that opens an element, with its attributes and their values. -/
  | opening (name : String) (attributes : List (String × Option String))
  /-- A tag that closes an element, with the attributes that it has. -/
  | closing (name : String) (attributes : List (String × Option String))
  | declaration (content : String)
  | comment (content : String)
  /-- A character outside tags, declarations and comments. -/
  | char (c : Char)
deriving DecidableEq

/-! ### Readers -/

/-- One of the five blanks of HTML. -/
def isBlank (c : Char) : Bool :=
  c = '\t' || c = '\n' || c = '\x0c' || c = '\r' || c = ' '

/-- What separates the attributes of a tag: a character that `isBlank`, or a slash. -/
def isGap (c : Char) : Bool :=
  isBlank c || c = '/'

/-- A tag as far as a reader has it; one that `closes` began with a slash. -/
structure UnfinishedTag where
  closes : Bool
  name : List Char
  attributes : List (String × Option String)

namespace UnfinishedTag

/-- The tag `t` with an attribute after those that it has. -/
def add (t : UnfinishedTag) (name : List Char) (value : Option (List Char)) : UnfinishedTag :=
  { t with
    attributes := t.attributes ++ [(String.ofList name, value.map String.ofList)] }

/-- The lexeme that the tag `t` is when it ends here. -/
def lexeme (t : UnfinishedTag) : Lexeme :=
  if t.closes then .closing (String.ofList t.name) t.attributes
  else .opening (String.ofList t.name) t.attributes

end UnfinishedTag

/-- Where a reader of an HTML text is, as `Place.step` moves it. -/
inductive Place where
  /-- Outside tags, declarations and comments. -/
  | content
  /-- After an opening angle bracket. -/
  | bracket
  /-- In the name of a tag. -/
  | tagName (t : UnfinishedTag)
  /-- Between the attributes of a tag. -/
  | gap (t : UnfinishedTag)
  /-- In the name of an attribute. -/
  | attributeName (t : UnfinishedTag) (name : List Char)
  /-- After the name of an attribute and a gap, where its value may still follow. -/
  | afterName (t : UnfinishedTag) (name : List Char)
  /-- After the equals sign of an attribute. -/
  | beforeValue (t : UnfinishedTag) (name : List Char)
  /-- In a value without quotes. -/
  | bareValue (t : UnfinishedTag) (name value : List Char)
  /-- In a value between quotes. -/
  | quotedValue (t : UnfinishedTag) (name value : List Char)
  /-- After the exclamation mark of a declaration or a comment, and perhaps a dash. -/
  | mark (dash : Bool)
  | declaration (content : List Char)
  /-- In a comment, of which some characters have been read. -/
  | comment (read : List Char)

/-- The content of the comment that a closing angle bracket ends after the given characters, if it
ends one there. -/
def commentEnd? (read : List Char) : Option (List Char) :=
  match read.reverse with
  | [] | ['-'] => some []
  | '-' :: '-' :: content => some content.reverse
  | _ => none

namespace Place

/-- The step in the name of the tag `t`. -/
def stepInName (t : UnfinishedTag) (c : Char) : Place × Option Lexeme :=
  if c = '>' then (content, some t.lexeme)
  else if isGap c then (gap t, none)
  else (tagName { t with name := t.name ++ [c] }, none)

/-- Where a reader is after the character `c`, and the lexeme that this character ends. -/
def step : Place → Char → Place × Option Lexeme
  | content, c => if c = '<' then (bracket, none) else (content, some (.char c))
  | bracket, c =>
    if c = '!' then (mark false, none)
    else if c = '/' then (tagName ⟨true, [], []⟩, none)
    else stepInName ⟨false, [], []⟩ c
  | tagName t, c => stepInName t c
  | gap t, c =>
    if c = '>' then (content, some t.lexeme)
    else if isGap c then (gap t, none)
    else (attributeName t [c], none)
  | attributeName t n, c =>
    if c = '>' then (content, some (t.add n none).lexeme)
    else if isGap c then (afterName t n, none)
    else if c = '=' then (beforeValue t n, none)
    else (attributeName t (n ++ [c]), none)
  | afterName t n, c =>
    if c = '>' then (content, some (t.add n none).lexeme)
    else if isGap c then (afterName t n, none)
    else if c = '=' then (beforeValue t n, none)
    else (attributeName (t.add n none) [c], none)
  | beforeValue t n, c =>
    if c = '>' then (content, some (t.add n (some [])).lexeme)
    else if isBlank c then (beforeValue t n, none)
    else if c = '"' then (quotedValue t n [], none)
    else (bareValue t n [c], none)
  | bareValue t n value, c =>
    if c = '>' then (content, some (t.add n (some value)).lexeme)
    else if isBlank c then (gap (t.add n (some value)), none)
    else (bareValue t n (value ++ [c]), none)
  | quotedValue t n value, c =>
    if c = '"' then (gap (t.add n (some value)), none)
    else (quotedValue t n (value ++ [c]), none)
  | mark dash, c =>
    if c = '>' then (content, some (.declaration (if dash then "-" else "")))
    else if c = '-' then (if dash then comment [] else mark true, none)
    else (declaration (if dash then ['-', c] else [c]), none)
  | declaration read, c =>
    if c = '>' then (content, some (.declaration (String.ofList read)))
    else (declaration (read ++ [c]), none)
  | comment read, c =>
    match if c = '>' then commentEnd? read else none with
    | some inside => (content, some (.comment (String.ofList inside)))
    | none => (comment (read ++ [c]), none)

end Place

/-- The lexemes of the rest of a text, from a place on.  There are none if the text ends anywhere
but in `content`. -/
def lexemesFrom? : Place → List Char → Option (List Lexeme)
  | .content, [] => some []
  | _, [] => none
  | place, c :: rest =>
    (lexemesFrom? (place.step c).1 rest).map ((place.step c).2.toList ++ ·)

/-- The lexemes of an HTML text, read from `content` on. -/
def lexemes? (s : String) : Option (List Lexeme) :=
  lexemesFrom? .content s.toList

/-! ### Tokens that can be read back -/

/-- The text is not empty and consists of letters, digits and dashes. -/
def IsName (s : String) : Prop :=
  s.toList ≠ [] ∧ ∀ c ∈ s.toList, c.isAlphanum ∨ c = '-'

instance (s : String) : Decidable (IsName s) :=
  have := List.decidableBAll (fun c : Char => c.isAlphanum ∨ c = '-') s.toList
  instDecidableAnd

/-- The names in a token satisfy `IsName`, and a declaration or a comment neither ends early nor
holds an ampersand. -/
def Token.IsLegible : Token → Prop
  | .opening name attributes => IsName name ∧ ∀ a ∈ attributes, IsName a.name
  | .closing name => IsName name
  | .text _ => True
  | .hardSpace => True
  | .declaration content =>
    '>' ∉ content.toList ∧ '&' ∉ content.toList ∧ content.toList.head? ≠ some '-'
  | .comment content => '>' ∉ content.toList ∧ '&' ∉ content.toList

instance : (t : Token) → Decidable t.IsLegible
  | .opening _ attributes =>
    have := List.decidableBAll (fun a : Attribute => IsName a.name) attributes
    instDecidableAnd
  | .closing name => inferInstanceAs (Decidable (IsName name))
  | .text _ => isTrue trivial
  | .hardSpace => isTrue trivial
  | .declaration _ => inferInstanceAs (Decidable (_ ∧ _))
  | .comment _ => inferInstanceAs (Decidable (_ ∧ _))

/-- The characters of a text, one lexeme each. -/
def charLexemes (s : String) : List Lexeme :=
  s.toList.map .char

/-- An attribute as a reader finds it. -/
def Attribute.read (a : Attribute) : String × Option String :=
  (a.name, a.value.map escape)

/-- The lexemes that a reader finds in the text of a token that `IsLegible`. -/
def Token.lexemes : Token → List Lexeme
  | .opening name attributes => [.opening name (attributes.map Attribute.read)]
  | .closing name => [.closing name []]
  | .text content => charLexemes (escape content)
  | .hardSpace => charLexemes "&nbsp;"
  | .declaration content => [.declaration content]
  | .comment content => [.comment content]

/-! ### Characters of names -/

/-- A character of a name is none of those that names do not have. -/
theorem IsName.ne_of_mem
    {s : String} (h : IsName s) {c d : Char} (hc : c ∈ s.toList)
    (hd : ¬ (d.isAlphanum ∨ d = '-')) :
  c ≠ d
  := by
  rintro rfl
  exact hd (h.2 c hc)

/-- The character continues the name of a tag or of an attribute. -/
structure IsTagChar (c : Char) : Prop where
  bracket : c ≠ '>'
  gap : isGap c = false
  equals : c ≠ '='

theorem IsName.isTagChar {s : String} (h : IsName s) {c : Char} (hc : c ∈ s.toList) :
  IsTagChar c
  := by
  constructor
  · apply h.ne_of_mem hc (by decide)
  · simp only [isGap, isBlank, Bool.or_eq_false_iff, decide_eq_false_iff_not]
    refine ⟨⟨⟨⟨⟨?_, ?_⟩, ?_⟩, ?_⟩, ?_⟩, ?_⟩
    all_goals apply h.ne_of_mem hc (by decide)
  · apply h.ne_of_mem hc (by decide)

/-! ### Runs of a reader -/

namespace Place

/-- From the place on, the characters `cs` give the lexemes `ls` and lead to another place. -/
def Reads (place : Place) (cs : List Char) (ls : List Lexeme) (place' : Place) : Prop :=
  ∀ rest, lexemesFrom? place (cs ++ rest) = (lexemesFrom? place' rest).map (ls ++ ·)

namespace Reads

variable {place place' place'' : Place} {cs ds : List Char} {ls ms : List Lexeme}

theorem nil (place : Place) :
  place.Reads [] [] place
  := by
  intro rest
  simp

theorem append (h : place.Reads cs ls place') (h' : place'.Reads ds ms place'') :
  place.Reads (cs ++ ds) (ls ++ ms) place''
  := by
  intro rest
  rw [List.append_assoc, h, h', Option.map_map]
  simp [Function.comp_def]

/-- A character that ends no lexeme. -/
theorem silent {c : Char} (hstep : place.step c = (place', none))
    (h : place'.Reads cs ls place'') :
  place.Reads (c :: cs) ls place''
  := by
  intro rest
  rw [List.cons_append, lexemesFrom?, hstep, h, Option.map_map]
  rfl

/-- A character that ends a lexeme. -/
theorem ending {c : Char} {l : Lexeme} (hstep : place.step c = (place', some l)) :
  place.Reads [c] [l] place'
  := by
  intro rest
  rw [List.singleton_append, lexemesFrom?, hstep]
  rfl

/-- Characters that are collected one by one. -/
theorem run (collecting : List Char → Place)
    (hstep : ∀ c ∈ cs, ∀ read,
      (collecting read).step c = (collecting (read ++ [c]), none))
    (read : List Char) :
  (collecting read).Reads cs [] (collecting (read ++ cs))
  := by
  induction cs generalizing read with
  | nil =>
      rw [List.append_nil]
      apply nil
  | cons c cs ih =>
      obtain ⟨hc, hcs⟩ := List.forall_mem_cons.mp hstep
      have hrest := ih hcs (read ++ [c])
      rw [List.append_assoc, List.singleton_append] at hrest
      exact hrest.silent (hc read)

end Reads

/-! ### Runs in tags -/

/-- The tag that ends at the place if a closing angle bracket follows. -/
def ended? : Place → Option UnfinishedTag
  | tagName t => some t
  | gap t => some t
  | attributeName t n => some (t.add n none)
  | _ => none

section Tags

variable {place : Place} {t : UnfinishedTag}

theorem reads_bracket (h : place.ended? = some t) :
  place.Reads ['>'] [t.lexeme] content
  := by
  apply Reads.ending
  cases place with
  | tagName | gap | attributeName =>
      obtain rfl := Option.some.inj h
      rfl
  | _ => contradiction

/-- After a space a character of a name begins an attribute. -/
theorem reads_space (h : place.ended? = some t) {c : Char} (hc : IsTagChar c) :
  place.Reads [' ', c] [] (attributeName t [c])
  := by
  cases place with
  | tagName t' | gap t' =>
      obtain rfl := Option.some.inj h
      have hbegin : (gap t').step c = (attributeName t' [c], none) := by
        simp [step, hc.bracket, hc.gap]
      exact .silent rfl (.silent hbegin (.nil _))
  | attributeName t' n =>
      obtain rfl := Option.some.inj h
      have hbegin : (afterName t' n).step c = (attributeName (t'.add n none) [c], none) := by
        simp [step, hc.bracket, hc.gap, hc.equals]
      exact .silent rfl (.silent hbegin (.nil _))
  | _ => contradiction

theorem reads_attributeName {cs : List Char} (h : ∀ c ∈ cs, IsTagChar c) (n : List Char) :
  (attributeName t n).Reads cs [] (attributeName t (n ++ cs))
  := by
  apply Reads.run (attributeName t)
  intro c hc read
  simp [step, (h c hc).bracket, (h c hc).gap, (h c hc).equals]

theorem reads_tagName {cs : List Char} (h : ∀ c ∈ cs, IsTagChar c) :
  (tagName t).Reads cs [] (tagName { t with name := t.name ++ cs })
  := by
  apply Reads.run fun read => tagName { t with name := read }
  intro c hc read
  simp [step, stepInName, (h c hc).bracket, (h c hc).gap]

/-- A value between quotes runs up to the next quote, which ends the attribute of `t`. -/
theorem reads_quotedValue {cs : List Char} (h : '"' ∉ cs) (n : List Char) :
  (beforeValue t n).Reads ('"' :: (cs ++ ['"'])) [] (gap (t.add n (some cs)))
  := by
  have hvalue : (quotedValue t n []).Reads cs [] (quotedValue t n cs) := by
    apply Reads.run (quotedValue t n)
    intro c hc read
    have hquote : c ≠ '"' := fun heq => h (heq ▸ hc)
    simp [step, hquote]
  exact .silent rfl (hvalue.append (.silent rfl (.nil _)))

/-- A reader finds a rendered attribute behind those of the tag. -/
theorem reads_attribute (h : place.ended? = some t) {a : Attribute} (ha : IsName a.name) :
  ∃ place', place.Reads a.render.toList [] place'
    ∧ place'.ended? = some { t with attributes := t.attributes ++ [a.read] }
  := by
  have hchars : ∀ c ∈ a.name.toList, IsTagChar c := fun _ hc => ha.isTagChar hc
  have hname : place.Reads (' ' :: a.name.toList) [] (attributeName t a.name.toList) := by
    obtain ⟨c, cs, hcs⟩ := List.exists_cons_of_ne_nil ha.1
    rw [hcs] at hchars ⊢
    obtain ⟨hc, hrest⟩ := List.forall_mem_cons.mp hchars
    exact (reads_space h hc).append (reads_attributeName hrest [c])
  cases hvalue : a.value with
  | none =>
      use attributeName t a.name.toList
      constructor
      · rw [show a.render.toList = ' ' :: a.name.toList by simp [Attribute.render, hvalue]]
        exact hname
      · simp [ended?, UnfinishedTag.add, Attribute.read, hvalue]
  | some value =>
      have hquote : '"' ∉ (escape value).toList := by
        intro hmem
        obtain ⟨-, -, hquote, -⟩ := isHarmless_of_mem_escape hmem
        apply hquote rfl
      have hrender : a.render.toList
          = (' ' :: a.name.toList) ++ '=' :: '"' :: ((escape value).toList ++ ['"']) := by
        simp [Attribute.render, hvalue]
      use gap (t.add a.name.toList (some (escape value).toList))
      constructor
      · rw [hrender]
        exact hname.append (.silent rfl (reads_quotedValue hquote _))
      · simp [ended?, UnfinishedTag.add, Attribute.read, hvalue]

theorem reads_attributes
    (h : place.ended? = some t) {attributes : List Attribute}
    (hnames : ∀ a ∈ attributes, IsName a.name) :
  ∃ place', place.Reads (attributes.flatMap fun a => a.render.toList) [] place'
    ∧ place'.ended?
      = some { t with attributes := t.attributes ++ attributes.map Attribute.read }
  := by
  -- the places differ from one attribute to the next, but the tag that would end there grows
  induction attributes generalizing place t with
  | nil =>
      use place
      constructor
      · apply Reads.nil
      · simpa using h
  | cons a attributes ih =>
      obtain ⟨ha, hattributes⟩ := List.forall_mem_cons.mp hnames
      obtain ⟨place', hread, hended⟩ := reads_attribute h ha
      obtain ⟨place'', hread', hended'⟩ := ih hended hattributes
      use place''
      constructor
      · exact hread.append hread'
      · simpa using hended'

/-- A reader finds the tag whose `name` and rendered `attributes` stand before a bracket. -/
theorem reads_tag
    {name : String} {attributes : List Attribute} (closes : Bool) (hname : IsName name)
    (hnames : ∀ a ∈ attributes, IsName a.name) :
  (tagName ⟨closes, [], []⟩).Reads
    (name.toList ++ (attributes.flatMap (fun a => a.render.toList) ++ ['>']))
    [(UnfinishedTag.mk closes name.toList (attributes.map Attribute.read)).lexeme] content
  := by
  have htagName := reads_tagName (t := ⟨closes, [], []⟩) fun _ hc => hname.isTagChar hc
  have hended : (tagName ⟨closes, name.toList, []⟩).ended? = some ⟨closes, name.toList, []⟩ := rfl
  obtain ⟨place, hread, hended⟩ := reads_attributes hended hnames
  exact htagName.append (hread.append (reads_bracket hended))

/-- After an opening bracket a character of a name begins the name of a tag. -/
theorem reads_nameAfterBracket
    {c : Char} {cs : List Char} {ls : List Lexeme} (hbang : c ≠ '!') (hslash : c ≠ '/')
    (h : (tagName ⟨false, [], []⟩).Reads (c :: cs) ls place) :
  bracket.Reads (c :: cs) ls place
  := by
  have hstep : bracket.step c = (tagName ⟨false, [], []⟩).step c := by
    simp [step, hbang, hslash]
  intro rest
  rw [List.cons_append, lexemesFrom?, hstep]
  exact h rest

end Tags

/-! ### Runs in declarations and comments -/

theorem reads_declaration {cs : List Char} (h : '>' ∉ cs) (read : List Char) :
  (declaration read).Reads (cs ++ ['>']) [.declaration (String.ofList (read ++ cs))] content
  := by
  have hrun : (declaration read).Reads cs [] (declaration (read ++ cs)) := by
    apply Reads.run declaration
    intro c hc read
    have hgt : c ≠ '>' := fun heq => h (heq ▸ hc)
    simp [step, hgt]
  exact hrun.append (.ending rfl)

theorem commentEnd?_append (inside : List Char) :
  commentEnd? (inside ++ ['-', '-']) = some inside
  := by
  simp [commentEnd?]

theorem reads_comment {cs : List Char} (h : '>' ∉ cs) :
  (comment []).Reads (cs ++ ['-', '-', '>']) [.comment (String.ofList cs)] content
  := by
  have hdashes : '>' ∉ cs ++ ['-', '-'] := by simpa using h
  have hrun : (comment []).Reads (cs ++ ['-', '-']) [] (comment (cs ++ ['-', '-'])) := by
    apply Reads.run comment
    intro c hc read
    have hgt : c ≠ '>' := fun heq => hdashes (heq ▸ hc)
    simp [step, hgt]
  have hend : (comment (cs ++ ['-', '-'])).step '>'
      = (content, some (.comment (String.ofList cs))) := by
    simp [step, commentEnd?_append]
  have hall := hrun.append (Reads.ending hend)
  rwa [List.append_assoc] at hall

end Place

/-! ### Reading what is rendered -/

namespace Token

open Place

theorem reads_opening
    {name : String} {attributes : List Attribute} (hname : IsName name)
    (hnames : ∀ a ∈ attributes, IsName a.name) :
  content.Reads (opening name attributes).render.toList
    [.opening name (attributes.map Attribute.read)] content
  := by
  have htag := reads_tag false hname hnames
  have hrender : (opening name attributes).render.toList
      = '<' :: (name.toList ++ (attributes.flatMap (fun a => a.render.toList) ++ ['>'])) := by
    simp [render, List.flatMap_map]
  have hlexeme : (UnfinishedTag.mk false name.toList (attributes.map Attribute.read)).lexeme
      = .opening name (attributes.map Attribute.read) := by
    simp [UnfinishedTag.lexeme]
  obtain ⟨c, cs, hcs⟩ := List.exists_cons_of_ne_nil hname.1
  have hc : c ∈ name.toList := hcs ▸ List.mem_cons_self
  have hbang : c ≠ '!' := hname.ne_of_mem hc (by decide)
  have hslash : c ≠ '/' := hname.ne_of_mem hc (by decide)
  rw [hlexeme, hcs] at htag
  rw [hrender, hcs]
  exact .silent rfl (reads_nameAfterBracket hbang hslash htag)

theorem reads_closing {name : String} (hname : IsName name) :
  content.Reads (closing name).render.toList [.closing name []] content
  := by
  have htag := reads_tag true hname (List.forall_mem_nil fun a : Attribute => IsName a.name)
  have hrender : (closing name).render.toList = '<' :: '/' :: (name.toList ++ ['>']) := by
    simp [render]
  have hlexeme : (UnfinishedTag.mk true name.toList []).lexeme = .closing name [] := by
    simp [UnfinishedTag.lexeme]
  rw [List.map_nil, hlexeme] at htag
  rw [hrender]
  exact .silent rfl (.silent rfl htag)

theorem reads_declaration {inside : String} (h : (declaration inside).IsLegible) :
  content.Reads (declaration inside).render.toList [.declaration inside] content
  := by
  obtain ⟨hgt, -, hdash⟩ := h
  have hrender : (declaration inside).render.toList = '<' :: '!' :: (inside.toList ++ ['>']) := by
    simp [render]
  have hmark : (mark false).Reads (inside.toList ++ ['>']) [.declaration inside] content := by
    cases hinside : inside.toList with
    | nil =>
        obtain rfl := String.toList_eq_nil_iff.mp hinside
        exact .ending rfl
    | cons c cs =>
        rw [hinside] at hgt hdash
        obtain ⟨hc, hcs⟩ := List.ne_and_not_mem_of_not_mem_cons hgt
        have hc' : c ≠ '-' := fun heq => hdash (congrArg some heq)
        have hstep : (mark false).step c = (.declaration [c], none) := by
          simp [step, hc.symm, hc']
        have hrest := Place.reads_declaration hcs [c]
        rw [List.singleton_append, ← hinside, String.ofList_toList] at hrest
        exact .silent hstep hrest
  rw [hrender]
  exact .silent rfl (.silent rfl hmark)

theorem reads_comment {inside : String} (h : (comment inside).IsLegible) :
  content.Reads (comment inside).render.toList [.comment inside] content
  := by
  have hrender : (comment inside).render.toList
      = '<' :: '!' :: '-' :: '-' :: (inside.toList ++ ['-', '-', '>']) := by
    simp [render]
  have hcomment := Place.reads_comment h.1
  rw [String.ofList_toList] at hcomment
  rw [hrender]
  exact .silent rfl (.silent rfl (.silent rfl (.silent rfl hcomment)))

/-- A reader in `content` takes characters as they are if none of them begins a tag. -/
theorem reads_charLexemes {s : String} (h : '<' ∉ s.toList) :
  content.Reads s.toList (charLexemes s) content
  := by
  unfold charLexemes
  generalize s.toList = cs at h
  induction cs with
  | nil => exact .nil content
  | cons c cs ih =>
      obtain ⟨hc, hcs⟩ := List.ne_and_not_mem_of_not_mem_cons h
      have hstep : content.step c = (content, some (.char c)) := by simp [step, hc.symm]
      exact (Reads.ending hstep).append (ih hcs)

/-- A reader in `content` finds the lexemes of a token that `IsLegible` in its text. -/
theorem IsLegible.reads {t : Token} (h : t.IsLegible) :
  content.Reads t.render.toList t.lexemes content
  := by
  cases t with
  | opening name attributes => exact reads_opening h.1 h.2
  | closing name => exact reads_closing h
  | text inside =>
      apply reads_charLexemes
      intro hmem
      obtain ⟨hlt, -⟩ := isHarmless_of_mem_escape hmem
      apply hlt rfl
  | hardSpace => exact reads_charLexemes (by decide)
  | declaration inside => exact reads_declaration h
  | comment inside => exact reads_comment h

end Token

/-- The lexemes of rendered `tokens` are those of its tokens. -/
theorem lexemes?_render {tokens : List Token} (h : ∀ t ∈ tokens, t.IsLegible) :
  lexemes? (render tokens) = some (tokens.flatMap Token.lexemes)
  := by
  have hreads : Place.content.Reads (tokens.flatMap fun t => t.render.toList)
      (tokens.flatMap Token.lexemes) .content := by
    induction tokens with
    | nil => apply Place.Reads.nil
    | cons t tokens ih =>
        obtain ⟨ht, htokens⟩ := List.forall_mem_cons.mp h
        exact ht.reads.append (ih htokens)
  have hall := hreads []
  rw [List.append_nil] at hall
  rw [lexemes?, render, String.toList_join, List.flatMap_map, hall]
  simp [lexemesFrom?]

end LogRendering.Html
