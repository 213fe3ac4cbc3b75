import LogRendering.Message.Pattern
import LogRendering.Proofs.Field.Parts

/-!
# Filled placeholders

A pattern is read from left to right as tokens in exactly one way.  The text of a parameterized
message is made of the tokens, with the text of an argument for each placeholder, as it is, in the
order of the placeholders and of the arguments.  A text in which a backslash is put before every
opening bracket is a pattern for that text.
-/

namespace LogRendering

/-! ### Reading a pattern -/

/-- The characters of a pattern are read from left to right as the tokens: a backslash directly
followed by an opening bracket is an ordinary bracket, an opening bracket directly followed by a
closing one is a `placeholder`, and any other character is itself. -/
inductive IsReadAs : List Char → List PatternToken → Prop where
  | nil : IsReadAs [] []
  | escape {rest : List Char} {tokens : List PatternToken} (h : IsReadAs rest tokens) :
    IsReadAs ('\\' :: '{' :: rest) (.char '{' :: tokens)
  | placeholder {rest : List Char} {tokens : List PatternToken} (h : IsReadAs rest tokens) :
    IsReadAs ('{' :: '}' :: rest) (.placeholder :: tokens)
  | char (c : Char) {rest : List Char} {tokens : List PatternToken}
    (hescape : c = '\\' → rest.head? ≠ some '{')
    (hplaceholder : c = '{' → rest.head? ≠ some '}') (h : IsReadAs rest tokens) :
    IsReadAs (c :: rest) (.char c :: tokens)

/-- A pattern is read as its `patternTokens`. -/
theorem isReadAs_patternTokens (pattern : List Char) :
  IsReadAs pattern (patternTokens pattern)
  := by
  induction pattern using patternTokens.induct with
  | case1 => exact .nil
  | case2 rest ih => exact .escape ih
  | case3 rest ih => exact .placeholder ih
  | case4 c rest hescape hplaceholder ih =>
      have htokens : patternTokens (c :: rest) = .char c :: patternTokens rest := by
        rw [patternTokens]
        · exact hescape
        · exact hplaceholder
      rw [htokens]
      apply IsReadAs.char c _ _ ih
      · rintro rfl hhead
        obtain ⟨tail, rfl⟩ := List.head?_eq_some_iff.mp hhead
        exact hescape tail rfl rfl
      · rintro rfl hhead
        obtain ⟨tail, rfl⟩ := List.head?_eq_some_iff.mp hhead
        exact hplaceholder tail rfl rfl

/-- A `pattern` is read in one way only. -/
theorem IsReadAs.unique {pattern : List Char} {tokens tokens' : List PatternToken}
    (h : IsReadAs pattern tokens) (h' : IsReadAs pattern tokens') :
  tokens = tokens'
  := by
  induction h generalizing tokens' with
  | nil =>
      cases h'
      rfl
  | escape h ih =>
      cases h' with
      | escape h' => rw [ih h']
      | char _ hescape _ _ => exact absurd rfl (hescape rfl)
  | placeholder h ih =>
      cases h' with
      | placeholder h' => rw [ih h']
      | char _ _ hplaceholder _ => exact absurd rfl (hplaceholder rfl)
  | char c hescape hplaceholder h ih =>
      cases h' with
      | escape _ => exact absurd rfl (hescape rfl)
      | placeholder _ => exact absurd rfl (hplaceholder rfl)
      | char _ _ _ h' => rw [ih h']

theorem IsReadAs.eq_patternTokens {pattern : List Char} {tokens : List PatternToken}
    (h : IsReadAs pattern tokens) :
  tokens = patternTokens pattern
  := h.unique (isReadAs_patternTokens pattern)

/-- A text that `IsComplete` is added to a draft behind what its buffer holds. -/
theorem Draft.add_of_isComplete (buffer : String) {r : Rendering} (h : r.IsComplete) :
  (Draft.ofText buffer).add r = .ofText (buffer ++ r.text)
  := by
  obtain ⟨text, ending⟩ := r
  obtain rfl : ending = .complete := h
  rfl

namespace ParameterizedMessage

/-! ### Filling placeholders -/

/-- The text of a token with so many `placeholders` before it: a placeholder is filled from the
argument at that position, and kept if there is none. -/
def tokenText (arguments : List FieldValue) (placeholders : Nat) : PatternToken → String
  | .char c => String.singleton c
  | .placeholder => (arguments[placeholders]?).elim "\x7b\x7d" fun argument => argument.display.text

/-- The `tokenText` of all `tokens`, one after the other. -/
def filled (tokens : List PatternToken) (arguments : List FieldValue) : String :=
  String.join (tokens.mapIdx fun i token =>
    tokenText arguments ((tokens.take i).count .placeholder) token)

theorem filled_char (c : Char) (tokens : List PatternToken) (arguments : List FieldValue) :
  filled (.char c :: tokens) arguments = String.singleton c ++ filled tokens arguments
  := by
  rw [filled, List.mapIdx_cons, String.join_cons]
  rfl

/-- A placeholder is filled from the first argument, and the others from `arguments.tail`. -/
theorem filled_placeholder (tokens : List PatternToken) (arguments : List FieldValue) :
  filled (.placeholder :: tokens) arguments
    = tokenText arguments 0 .placeholder ++ filled tokens arguments.tail
  := by
  have hlater : (fun i token => tokenText arguments
        (((PatternToken.placeholder :: tokens).take (i + 1)).count .placeholder) token)
      = fun i token => tokenText arguments.tail ((tokens.take i).count .placeholder) token := by
    funext i token
    rw [List.take_succ_cons, List.count_cons_self]
    cases token with
    | char c => rfl
    | placeholder => rw [tokenText, tokenText, List.getElem?_tail]
  rw [filled, List.mapIdx_cons, String.join_cons, hlater]
  rfl

/-- The `tokens` are added to a buffer as the text `filled` with the arguments. -/
theorem addTokens_eq_filled
    {arguments : List FieldValue} (h : ∀ argument ∈ arguments, argument.display.IsComplete)
    (buffer : String) (tokens : List PatternToken) :
  addTokens (.ofText buffer) arguments tokens = .ofText (buffer ++ filled tokens arguments)
  := by
  induction tokens generalizing buffer arguments with
  | nil =>
      rw [addTokens]
      exact congrArg Draft.ofText (String.append_empty).symm
  | cons token tokens ih =>
      cases token with
      | char c =>
          rw [addTokens, Draft.add_of_isComplete buffer (Rendering.isComplete_ofText _), ih h,
            filled_char, ← String.append_assoc]
          rfl
      | placeholder =>
          rw [filled_placeholder, ← String.append_assoc]
          cases arguments with
          | nil =>
              rw [addTokens, Draft.add_of_isComplete buffer (Rendering.isComplete_ofText _), ih h]
              rfl
          | cons argument arguments =>
              obtain ⟨hargument, hrest⟩ := List.forall_mem_cons.mp h
              rw [addTokens, Draft.add_of_isComplete buffer hargument, ih hrest]
              rfl

/-- The `arguments` for which there is no placeholder make no difference. -/
theorem addTokens_take (draft : Draft) (arguments : List FieldValue) (tokens : List PatternToken) :
  addTokens draft (arguments.take (tokens.count .placeholder)) tokens
    = addTokens draft arguments tokens
  := by
  induction tokens generalizing draft arguments with
  | nil => rw [addTokens, addTokens]
  | cons token tokens ih =>
      cases token with
      | char c =>
          rw [List.count_cons_of_ne (by simp), addTokens, addTokens, ih]
      | placeholder =>
          cases arguments with
          | nil => rw [List.take_nil]
          | cons argument arguments =>
              rw [List.count_cons_self, List.take_succ_cons, addTokens, addTokens, ih]

/-- Messages with the same `pattern` and the same arguments for its placeholders have the same
text. -/
theorem text_congr
    {pattern : String} {arguments arguments' : List FieldValue}
    (h : arguments.take ((patternTokens pattern.toList).count .placeholder)
      = arguments'.take ((patternTokens pattern.toList).count .placeholder)) :
  text ⟨pattern, arguments⟩ = text ⟨pattern, arguments'⟩
  := by
  rw [text, text, addTo, addTo, ← addTokens_take, h, addTokens_take]

/-! ### Quoted texts -/

/-- The characters of the pattern for the text `cs`: a backslash comes before every opening
bracket. -/
def quote (cs : List Char) : List Char :=
  cs.flatMap fun c => if c = '{' then ['\\', '{'] else [c]

theorem head?_quote_ne (cs : List Char) :
  (quote cs).head? ≠ some '{'
  := by
  cases cs with
  | nil => exact nofun
  | cons c cs =>
      by_cases hc : c = '{'
      · obtain rfl := hc
        rw [quote, List.flatMap_cons, if_pos rfl]
        intro h
        have hne := Option.some.inj h
        contradiction
      · rw [quote, List.flatMap_cons, if_neg hc]
        intro h
        exact hc (Option.some.inj h)

/-- The pattern `quote cs` is read as the characters `cs`. -/
theorem isReadAs_quote (cs : List Char) :
  IsReadAs (quote cs) (cs.map .char)
  := by
  induction cs with
  | nil => exact .nil
  | cons c cs ih =>
      by_cases hc : c = '{'
      · obtain rfl := hc
        exact .escape ih
      · have hquote : quote (c :: cs) = c :: quote cs := by
          rw [quote, List.flatMap_cons, if_neg hc]
          rfl
        rw [hquote, List.map_cons]
        apply IsReadAs.char c _ _ ih
        · exact fun _ => head?_quote_ne cs
        · exact fun h => absurd h hc

/-- The characters `cs` are added to a buffer as they are, whatever the arguments are. -/
theorem addTokens_chars (buffer : String) (arguments : List FieldValue) (cs : List Char) :
  addTokens (.ofText buffer) arguments (cs.map .char) = .ofText (buffer ++ String.ofList cs)
  := by
  induction cs generalizing buffer with
  | nil =>
      rw [List.map_nil, addTokens]
      exact congrArg Draft.ofText (String.append_empty).symm
  | cons c cs ih =>
      have hcons : String.ofList (c :: cs) = String.singleton c ++ String.ofList cs := by
        rw [← String.toList_inj, String.toList_append, String.toList_ofList,
          String.toList_singleton, String.toList_ofList]
        rfl
      rw [List.map_cons, addTokens,
        Draft.add_of_isComplete buffer (Rendering.isComplete_ofText _), ih, hcons,
        ← String.append_assoc]
      rfl

theorem text_quote (s : String) (arguments : List FieldValue) :
  text ⟨String.ofList (quote s.toList), arguments⟩ = .ok s
  := by
  rw [text, addTo, String.toList_ofList, ← (isReadAs_quote s.toList).eq_patternTokens,
    addTokens_chars, String.empty_append, String.ofList_toList]
  rfl

/-- A pattern is read in one way, and the text of the message is that of the tokens `filled` with
the texts of its arguments, as they are.  Arguments for which there is no placeholder make no
difference, and the pattern `quote cs` has the text `cs` with any arguments. -/
theorem text_eq_filled
    (m : ParameterizedMessage)
    (h : ∀ argument ∈ m.arguments, argument.display.IsComplete) :
  ∃ tokens, IsReadAs m.pattern.toList tokens
    ∧ (∀ tokens', IsReadAs m.pattern.toList tokens' → tokens' = tokens)
    ∧ m.text = .ok (filled tokens m.arguments)
    ∧ (∀ arguments : List FieldValue,
      arguments.take (tokens.count .placeholder) = m.arguments.take (tokens.count .placeholder) →
        text ⟨m.pattern, arguments⟩ = m.text)
    ∧ ∀ s arguments, text ⟨String.ofList (quote s.toList), arguments⟩ = .ok s
  := by
  use patternTokens m.pattern.toList, isReadAs_patternTokens m.pattern.toList
  constructor
  · exact fun _ => IsReadAs.eq_patternTokens
  · constructor
    · rw [text, addTo, addTokens_eq_filled h, String.empty_append]
      rfl
    · constructor
      · exact fun _ => text_congr
      · exact text_quote

/-- The message in which brackets and backslashes meet, with more placeholders than arguments. -/
def bracketedMessage : ParameterizedMessage :=
  ⟨"\\\\\x7b\x7d \x7b\x7b\x7d\x7d \x7b\x7d\\", [.text "\x7b\x7d"]⟩

/-- The placeholders of `bracketedMessage` are filled. -/
theorem text_eq_filled_bracketedMessage :
  (∀ argument ∈ bracketedMessage.arguments, argument.display.IsComplete)
    ∧ ∃ tokens, IsReadAs bracketedMessage.pattern.toList tokens
      ∧ (∀ tokens', IsReadAs bracketedMessage.pattern.toList tokens' → tokens' = tokens)
      ∧ bracketedMessage.text = .ok (filled tokens bracketedMessage.arguments)
      ∧ (∀ arguments : List FieldValue,
        arguments.take (tokens.count .placeholder)
            = bracketedMessage.arguments.take (tokens.count .placeholder) →
          text ⟨bracketedMessage.pattern, arguments⟩ = bracketedMessage.text)
      ∧ ∀ s arguments, text ⟨String.ofList (quote s.toList), arguments⟩ = .ok s
  := by
  have hcomplete : ∀ argument ∈ bracketedMessage.arguments, argument.display.IsComplete := by
    intro argument hmem
    obtain rfl := List.mem_singleton.mp hmem
    rfl
  exact ⟨hcomplete, text_eq_filled bracketedMessage hcomplete⟩

-- a backslash is left in front of an escaped bracket, and an argument is not read again
example :
  text ⟨"\\\\\x7b\x7d \x7b\x7b\x7d\x7d \x7b\x7d", [.text "\x7b\x7d"]⟩
    = .ok "\\\x7b\x7d \x7b\x7b\x7d\x7d \x7b\x7d"
  := by
  decide +kernel

end ParameterizedMessage

end LogRendering
