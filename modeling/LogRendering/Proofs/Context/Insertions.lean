import LogRendering.Html.Row
import LogRendering.Proofs.Message.Agreement

/-!
# Maps without a history

Context maps and map messages are made by insertions, and hold for each key the value that was
inserted last.  Their entries are in the order of the keys.  So insertions in any order, with any
values replaced on the way, make maps that are the same in all that is read from them or written
of them, if and only if they leave each key with the same value.
-/

namespace LogRendering

/-- The insertions give the same keys, and the same last value to each of them. -/
def LeaveTheSame {α : Type} (insertions insertions' : List (String × α)) : Prop :=
  ∀ key, lastValue? insertions key = lastValue? insertions' key

/-- Maps that hold the last values of insertions are equal if the insertions satisfy
`LeaveTheSame`. -/
theorem SortedMap.eq_of_leaveTheSame {α : Type} {m n : SortedMap α}
    {insertions insertions' : List (String × α)}
    (hm : ∀ key, m.get? key = lastValue? insertions key)
    (hn : ∀ key, n.get? key = lastValue? insertions' key)
    (h : LeaveTheSame insertions insertions') :
  m = n
  := by
  apply SortedMap.eq_of_forall_get?_eq
  intro key
  rw [hm, hn, h]

/-! ### Context maps -/

namespace ContextMap

variable {m n : ContextMap} {insertions insertions' : List (String × String)}

/-- The map is made by the insertions: of none, of a list at once by `ofList`, or of one more by
`insert`. -/
inductive IsMadeBy : ContextMap → List (String × String) → Prop where
  | empty : IsMadeBy empty []
  | ofList (insertions : List (String × String)) : IsMadeBy (ofList insertions) insertions
  | insert {m : ContextMap} {insertions : List (String × String)} (h : IsMadeBy m insertions)
    (key value : String) :
    IsMadeBy (m.insert key value) (insertions ++ [(key, value)])

/-- A key of a map has the value of its last insertion. -/
theorem IsMadeBy.get?_eq (h : m.IsMadeBy insertions) (key : String) :
  m.get? key = lastValue? insertions key
  := by
  induction h with
  | empty => rfl
  | ofList insertions => exact SortedMap.get?_ofList insertions key
  | insert h k value ih =>
      rw [lastValue?_concat, ← ih]
      exact SortedMap.get?_insert _ k value key

/-- The maps are the same to all that read them: `get?`, the number and the order of their
entries, their texts, and the rows of any event that carries them. -/
structure LooksLike (m n : ContextMap) : Prop where
  get?_eq : ∀ key, m.get? key = n.get? key
  size_eq : m.size = n.size
  toList_eq : m.toList = n.toList
  display_eq : m.display = n.display
  mapRow_eq : ∀ r : Html.RowRenderer, r.mapRow m = r.mapRow n
  renderText_eq : ∀ (r : Html.RowRenderer) (event : Event),
    r.renderText { event with map := m } = r.renderText { event with map := n }

/-- Context maps `LooksLike` each other exactly if their insertions `LeaveTheSame`. -/
theorem IsMadeBy.looksLike_iff (hm : m.IsMadeBy insertions) (hn : n.IsMadeBy insertions') :
  m.LooksLike n ↔ LeaveTheSame insertions insertions'
  := by
  constructor
  · intro h key
    rw [← hm.get?_eq, ← hn.get?_eq, h.get?_eq]
  · intro h
    obtain rfl : m = n :=
      congrArg ContextMap.mk (SortedMap.eq_of_leaveTheSame hm.get?_eq hn.get?_eq h)
    exact ⟨fun _ => rfl, rfl, rfl, rfl, fun _ => rfl, fun _ _ => rfl⟩

end ContextMap

/-! ### Map messages -/

namespace MapMessage

variable {m n : MapMessage} {insertions insertions' : List (String × FieldValue)}

/-- The messages are the same to all that read them: `get?`, the text, alone or after what a
buffer holds, and the text in each format, JSON and XML among them. -/
structure LooksLike (m n : MapMessage) : Prop where
  get?_eq : ∀ key, m.get? key = n.get? key
  text_eq : m.text = n.text
  addTo_eq : ∀ buffer, m.addTo buffer = n.addTo buffer
  formatAs_eq : ∀ name, m.multiformat.formatAs name = n.multiformat.formatAs name

theorem IsMadeBy.looksLike_iff (hm : m.IsMadeBy insertions) (hn : n.IsMadeBy insertions') :
  m.LooksLike n ↔ LeaveTheSame insertions insertions'
  := by
  constructor
  · intro h key
    rw [← hm.get?_eq, ← hn.get?_eq, h.get?_eq]
  · intro h
    obtain rfl : m = n :=
      congrArg MapMessage.mk (SortedMap.eq_of_leaveTheSame hm.get?_eq hn.get?_eq h)
    exact ⟨fun _ => rfl, rfl, fun _ => rfl, fun _ => rfl⟩

end MapMessage

/-! ### Both -/

/-- Context maps and map messages made by insertions hold for each key its last value, and a
context map has an entry for each of the different keys, in their strict order.  They satisfy
`LooksLike` if and only if the insertions satisfy `LeaveTheSame`, whatever the order of the
insertions and the values that were replaced. -/
theorem looksLike_iff_leaveTheSame :
  (∀ (m n : ContextMap) (insertions insertions' : List (String × String)),
      m.IsMadeBy insertions → n.IsMadeBy insertions' →
      (∀ key, m.get? key = lastValue? insertions key)
        ∧ m.size = (insertions.map Prod.fst).dedup.length
        ∧ KeysIncrease m.toList
        ∧ (m.LooksLike n ↔ LeaveTheSame insertions insertions'))
    ∧ (∀ (m n : MapMessage) (insertions insertions' : List (String × FieldValue)),
      m.IsMadeBy insertions → n.IsMadeBy insertions' →
      (∀ key, m.get? key = lastValue? insertions key)
        ∧ (m.LooksLike n ↔ LeaveTheSame insertions insertions'))
  := by
  constructor
  · intro m n insertions insertions' hm hn
    have hsize := SortedMap.size_eq_of_get?_eq hm.get?_eq
    exact ⟨hm.get?_eq, hsize, m.entries.increasing, hm.looksLike_iff hn⟩
  · intro m n insertions insertions' hm hn
    exact ⟨hm.get?_eq, hm.looksLike_iff hn⟩

section

variable {α : Type}

/-- Insertions that replace the value `old` of a key by `new`. -/
def replacing (old new value : α) : List (String × α) :=
  [("user", old), ("action", value)] ++ [("user", new)]

/-- The insertions of `replacing` in another order, without the value that is replaced. -/
def reordered (new value : α) : List (String × α) :=
  [] ++ [("user", new)] ++ [("action", value)]

theorem leaveTheSame_replacing (old new value : α) :
  LeaveTheSame (replacing old new value) (reordered new value)
  := by
  intro key
  rw [replacing, reordered, lastValue?_concat, lastValue?_concat, lastValue?_concat,
    lastValue?_cons, lastValue?_cons]
  by_cases huser : "user" = key
  · subst huser
    rfl
  · simp [huser, lastValue?]

end

/-- A replaced value and another order leave no trace in a context map or in a map message. -/
theorem looksLike_replacing :
  (∃ m n : ContextMap, m.IsMadeBy (replacing "alice" "bob" "login")
      ∧ n.IsMadeBy (reordered "bob" "login")
      ∧ m.LooksLike n ∧ m.display = "\x7baction=login, user=bob\x7d" ∧ m.size = 2)
    ∧ ∃ m n : MapMessage, m.IsMadeBy (replacing .null (.seq [.bool true]) (.text "\""))
      ∧ n.IsMadeBy (reordered (.seq [.bool true]) (.text "\""))
      ∧ m.LooksLike n ∧ m.text = .ok "action=\"\"\" user=\"[true]\""
  := by
  obtain ⟨hmaps, hmessages⟩ := looksLike_iff_leaveTheSame
  constructor
  · have hm := (ContextMap.IsMadeBy.ofList [("user", "alice"), ("action", "login")]).insert
      "user" "bob"
    have hn := (ContextMap.IsMadeBy.empty.insert "user" "bob").insert "action" "login"
    obtain ⟨-, -, -, hlook⟩ := hmaps _ _ _ _ hm hn
    exact ⟨_, _, hm, hn, hlook.mpr (leaveTheSame_replacing _ _ _), by decide, by decide⟩
  · have hm := (MapMessage.IsMadeBy.ofList [("user", .null), ("action", .text "\"")]).insert
      "user" (.seq [.bool true])
    have hn := (MapMessage.IsMadeBy.empty.insert "user" (.seq [.bool true])).insert
      "action" (.text "\"")
    obtain ⟨-, hlook⟩ := hmessages _ _ _ _ hm hn
    exact ⟨_, _, hm, hn, hlook.mpr (leaveTheSame_replacing _ _ _), by decide⟩

end LogRendering
