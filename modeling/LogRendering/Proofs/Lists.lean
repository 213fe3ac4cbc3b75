import Mathlib.Data.List.Forall2

/-!
# Lists

Lists that are related member by member, lists that a function keeps or that another one reads
back, and the ways to cut a list after a longest beginning.
-/

namespace LogRendering

/-- A list is related by `R` to another one exactly if every member of it is related to
something. -/
theorem exists_forall₂_iff {α β : Type} {R : α → β → Prop} (as : List α) :
  (∃ bs, List.Forall₂ R as bs) ↔ ∀ a ∈ as, ∃ b, R a b
  := by
  induction as with
  | nil => simp
  | cons a as ih =>
      rw [List.forall_mem_cons, ← ih]
      constructor
      · rintro ⟨_, _ | ⟨hab, habs⟩⟩
        exact ⟨⟨_, hab⟩, ⟨_, habs⟩⟩
      · rintro ⟨⟨b, hab⟩, ⟨bs, habs⟩⟩
        exact ⟨b :: bs, .cons hab habs⟩

/-- What holds of everything that is related to a member of a list holds of every member of a
related list. -/
theorem forall_mem_of_forall₂ {α β : Type} {R : α → β → Prop} {P : β → Prop} {as : List α}
    {bs : List β} (h : List.Forall₂ R as bs) (hP : ∀ a ∈ as, ∀ b, R a b → P b) :
  ∀ b ∈ bs, P b
  := by
  induction h with
  | nil => simp
  | cons hab habs ih =>
      obtain ⟨ha, has⟩ := List.forall_mem_cons.mp hP
      exact List.forall_mem_cons.mpr ⟨ha _ hab, ih has⟩

/-- A member of a list is related to a member of a related list. -/
theorem exists_mem_of_forall₂ {α β : Type} {R : α → β → Prop} {as : List α} {bs : List β}
    (h : List.Forall₂ R as bs) {a : α} (hmem : a ∈ as) :
  ∃ b ∈ bs, R a b
  := by
  induction h with
  | nil => exact absurd hmem List.not_mem_nil
  | cons hab habs ih =>
      obtain rfl | hmem := List.mem_cons.mp hmem
      · exact ⟨_, List.mem_cons_self, hab⟩
      · obtain ⟨b, hb, hab⟩ := ih hmem
        exact ⟨b, List.mem_cons_of_mem _ hb, hab⟩

/-- The function `f` keeps a list if and only if it keeps every member. -/
theorem map_eq_self_iff {α : Type} (f : α → α) (as : List α) :
  as.map f = as ↔ ∀ a ∈ as, f a = a
  := by
  calc as.map f = as ↔ as.map f = as.map id := by rw [List.map_id]
    _ ↔ ∀ a ∈ as, f a = a := List.map_inj_left

/-- Lists of which related members have the same images under `f` and `g` have the same
images. -/
theorem map_eq_map_of_forall₂ {α β γ : Type} {R : α → β → Prop} {as : List α} {bs : List β}
    (h : List.Forall₂ R as bs) {f : α → γ} {g : β → γ}
    (hfg : ∀ a ∈ as, ∀ b, R a b → g b = f a) :
  bs.map g = as.map f
  := by
  induction h with
  | nil => rfl
  | cons hab habs ih =>
      obtain ⟨ha, has⟩ := List.forall_mem_cons.mp hfg
      rw [List.map_cons, List.map_cons, ha _ hab, ih has]

/-- If `g` reads `f a` back as `a`, whatever follows it, then it reads a list back. -/
theorem flatMap_read_back {α β : Type} {f : α → List β} {g : List β → List α}
    (hnil : g [] = []) (hcons : ∀ a rest, g (f a ++ rest) = a :: g rest) (as : List α) :
  g (as.flatMap f) = as
  := by
  induction as with
  | nil => exact hnil
  | cons a as ih => rw [List.flatMap_cons, hcons, ih]

/-- Two ways to cut a list after its longest beginning of members that satisfy `P` are the
same. -/
theorem append_inj_of_longest {α : Type} {P : α → Prop} {xs ys rest rest' : List α}
    (hxs : ∀ x ∈ xs, P x) (hys : ∀ y ∈ ys, P y) (hrest : ∀ x ∈ rest.head?, ¬ P x)
    (hrest' : ∀ y ∈ rest'.head?, ¬ P y) (h : xs ++ rest = ys ++ rest') :
  xs = ys ∧ rest = rest'
  := by
  induction xs generalizing ys with
  | nil =>
      cases ys with
      | nil => exact ⟨rfl, h⟩
      | cons y ys =>
          rw [List.nil_append] at h
          rw [h] at hrest
          exact absurd (hys y List.mem_cons_self) (hrest y rfl)
  | cons x xs ih =>
      cases ys with
      | nil =>
          rw [List.nil_append] at h
          rw [← h] at hrest'
          exact absurd (hxs x List.mem_cons_self) (hrest' x rfl)
      | cons y ys =>
          obtain ⟨rfl, htail⟩ := List.cons.inj h
          obtain ⟨rfl, hends⟩ := ih (fun x hx => hxs x (List.mem_cons_of_mem _ hx))
            (fun y hy => hys y (List.mem_cons_of_mem _ hy)) htail
          exact ⟨rfl, hends⟩

end LogRendering
