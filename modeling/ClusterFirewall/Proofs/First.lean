import Mathlib.Data.List.Basic

/-!
# First elements

A search stops at the first element that it looks for. `IsFirst` says which one that is by what
stands before it. The lemmas on lists of lists say that loops inside each other search the lists
one after the other: `isFirst_flatMap_iff`.
-/

namespace ClusterFirewall

variable {α β : Type} {xs : List α} {P : α → Prop} {a : α}

/-- The element has the property, and no element before it has. -/
def IsFirst (xs : List α) (P : α → Prop) (a : α) : Prop :=
  ∃ before after, xs = before ++ a :: after ∧ P a ∧ ∀ b ∈ before, ¬ P b

namespace IsFirst

theorem mem (h : IsFirst xs P a) : a ∈ xs := by
  obtain ⟨before, after, rfl, -, -⟩ := h
  simp

theorem prop (h : IsFirst xs P a) : P a := by
  obtain ⟨-, -, -, ha, -⟩ := h
  exact ha

end IsFirst

/-! ## Searches -/

theorem find?_eq_some_iff_isFirst {p : α → Bool} (h : ∀ a, p a ↔ P a) :
    xs.find? p = some a ↔ IsFirst xs P a := by
  simp only [List.find?_eq_some_iff_append, IsFirst, Bool.not_eq_true', ← h, Bool.not_eq_true]
  constructor
  · rintro ⟨ha, before, after, heq, hbefore⟩
    exact ⟨before, after, heq, ha, hbefore⟩
  · rintro ⟨before, after, heq, ha, hbefore⟩
    exact ⟨ha, before, after, heq, hbefore⟩

/-- A search that gives a result at the elements with a property, and at no others. -/
theorem findSome?_eq_some_iff_isFirst {f : α → Option β} (h : ∀ a, f a = none ↔ ¬ P a) {b : β} :
    xs.findSome? f = some b ↔ ∃ a, IsFirst xs P a ∧ f a = some b := by
  rw [List.findSome?_eq_some_iff]
  constructor
  · rintro ⟨before, a, after, heq, ha, hbefore⟩
    have hprop : P a := by
      by_contra hnot
      rw [(h a).2 hnot] at ha
      cases ha
    exact ⟨a, ⟨before, after, heq, hprop, fun x hx => (h x).1 (hbefore x hx)⟩, ha⟩
  · rintro ⟨a, ⟨before, after, heq, -, hbefore⟩, ha⟩
    exact ⟨before, a, after, heq, ha, fun x hx => (h x).2 (hbefore x hx)⟩

/-! ## Lists made from lists -/

theorem isFirst_congr {Q : α → Prop} (h : ∀ a, P a ↔ Q a) : IsFirst xs P a ↔ IsFirst xs Q a := by
  rw [funext fun a => propext (h a)]

/-- The first element of a list is the one that a search of the list finds. -/
theorem isFirst_iff_find? [DecidablePred P] :
    IsFirst xs P a ↔ xs.find? (fun a => decide (P a)) = some a :=
  (find?_eq_some_iff_isFirst fun _ => decide_eq_true_iff).symm

/-- Where some element has the property, there is a first one. -/
theorem exists_isFirst_iff : (∃ a, IsFirst xs P a) ↔ ∃ a ∈ xs, P a := by
  classical
  simp only [isFirst_iff_find?, ← Option.isSome_iff_exists, List.find?_isSome, decide_eq_true_iff]

theorem isFirst_cons_iff {b : α} :
    IsFirst (b :: xs) P a ↔ (P b ∧ b = a) ∨ (¬ P b ∧ IsFirst xs P a) := by
  classical
  simp only [isFirst_iff_find?, List.find?_cons]
  by_cases hb : P b <;> simp [hb]

theorem isFirst_filter_iff {p : α → Bool} :
    IsFirst (xs.filter p) P a ↔ IsFirst xs (fun a => p a ∧ P a) a := by
  classical
  rw [isFirst_iff_find?, List.find?_filter]
  exact find?_eq_some_iff_isFirst fun a => by simp

theorem isFirst_map_iff {f : β → α} {ys : List β} :
    IsFirst (ys.map f) P a ↔ ∃ b, IsFirst ys (fun b => P (f b)) b ∧ f b = a := by
  classical
  simp only [isFirst_iff_find?, List.find?_map, Option.map_eq_some_iff, Function.comp_def]

/-- In lists one after the other, the first element is in the first list that has one. -/
theorem isFirst_flatMap_iff {f : β → List α} {ys : List β} :
    IsFirst (ys.flatMap f) P a ↔
      ∃ b, IsFirst ys (fun b => ∃ x ∈ f b, P x) b ∧ IsFirst (f b) P a := by
  classical
  rw [isFirst_iff_find?, List.find?_flatMap]
  simp only [isFirst_iff_find? (P := P)]
  exact findSome?_eq_some_iff_isFirst fun b => by simp

end ClusterFirewall
