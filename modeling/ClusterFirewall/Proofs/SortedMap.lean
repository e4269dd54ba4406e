import ClusterFirewall.Proofs.First
import ClusterFirewall.SortedMap
import Mathlib.Data.List.Nodup

/-!
# Bindings of maps

If no key occurs twice in a list of bindings, then the map of the list binds what the list says, in
whatever order (`get?_ofList_eq_some_iff`, `ofList_of_perm`, `entries_ofList_perm`). The first
binding with a property is the one with the least key (`isFirst_entries_iff`).
-/

namespace ClusterFirewall.SortedMap

variable {κ β : Type} [Ord κ] [Std.TransOrd κ] [Std.LawfulEqOrd κ] [DecidableEq κ]

omit [DecidableEq κ] in
/-- What is kept is what was bound and passes the test. -/
theorem get?_filter (m : SortedMap κ β) (p : κ → β → Bool) (k : κ) :
    (m.filter p).get? k = (m.get? k).filter (p k) := by
  apply Option.ext
  intro v
  rw [get?_eq_some_iff, Option.filter_eq_some_iff, get?_eq_some_iff]
  exact List.mem_filter

omit [DecidableEq κ] in
/-- The first binding with a property is the one with the least key. -/
theorem isFirst_entries_iff {m : SortedMap κ β} {P : κ × β → Prop} {k : κ} {v : β} :
    IsFirst m.entries P (k, v) ↔ m.get? k = some v ∧ P (k, v) ∧
      ∀ k' v', compare k' k = .lt → m.get? k' = some v' → ¬ P (k', v') := by
  simp only [get?_eq_some_iff]
  constructor
  · rintro ⟨before, after, heq, hprop, hbefore⟩
    refine ⟨by simp [heq], hprop, ?_⟩
    intro k' v' hlt hmem
    have hsorted := m.sorted
    rw [heq] at hmem hsorted
    obtain ⟨-, htail, -⟩ := List.pairwise_append.1 hsorted
    rcases List.mem_append.1 hmem with hmem | hmem
    · exact hbefore _ hmem
    · -- From the binding on, no key is below its key.
      rcases List.mem_cons.1 hmem with heq' | hmem
      · obtain ⟨rfl, rfl⟩ := Prod.mk.inj heq'
        simp at hlt
      · exact absurd hlt (Std.OrientedCmp.not_lt_of_lt ((List.pairwise_cons.1 htail).1 _ hmem))
  · rintro ⟨hmem, hprop, hbelow⟩
    obtain ⟨before, after, heq⟩ := List.append_of_mem hmem
    refine ⟨before, after, heq, hprop, ?_⟩
    intro e he
    have hsorted := m.sorted
    rw [heq] at hsorted
    obtain ⟨-, -, hcross⟩ := List.pairwise_append.1 hsorted
    exact hbelow e.1 e.2 (hcross e he (k, v) List.mem_cons_self) (by simp [heq, he])

theorem get?_insertMany_of_not_mem (m : SortedMap κ β) {bindings : List (κ × β)} {k : κ}
    (hk : k ∉ bindings.map (·.1)) : (m.insertMany bindings).get? k = m.get? k := by
  have hnone : (bindings.reverse.find? fun e => decide (e.1 = k)) = none := by
    rw [List.find?_eq_none]
    intro e he hek
    exact hk (List.mem_map.2 ⟨e, List.mem_reverse.1 he, by simpa using hek⟩)
  rw [get?_insertMany, hnone]
  rfl

theorem get?_insertMany_of_mem (m : SortedMap κ β) {bindings : List (κ × β)} {k : κ} {v : β}
    (hkeys : (bindings.map (·.1)).Nodup) (hmem : (k, v) ∈ bindings) :
    (m.insertMany bindings).get? k = some v := by
  have hfind : (bindings.reverse.find? fun e => decide (e.1 = k)) = some (k, v) := by
    cases hf : bindings.reverse.find? fun e => decide (e.1 = k) with
    | none =>
      -- The binding itself would have been found.
      have hne := List.find?_eq_none.1 hf (k, v) (List.mem_reverse.2 hmem)
      simp at hne
    | some e =>
      -- The binding that is found has the same key, and no other binding has it.
      have he : e ∈ bindings := List.mem_reverse.1 (List.mem_of_find?_eq_some hf)
      have hek : e.1 = k := by simpa using List.find?_some hf
      rw [List.inj_on_of_nodup_map hkeys he hmem hek]
  rw [get?_insertMany, hfind]
  rfl

theorem get?_ofList_eq_some_iff {bindings : List (κ × β)} (hkeys : (bindings.map (·.1)).Nodup)
    {k : κ} {v : β} : (ofList bindings).get? k = some v ↔ (k, v) ∈ bindings := by
  constructor
  · intro hget
    by_cases hk : k ∈ bindings.map (·.1)
    · obtain ⟨⟨k', v'⟩, hmem, rfl⟩ := List.mem_map.1 hk
      rw [ofList, get?_insertMany_of_mem _ hkeys hmem] at hget
      obtain rfl := Option.some.inj hget
      exact hmem
    · rw [ofList, get?_insertMany_of_not_mem _ hk] at hget
      cases hget
  · exact get?_insertMany_of_mem _ hkeys

/-- Neighbours of different keys may be listed in either order. -/
theorem ofList_swap {before after : List (κ × β)} {e e' : κ × β} (h : e.1 ≠ e'.1) :
    ofList (before ++ e :: e' :: after) = ofList (before ++ e' :: e :: after) := by
  apply ext_get?
  intro k
  simp only [ofList, get?_insertMany, List.reverse_append, List.reverse_cons, List.append_assoc,
    List.find?_append, List.singleton_append, List.find?_cons]
  by_cases he : e.1 = k
  · have he' : e'.1 ≠ k := fun heq => h (he.trans heq.symm)
    simp [he, he']
  · simp [he]

omit [Std.TransOrd κ] [DecidableEq κ] in
theorem nodup_keys (m : SortedMap κ β) : m.keys.Nodup := by
  refine m.keys_pairwise.imp ?_
  rintro a b hab rfl
  simp at hab

/-- A map is the map of its bindings, in whatever order they are listed. -/
theorem ofList_of_perm {bindings : List (κ × β)} {m : SortedMap κ β}
    (h : bindings.Perm m.entries) : ofList bindings = m := by
  have hkeys : (bindings.map (·.1)).Nodup := (h.map _).nodup_iff.2 m.nodup_keys
  apply ext_get?
  intro k
  apply Option.ext
  intro v
  rw [get?_ofList_eq_some_iff hkeys, get?_eq_some_iff, h.mem_iff]

theorem ofList_entries (m : SortedMap κ β) : ofList m.entries = m := ofList_of_perm (.refl _)

/-- The map of a list without repetition has the bindings of the list, in another order. -/
theorem entries_ofList_perm {bindings : List (κ × β)} (hkeys : (bindings.map (·.1)).Nodup) :
    (ofList bindings).entries.Perm bindings := by
  rw [List.perm_ext_iff_of_nodup (ofList bindings).nodup_keys.of_map hkeys.of_map]
  rintro ⟨k, v⟩
  rw [← get?_eq_some_iff, get?_ofList_eq_some_iff hkeys]

end ClusterFirewall.SortedMap
