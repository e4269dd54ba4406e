import ClusterFirewall.Proofs.Ruleset.Contents
import ClusterFirewall.Proofs.SortedMap

/-!
# The sets that a ruleset declares

A ruleset declares the sets of the resolver and every other set that its rules refer to, each name
once. They are sorted by a stable sort, and of neighbours with one name the first one stays, so that
of every name the set is left that came first (`find?_declaredSets`). Which sets these are depends
on the names that are referred to, not on their order or how often they occur
(`declaredSets_congr`), and every name that is referred to has its set (`mem_names_declaredSets`).
-/

namespace ClusterFirewall

/-! ## Sorting by name -/

theorem mem_insertByName {s t : IpSet} {sets : List IpSet} :
    t ∈ insertByName s sets ↔ t = s ∨ t ∈ sets := by
  induction sets with
  | nil => simp [insertByName]
  | cons u rest ih =>
    unfold insertByName
    split
    · exact List.mem_cons
    · rw [List.mem_cons, List.mem_cons, ih, or_left_comm]

theorem pairwise_insertByName {s : IpSet} {sets : List IpSet}
    (h : sets.Pairwise fun t u => (compare t.name u.name).isLE) :
    (insertByName s sets).Pairwise fun t u => (compare t.name u.name).isLE := by
  induction sets with
  | nil => simp [insertByName]
  | cons u rest ih =>
    obtain ⟨hu, hrest⟩ := List.pairwise_cons.1 h
    unfold insertByName
    split
    · rename_i hle
      refine List.pairwise_cons.2 ⟨fun t ht => ?_, h⟩
      rcases List.mem_cons.1 ht with rfl | ht
      · exact hle
      · exact Std.TransCmp.isLE_trans hle (hu t ht)
    · rename_i hgt
      refine List.pairwise_cons.2 ⟨fun t ht => ?_, ih hrest⟩
      rcases mem_insertByName.1 ht with rfl | ht
      · -- The names are in one order or the other.
        rw [Ordering.isLE_iff_ne_gt, not_not] at hgt
        exact Ordering.isLE_of_eq_lt (Std.OrientedCmp.lt_of_gt hgt)
      · exact hu t ht

theorem pairwise_sortByName (sets : List IpSet) :
    (sortByName sets).Pairwise fun t u => (compare t.name u.name).isLE := by
  induction sets with
  | nil => exact .nil
  | cons s rest ih => exact pairwise_insertByName ih

/-- The set goes before all sets of its own name, so it is found as if it stood in front. -/
theorem find?_insertByName (k : String) (s : IpSet) (sets : List IpSet) :
    (insertByName s sets).find? (·.name == k) = (s :: sets).find? (·.name == k) := by
  induction sets with
  | nil => rfl
  | cons u rest ih =>
    unfold insertByName
    split
    · rfl
    · rename_i hgt
      have hne : s.name ≠ u.name := by
        intro heq
        simp [heq] at hgt
      simp only [List.find?_cons] at ih ⊢
      rw [ih]
      by_cases hu : u.name = k
      · have hs : (s.name == k) = false := beq_false_of_ne fun hs => hne (hs.trans hu.symm)
        rw [hs]
      · rw [beq_false_of_ne hu]

/-- Sorting is stable: of every name the same set comes first. -/
theorem find?_sortByName (k : String) (sets : List IpSet) :
    (sortByName sets).find? (·.name == k) = sets.find? (·.name == k) := by
  induction sets with
  | nil => rfl
  | cons s rest ih =>
    show (insertByName s (sortByName rest)).find? (·.name == k) = _
    rw [find?_insertByName, List.find?_cons, ih, List.find?_cons]

/-! ## Repeated names -/

theorem eraseRepsBy_loop {α : Type} (same : α → α → Bool) (a : α) (rest kept : List α) :
    List.eraseRepsBy.loop same a rest kept =
      kept.reverse ++ List.eraseRepsBy.loop same a rest [] := by
  induction rest generalizing a kept with
  | nil => simp [List.eraseRepsBy.loop]
  | cons b rest ih =>
    unfold List.eraseRepsBy.loop
    split
    · exact ih a kept
    · rw [ih b (a :: kept), ih b [a]]
      simp

theorem eraseRepsBy_cons_cons {α : Type} (same : α → α → Bool) (a b : α) (rest : List α) :
    (a :: b :: rest).eraseRepsBy same =
      if same a b then (a :: rest).eraseRepsBy same else a :: (b :: rest).eraseRepsBy same := by
  simp only [List.eraseRepsBy]
  rw [List.eraseRepsBy.loop]
  cases same a b with
  | true => rfl
  | false => exact eraseRepsBy_loop same b rest [a]

/-- Dropping repeated neighbours drops no set that comes first of its name. -/
theorem find?_eraseRepsBy (k : String) (sets : List IpSet) :
    (sets.eraseRepsBy fun s t => s.name == t.name).find? (·.name == k) =
      sets.find? (·.name == k) := by
  cases sets with
  | nil => rfl
  | cons s rest =>
    induction rest generalizing s with
    | nil => rfl
    | cons t rest ih =>
      rw [eraseRepsBy_cons_cons, List.find?_cons, List.find?_cons]
      by_cases heq : s.name = t.name
      · -- The second set is dropped, and it would not have been found.
        rw [if_pos (by simpa using heq), ih, List.find?_cons, heq]
        cases t.name == k <;> rfl
      · rw [if_neg (by simpa using heq), List.find?_cons, ih, List.find?_cons]

theorem mem_of_mem_eraseRepsBy {α : Type} {same : α → α → Bool} {a : α} {xs : List α}
    (h : a ∈ xs.eraseRepsBy same) : a ∈ xs := by
  cases xs with
  | nil => exact h
  | cons b rest =>
    induction rest generalizing b with
    | nil => exact h
    | cons c rest ih =>
      rw [eraseRepsBy_cons_cons] at h
      split at h
      · rcases List.mem_cons.1 (ih b h) with rfl | h
        · exact List.mem_cons_self
        · exact List.mem_cons_of_mem _ (List.mem_cons_of_mem _ h)
      · rcases List.mem_cons.1 h with rfl | h
        · exact List.mem_cons_self
        · exact List.mem_cons_of_mem _ (ih c h)

/-- Where the names are in order, no name is left twice. -/
theorem pairwise_eraseRepsBy {sets : List IpSet}
    (h : sets.Pairwise fun s t => (compare s.name t.name).isLE) :
    (sets.eraseRepsBy fun s t => s.name == t.name).Pairwise fun s t =>
      compare s.name t.name = .lt := by
  cases sets with
  | nil => exact .nil
  | cons s rest =>
    induction rest generalizing s with
    | nil => exact List.pairwise_singleton _ _
    | cons t rest ih =>
      obtain ⟨hs, hrest⟩ := List.pairwise_cons.1 h
      rw [eraseRepsBy_cons_cons]
      split
      · exact ih s (h.sublist (.cons_cons s (List.sublist_cons_self t rest)))
      · rename_i hne
        refine List.pairwise_cons.2 ⟨fun u hu => ?_, ih t hrest⟩
        have hlt : compare s.name t.name = .lt := by
          rcases Ordering.isLE_iff_eq_lt_or_eq_eq.1 (hs t List.mem_cons_self) with hlt | heq
          · exact hlt
          · exact absurd (by simpa using heq) hne
        -- Whatever is left of the rest does not come before its head.
        rcases List.mem_cons.1 (mem_of_mem_eraseRepsBy hu) with rfl | hu
        · exact hlt
        · exact Std.TransCmp.lt_of_lt_of_isLE hlt ((List.pairwise_cons.1 hrest).1 u hu)

/-! ## Declared sets -/

theorem find?_map_empty (names : List String) (k : String) :
    (names.map IpSet.empty).find? (·.name == k) =
      if k ∈ names then some (IpSet.empty k) else none := by
  induction names with
  | nil => rfl
  | cons name rest ih =>
    rw [List.map_cons, List.find?_cons, ih]
    by_cases hk : k = name
    · simp [hk, IpSet.empty]
    · have hne : ((IpSet.empty name).name == k) = false := beq_false_of_ne (Ne.symm hk)
      simp [hne, hk]

theorem pairwise_declaredSets (rendering : List IpSet) (policies : List Policy) :
    (declaredSets rendering policies).Pairwise fun s t => compare s.name t.name = .lt :=
  pairwise_eraseRepsBy (pairwise_sortByName _)

/-- The set of a name is the first one of the resolver, and if it has none, an empty set, provided
that the name is referred to. -/
theorem find?_declaredSets (rendering : List IpSet) (policies : List Policy) (k : String) :
    (declaredSets rendering policies).find? (·.name == k) =
      (rendering.find? (·.name == k)).or
        (if k ∈ referencedSets policies then some (IpSet.empty k) else none) := by
  unfold declaredSets
  rw [find?_eraseRepsBy, find?_sortByName, List.find?_append]
  cases hfound : rendering.find? (·.name == k) with
  | some s => rfl
  | none =>
    -- The resolver has no set of the name, so there is an empty one if it is referred to.
    have hnone : rendering.any (·.name == k) = false :=
      List.any_eq_false.2 (List.find?_eq_none.1 hfound)
    have hmissing : k ∈ (sortUnique (referencedSets policies)).filter (fun name =>
        !rendering.any (·.name == name)) ↔ k ∈ referencedSets policies := by
      rw [List.mem_filter, mem_sortUnique, hnone]
      simp
    rw [find?_map_empty, Option.none_or, Option.none_or]
    simp only [hmissing]

theorem mem_names_declaredSets {rendering : List IpSet} {policies : List Policy} {name : String} :
    name ∈ (declaredSets rendering policies).map (·.name) ↔
      name ∈ rendering.map (·.name) ∨ name ∈ referencedSets policies := by
  have hfound : ∀ sets : List IpSet,
      name ∈ sets.map (·.name) ↔ (sets.find? (·.name == name)).isSome := by
    intro sets
    simp only [List.mem_map, List.find?_isSome, beq_iff_eq]
  rw [hfound, hfound, find?_declaredSets]
  by_cases hk : name ∈ referencedSets policies <;> simp [hk]

theorem nodup_names_declaredSets (rendering : List IpSet) (policies : List Policy) :
    ((declaredSets rendering policies).map (·.name)).Nodup := by
  refine List.pairwise_map.2 ((pairwise_declaredSets rendering policies).imp ?_)
  intro s t hlt heq
  have hself : compare s.name t.name = .eq := Std.LawfulEqCmp.compare_eq_iff_eq.2 heq
  rw [hlt] at hself
  cases hself

/-- A declared set is the one that is found by its name. -/
theorem find?_of_mem_declaredSets {rendering : List IpSet} {policies : List Policy} {s : IpSet}
    (hs : s ∈ declaredSets rendering policies) :
    (rendering.find? (·.name == s.name)).or
      (if s.name ∈ referencedSets policies then some (IpSet.empty s.name) else none) = some s := by
  rw [← find?_declaredSets]
  have hsome : ((declaredSets rendering policies).find? (·.name == s.name)).isSome :=
    List.find?_isSome.2 ⟨s, hs, beq_self_eq_true s.name⟩
  obtain ⟨t, ht⟩ := Option.isSome_iff_exists.1 hsome
  -- What is found has the name of the set, and no other set has.
  have hname : t.name = s.name := by simpa using List.find?_some ht
  rw [ht, List.inj_on_of_nodup_map (nodup_names_declaredSets rendering policies)
    (List.mem_of_find?_eq_some ht) hs hname]

theorem of_mem_declaredSets {rendering : List IpSet} {policies : List Policy} {s : IpSet}
    (hs : s ∈ declaredSets rendering policies) :
    s ∈ rendering ∨ ∃ name ∈ referencedSets policies, s = IpSet.empty name := by
  rcases Option.or_eq_some_iff.1 (find?_of_mem_declaredSets hs) with hfound | ⟨-, hempty⟩
  · exact .inl (List.mem_of_find?_eq_some hfound)
  · split at hempty
    · rename_i hk
      exact .inr ⟨s.name, hk, (Option.some.inj hempty).symm⟩
    · cases hempty

/-- The sets by their names: those of the resolver first, then those that are referred to. -/
theorem declaredSets_eq_values (rendering : List IpSet) (policies : List Policy) :
    ∃ m : SortedMap String IpSet, declaredSets rendering policies = m.values ∧
      ∀ k, m.get? k = (rendering.find? (·.name == k)).or
        (if k ∈ referencedSets policies then some (IpSet.empty k) else none) := by
  have hsorted : ((declaredSets rendering policies).map fun s => (s.name, s)).Pairwise
      fun e e' => compare e.1 e'.1 = .lt := by
    rw [List.pairwise_map]
    exact pairwise_declaredSets rendering policies
  refine ⟨⟨_, hsorted⟩, ?_, fun k => ?_⟩
  · simp [SortedMap.values, Function.comp_def]
  · rw [← find?_declaredSets, SortedMap.get?, List.find?_map, Option.map_map]
    have hsame : (fun s : IpSet => s.name == k) = fun s => compare k s.name == .eq := by
      funext s
      rw [Bool.eq_iff_iff, beq_iff_eq, beq_iff_eq, Std.LawfulEqCmp.compare_eq_iff_eq, eq_comm]
    rw [hsame]
    exact Option.map_id'

theorem declaredSets_congr (rendering : List IpSet) {ps qs : List Policy}
    (h : ∀ name, name ∈ referencedSets ps ↔ name ∈ referencedSets qs) :
    declaredSets rendering ps = declaredSets rendering qs := by
  obtain ⟨m, hm, hget⟩ := declaredSets_eq_values rendering ps
  obtain ⟨m', hm', hget'⟩ := declaredSets_eq_values rendering qs
  have heq : m = m' := by
    apply SortedMap.ext_get?
    intro k
    rw [hget, hget']
    simp only [h]
  rw [hm, hm', heq]

end ClusterFirewall
