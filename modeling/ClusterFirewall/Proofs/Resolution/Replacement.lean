import ClusterFirewall.Proofs.Resolution.Upkeep

/-!
# Replacing everything

A list of entries can take the place of a cache's content in two ways. Either all of them are put
into an empty cache, which is pruned at the end, or all selectors are removed and the entries are
written one after the other, each with a pruning of its own. On the second way a set may be dropped
and supplied again later. The copy that stays is the same, because a set is dropped only while no
selector refers to it, and whoever refers to it afterwards supplies it anew.

Main statement: `replaceAll_eq_updates`.
-/

namespace ClusterFirewall.ResolutionCache

/-! ## Pruning early -/

/-- A name that a selector is not given now was referred to before. -/
theorem isReferenced_of_insert {c : ResolutionCache} {key : SelectorKey} {sets : List IpSet}
    {n : String} (h : (c.insert key sets).isReferenced n = true)
    (hnew : (sets.reverse.find? fun s => decide (s.name = n)) = none) :
    c.isReferenced n = true := by
  obtain ⟨k, names, hk, hn⟩ := isReferenced_iff.1 h
  rw [get?_answers_insert] at hk
  split at hk
  · -- The name is not among those of the sets that are given.
    obtain rfl := Option.some.inj hk
    obtain ⟨s, hs, hname⟩ := List.mem_map.1 hn
    have hnot := List.find?_eq_none.1 hnew s (List.mem_reverse.2 hs)
    simp [hname] at hnot
  · exact isReferenced_iff.2 ⟨k, names, hk, hn⟩

/-- A set that is dropped before an insertion would be dropped after it. -/
theorem prune_insert_prune (c : ResolutionCache) (key : SelectorKey) (sets : List IpSet) :
    (c.prune.insert key sets).prune = (c.insert key sets).prune := by
  have hsets : (c.prune.insert key sets).prune.sets = (c.insert key sets).prune.sets := by
    apply SortedMap.ext_get?
    intro n
    -- Pruning does not touch the answers, so that both sides refer to the same names.
    have hsame : (c.prune.insert key sets).isReferenced n = (c.insert key sets).isReferenced n :=
      rfl
    rw [get?_sets_prune, get?_sets_prune, get?_sets_insert, get?_sets_insert, get?_sets_prune,
      hsame]
    cases hnew : sets.reverse.find? fun s => decide (s.name = n) with
    | some s => rfl
    | none =>
      by_cases hreferenced : (c.insert key sets).isReferenced n = true
      · simp [isReferenced_of_insert hreferenced hnew]
      · simp [hreferenced]
  exact congrArg (ResolutionCache.mk (c.insert key sets).answers) hsets

/-- Writing entries one after the other is putting them in and pruning at the end. -/
theorem foldl_update_prune (entries : List CacheEntry) (c : ResolutionCache) :
    entries.foldl (fun c e => c.update e.key e.sets) c.prune =
      (entries.foldl (fun c e => c.insert e.key e.sets) c).prune := by
  induction entries generalizing c with
  | nil => rfl
  | cons e rest ih =>
    -- The pruning before the first entry is made up for by the one after it.
    have hfirst : c.prune.update e.key e.sets = (c.insert e.key e.sets).prune :=
      prune_insert_prune c e.key e.sets
    rw [List.foldl_cons, List.foldl_cons, hfirst]
    exact ih (c.insert e.key e.sets)

/-! ## Removing all selectors -/

theorem eq_empty_of_tidy {c : ResolutionCache} (h : c.Tidy)
    (hunknown : ∀ k, c.answers.get? k = none) : c = empty := by
  have hanswers : c.answers = ∅ := SortedMap.ext_get? hunknown
  have hsets : c.sets = ∅ := by
    apply SortedMap.ext_get?
    intro n
    cases hs : c.sets.get? n with
    | none => rfl
    | some s =>
      -- The set would be somebody's.
      obtain ⟨k, names, hk, -⟩ := isReferenced_iff.1 (h n s hs)
      rw [hunknown] at hk
      cases hk
  exact congrArg₂ ResolutionCache.mk hanswers hsets

theorem get?_answers_foldl_remove (keys : List SelectorKey) (c : ResolutionCache)
    (k : SelectorKey) :
    (keys.foldl remove c).answers.get? k = if k ∈ keys then none else c.answers.get? k := by
  induction keys generalizing c with
  | nil => simp
  | cons key rest ih =>
    have hremove : (c.remove key).answers.get? k = if k = key then none else c.answers.get? k :=
      SortedMap.get?_erase _ _ _
    rw [List.foldl_cons, ih, hremove]
    by_cases hk : k = key <;> simp [hk]

theorem Tidy.foldl_remove {c : ResolutionCache} (h : c.Tidy) (keys : List SelectorKey) :
    (keys.foldl remove c).Tidy := by
  induction keys generalizing c with
  | nil => exact h
  | cons key rest ih => exact ih (tidy_prune _)

/-- Without its selectors a cache is empty, in whatever order they were removed. -/
theorem foldl_remove_eq_empty {c : ResolutionCache} (h : c.Tidy) {keys : List SelectorKey}
    (hkeys : ∀ k, (c.answers.get? k).isSome → k ∈ keys) : keys.foldl remove c = empty := by
  apply eq_empty_of_tidy (h.foldl_remove keys)
  intro k
  rw [get?_answers_foldl_remove]
  split
  · rfl
  · rename_i hk
    exact Option.not_isSome_iff_eq_none.1 fun hsome => hk (hkeys k hsome)

/-! ## Both ways -/

/-- Whatever happened to a cache, replacing everything by a list of entries leads to the same cache
as removing all its selectors and writing the entries one after the other. The cache that it leads
to does not depend on the one before, so that doing it twice is doing it once. -/
theorem replaceAll_eq_updates (steps : List CacheStep) (entries : List CacheEntry) :
    let c := steps.foldl ResolutionCache.after empty
    (∀ keys : List SelectorKey, (∀ k, (c.answers.get? k).isSome → k ∈ keys) →
        entries.foldl (fun c e => c.update e.key e.sets) (keys.foldl remove c) =
          c.replaceAll entries) ∧
      (∀ c' : ResolutionCache, c'.replaceAll entries = c.replaceAll entries) ∧
      (c.replaceAll entries).replaceAll entries = c.replaceAll entries := by
  intro c
  refine ⟨?updates, fun _ => rfl, rfl⟩
  case updates =>
    intro keys hkeys
    have htidy : c.Tidy := (keeps_empty.run steps).tidy
    rw [foldl_remove_eq_empty htidy hkeys]
    exact foldl_update_prune entries empty

/-- The first selector comes twice and lets go of a set that the second one takes up. Written one
after the other, the entries drop the set and supply it again. -/
theorem replaceAll_eq_updates_of_dropped_set :
    let first : SelectorKey := ⟨"a.example", ""⟩
    let second : SelectorKey := ⟨"", "*.b.example"⟩
    let early : IpSet := ⟨"shared", .ipv4, ["192.0.2.1"]⟩
    let late : IpSet := ⟨"shared", .ipv6, ["2001:db8::1"]⟩
    let entries : List CacheEntry :=
      [⟨first, [early, .empty "own"]⟩, ⟨first, []⟩, ⟨second, [late]⟩]
    let c := [CacheStep.write (.update second [.empty "old"]), .ask (.ofName "c.example") true].foldl
      ResolutionCache.after empty
    c.answers.keys.length = 2 ∧
      entries.foldl (fun c e => c.update e.key e.sets) (c.answers.keys.foldl remove c) =
        c.replaceAll entries ∧
      (c.replaceAll entries).declared = [late] := by
  intro first second early late entries c
  have hboth := (replaceAll_eq_updates [.write (.update second [.empty "old"]),
    .ask (.ofName "c.example") true] entries).1
  exact ⟨by decide +kernel, hboth _ fun k hk => SortedMap.mem_keys_iff.2 hk, by decide +kernel⟩

end ClusterFirewall.ResolutionCache
