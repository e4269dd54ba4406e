import ClusterFirewall.Proofs.Resolution.Upkeep

/-!
# Registering a selector

A question may register a selector that the cache does not know. The selector then gets one empty
set, whose name is made of the selector alone and is not looked up in the cache. So nothing else
changes as long as no selector refers to a set of that name. If one does, because it was given a set
of that name or was registered under the same name, the two share the set from then on, and whatever
was in it is lost.

Main statement: `registersApart_iff_unused`.
-/

namespace ClusterFirewall.ResolutionCache

/-- Asking for a selector registers it with a set that is its own and empty, and leaves the answers
of all other selectors and all declared sets as they were. -/
structure RegistersApart (c : ResolutionCache) (s : Selector) (n : String) : Prop where
  answered : (c.answer s true).1 = [n]
  /-- No selector referred to the set. -/
  unused : ∀ k names, c.answers.get? k = some names → n ∉ names
  answers : ∀ k, (c.answer s true).2.answers.get? k =
    if k = s.key then some [n] else c.answers.get? k
  declared : ∀ t, t ∈ (c.answer s true).2.declared ↔ t = .empty n ∨ t ∈ c.declared

section Registration

variable {c : ResolutionCache} {history : List CacheStep} {s : Selector}

theorem answer_true_of_unknown (hnew : c.answers.get? s.key = none) :
    c.answer s true = ([s.key.freshSetName], c.insert s.key [.empty s.key.freshSetName]) := by
  rw [answer_of_unknown hnew, if_pos rfl]

theorem get?_answers_of_registered (hnew : c.answers.get? s.key = none) (k : SelectorKey) :
    (c.answer s true).2.answers.get? k =
      if k = s.key then some [s.key.freshSetName] else c.answers.get? k := by
  rw [answer_true_of_unknown hnew, get?_answers_insert]
  rfl

theorem get?_sets_of_registered (hnew : c.answers.get? s.key = none) (n : String) :
    (c.answer s true).2.sets.get? n =
      if n = s.key.freshSetName then some (.empty s.key.freshSetName) else c.sets.get? n := by
  rw [answer_true_of_unknown hnew, get?_sets_insert]
  -- The list that is put in has one set, which is found under its own name only.
  by_cases hn : n = s.key.freshSetName
  · simp [IpSet.empty, hn]
  · have hn' : s.key.freshSetName ≠ n := fun heq => hn heq.symm
    simp [IpSet.empty, hn, hn']

/-- The set of the selector takes the place of the one that had its name, if there was one. -/
theorem Keeps.mem_declared_of_registered (h : c.Keeps history)
    (hnew : c.answers.get? s.key = none) {t : IpSet} :
    t ∈ (c.answer s true).2.declared ↔
      t = .empty s.key.freshSetName ∨ t ∈ c.declared ∧ t.name ≠ s.key.freshSetName := by
  rw [(h.asked s true).mem_declared_iff, h.mem_declared_iff, get?_sets_of_registered hnew]
  by_cases hn : t.name = s.key.freshSetName
  · simp [hn, eq_comm]
  · have hne : t ≠ .empty s.key.freshSetName := fun heq => hn (congrArg IpSet.name heq)
    simp [hn, hne]

/-- A name that nobody refers to is the name of no declared set. -/
theorem Keeps.name_ne_of_unused (h : c.Keeps history) {n : String}
    (hunused : ∀ k names, c.answers.get? k = some names → n ∉ names) {t : IpSet}
    (ht : t ∈ c.declared) : t.name ≠ n := by
  intro hname
  obtain ⟨k, names, hk, hn⟩ := h.exists_declared_iff.1 ⟨t, ht, hname⟩
  exact hunused k names hk hn

theorem Keeps.registersApart (h : c.Keeps history) (hnew : c.answers.get? s.key = none)
    (hunused : ∀ k names, c.answers.get? k = some names → s.key.freshSetName ∉ names) :
    c.RegistersApart s s.key.freshSetName where
  answered := congrArg Prod.fst (answer_true_of_unknown hnew)
  unused := hunused
  answers := get?_answers_of_registered hnew
  declared := by
    intro t
    rw [h.mem_declared_of_registered hnew]
    -- No declared set has the name, so that none is replaced.
    have hkept : t ∈ c.declared ∧ t.name ≠ s.key.freshSetName ↔ t ∈ c.declared :=
      and_iff_left_of_imp (h.name_ne_of_unused hunused)
    rw [hkept]

/-- The name of the new set cannot be any other one, so that the registration is apart exactly if
nobody refers to this name. -/
theorem Keeps.exists_registersApart_iff (h : c.Keeps history)
    (hnew : c.answers.get? s.key = none) :
    (∃ n, c.RegistersApart s n) ↔
      ∀ k names, c.answers.get? k = some names → s.key.freshSetName ∉ names := by
  constructor
  · rintro ⟨n, hn⟩
    have hnames : [n] = [s.key.freshSetName] :=
      hn.answered.symm.trans (congrArg Prod.fst (answer_true_of_unknown hnew))
    obtain rfl : n = s.key.freshSetName := List.singleton_inj.1 hnames
    exact hn.unused
  · intro hunused
    exact ⟨_, h.registersApart hnew hunused⟩

/-- Whatever is referred to was supplied at some time. -/
theorem Keeps.supplied_of_referenced (h : c.Keeps history) {k : SelectorKey} {names : List String}
    (hk : c.answers.get? k = some names) {n : String} (hn : n ∈ names) :
    ∃ t ∈ CacheStep.supplied history, t.name = n := by
  obtain ⟨t, ht, hname⟩ := h.exists_declared_iff.2 ⟨k, names, hk, hn⟩
  have hfound := h.follows.content t.name t (h.mem_declared_iff.1 ht)
  exact ⟨t, List.mem_of_find?_eq_some hfound, hname⟩

theorem Keeps.registersApart_of_not_supplied (h : c.Keeps history)
    (hnew : c.answers.get? s.key = none)
    (hnever : ∀ t ∈ CacheStep.supplied history, t.name ≠ s.key.freshSetName) :
    c.RegistersApart s s.key.freshSetName := by
  apply h.registersApart hnew
  intro k names hk hn
  obtain ⟨t, ht, hname⟩ := h.supplied_of_referenced hk hn
  exact hnever t ht hname

theorem Keeps.declared_kept_iff (h : c.Keeps history) (hnew : c.answers.get? s.key = none) :
    (∀ t ∈ c.declared, t ∈ (c.answer s true).2.declared) ↔
      ∀ t ∈ c.declared, t.name = s.key.freshSetName → t = .empty s.key.freshSetName := by
  simp only [h.mem_declared_of_registered hnew]
  refine forall₂_congr fun t ht => ?_
  by_cases hn : t.name = s.key.freshSetName <;> simp [hn, ht]

end Registration

/-- Whatever happened to a cache, asking for a selector that it knows gives the stored answer and
changes nothing. Asking for another one registers it with an empty set of a name of its own, in
place of the set that had the name. The registration is apart from all else exactly if no selector
refers to a set of that name, and it is so if no set of that name was ever supplied. All declared
sets stay as they were exactly if the one of that name, if any, was like the new one. -/
theorem registersApart_iff_unused (steps : List CacheStep) (s : Selector) :
    let c := steps.foldl ResolutionCache.after empty
    let n := s.key.freshSetName
    (∀ names, c.answers.get? s.key = some names → ∀ create, c.answer s create = (names, c)) ∧
      (c.answers.get? s.key = none →
        (c.answer s true).1 = [n] ∧
        (∀ k, (c.answer s true).2.answers.get? k =
          if k = s.key then some [n] else c.answers.get? k) ∧
        (∀ t, t ∈ (c.answer s true).2.declared ↔
          t = .empty n ∨ t ∈ c.declared ∧ t.name ≠ n) ∧
        ((∃ m, c.RegistersApart s m) ↔
          ∀ k names, c.answers.get? k = some names → n ∉ names) ∧
        ((∀ t ∈ CacheStep.supplied steps.reverse, t.name ≠ n) → c.RegistersApart s n) ∧
        ((∀ t ∈ c.declared, t ∈ (c.answer s true).2.declared) ↔
          ∀ t ∈ c.declared, t.name = n → t = .empty n)) := by
  intro c n
  have h : c.Keeps steps.reverse := by simpa using keeps_empty.run steps
  refine ⟨fun names hk create => answer_of_known hk create, ?unknown⟩
  case unknown =>
    intro hnew
    exact ⟨congrArg Prod.fst (answer_true_of_unknown hnew), get?_answers_of_registered hnew,
      fun t => h.mem_declared_of_registered hnew, h.exists_registersApart_iff hnew,
      h.registersApart_of_not_supplied hnew, h.declared_kept_iff hnew⟩

/-- A selector is registered beside another one that has a set with addresses. -/
theorem registersApart_beside_other :
    let s := Selector.ofName "a.example"
    let own : IpSet := ⟨"own", .ipv6, ["2001:db8::1"]⟩
    let c := [CacheStep.write (.update ⟨"", "*.b.example"⟩ [own])].foldl
      ResolutionCache.after empty
    c.answers.get? s.key = none ∧ c.RegistersApart s s.key.freshSetName ∧
      (c.answer s true).2.declared = [.empty s.key.freshSetName, own] := by
  intro s own c
  have hnew : c.answers.get? s.key = none := by decide +kernel
  have h := (registersApart_iff_unused [.write (.update ⟨"", "*.b.example"⟩ [own])] s).2 hnew
  obtain ⟨-, -, -, -, hapart, -⟩ := h
  exact ⟨hnew, hapart (by decide +kernel), by decide +kernel⟩

/-- A selector is registered, another one is given its set, with an address, and the first selector
is removed. When it is registered again, it takes the set and empties it, so that the address of the
other selector is lost. -/
theorem not_registersApart_of_given_away :
    let s := Selector.ofName "a.example"
    let other : SelectorKey := ⟨"", "*.b.example"⟩
    let shared : IpSet := ⟨s.key.freshSetName, .ipv4, ["192.0.2.1"]⟩
    let c := [CacheStep.ask s true, .write (.update other [shared]), .write (.remove s.key)].foldl
      ResolutionCache.after empty
    c.answers.get? s.key = none ∧ c.answers.get? other = some [shared.name] ∧
      c.declared = [shared] ∧ (c.answer s true).2.declared = [.empty shared.name] ∧
      ¬ ∃ n, c.RegistersApart s n := by
  intro s other shared c
  have hdeclared : c.declared = [shared] := by decide +kernel
  have hafter : (c.answer s true).2.declared = [.empty shared.name] := by decide +kernel
  refine ⟨by decide +kernel, by decide +kernel, hdeclared, hafter, ?_⟩
  rintro ⟨n, hapart⟩
  have hkept := (hapart.declared shared).2 (.inr (by simp [hdeclared]))
  rw [hafter, List.mem_singleton] at hkept
  cases congrArg IpSet.members hkept

/-- Two selectors can be registered under one name: the bar that stands between the name and the
pattern may also stand in them. -/
example : (⟨"a|b", ""⟩ : SelectorKey).freshSetName = (⟨"a", "b|"⟩ : SelectorKey).freshSetName := by
  decide +kernel

end ClusterFirewall.ResolutionCache
