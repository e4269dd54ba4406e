import ClusterFirewall.Proofs.Drift.Soundness
import ClusterFirewall.Proofs.SortedMap

/-!
# Which drift is found

The detector makes two passes. The first one goes through the policies in their order and compares
each with its snapshot, the second one through the recorded selectors in the order of keys, rules
and selectors. `FirstDrift` says without a search which drift comes first: everything before it is
up to date.

Main statement: `detect_eq_iff`, no drift is found iff everything is up to date, and a drift is
found iff it is the first one.
-/

namespace ClusterFirewall

/-! ## What is up to date -/

/-- The policy has a snapshot that equals it but for the sets. -/
def SnapshotStore.Covers (store : SnapshotStore) (p : Policy) : Prop :=
  ∃ s, store.get? p.key = some s ∧ p.spec.withoutSets = s.withoutSets

section Answers

variable (answers : Selector → List String)

/-- The selector carries the names of its answer, in whatever order and however often. -/
def Selector.Carries (s : Selector) : Prop := ∀ name, name ∈ s.sets ↔ name ∈ answers s

/-- The selectors of a rule carry their answers. Those beside blocks stand for no sets, so nothing
is asked of them. -/
def EgressRule.Carries (e : EgressRule) : Prop :=
  e.destinations = [] → ∀ s ∈ e.selectors, s.Carries answers

def PolicySpec.Carries (s : PolicySpec) : Prop := ∀ e ∈ s.egress, e.Carries answers

end Answers

/-- Namespaces come first, then names. -/
def PolicyKey.Precedes (k k' : PolicyKey) : Prop :=
  k.space < k'.space ∨ (k.space = k'.space ∧ k.name < k'.name)

theorem PolicyKey.compare_eq_lt_iff {k k' : PolicyKey} : compare k k' = .lt ↔ k.Precedes k' := by
  show (compare k.space k'.space).then (compare k.name k'.name) = .lt ↔ _
  rw [Ordering.then_eq_lt, Std.LawfulEqCmp.compare_eq_iff_eq]
  exact or_congr compareOfLessAndEq_eq_lt (and_congr_right fun _ => compareOfLessAndEq_eq_lt)

/-- The drift that comes first: the first policy that is not covered, which is new or else changed,
and if all are covered, the first selector that does not carry its answer. -/
inductive FirstDrift (answers : Selector → List String) (policies : List Policy)
    (store : SnapshotStore) : Drift → Prop where
  | newPolicy {p} (first : IsFirst policies (¬ store.Covers ·) p)
      (absent : store.get? p.key = none) : FirstDrift answers policies store (.newPolicy p.key)
  | specChanged {p s} (first : IsFirst policies (¬ store.Covers ·) p)
      (recorded : store.get? p.key = some s) :
      FirstDrift answers policies store (.specChanged p.key)
  | setsChanged {k s e sel} (covered : ∀ p ∈ policies, store.Covers p)
      (recorded : store.get? k = some s)
      (below : ∀ k' s', k'.Precedes k → store.get? k' = some s' → s'.Carries answers)
      (rule : IsFirst s.egress (¬ ·.Carries answers) e)
      (selector : IsFirst e.selectors (¬ ·.Carries answers) sel) :
      FirstDrift answers policies store (.setsChanged k sel.key.text)

/-! ## The first policy -/

section Policies

variable {policies : List Policy} {store : SnapshotStore} {d : Drift}

theorem policyDrift?_eq_none_iff_covers {p : Policy} :
    policyDrift? store p = none ↔ ¬¬ store.Covers p :=
  policyDrift?_eq_none_iff.trans not_not.symm

/-- The first policy that is not covered is new if its key is absent, and has changed if not. -/
theorem specDrift_eq_some_iff : specDrift policies store = some d ↔
    ∃ p, IsFirst policies (¬ store.Covers ·) p ∧
      ((store.get? p.key = none ∧ d = .newPolicy p.key) ∨
        ((store.get? p.key).isSome ∧ d = .specChanged p.key)) := by
  rw [specDrift, findSome?_eq_some_iff_isFirst fun _ => policyDrift?_eq_none_iff_covers]
  refine exists_congr fun p => and_congr_right fun hfirst => ?_
  unfold policyDrift?
  cases hget : store.get? p.key with
  | none => simp [eq_comm]
  | some s =>
    -- A policy that is not covered differs from its snapshot.
    have hchanged : ¬ p.spec.sameButSets s := by
      rw [PolicySpec.sameButSets_iff]
      exact fun hw => hfirst.prop ⟨s, hget, hw⟩
    simp [hchanged, eq_comm]

end Policies

/-! ## The first selector -/

section Selectors

variable {answers : Selector → List String}

theorem PolicySpec.carries_iff {s : PolicySpec} :
    s.Carries answers ↔ ∀ sel ∈ s.resolvedSelectors, sel.Carries answers := by
  simp only [Carries, EgressRule.Carries, mem_resolvedSelectors, List.isEmpty_iff]
  exact ⟨fun h sel ⟨e, he, hempty, hsel⟩ => h e he hempty sel hsel,
    fun h e he hempty sel hsel => h sel ⟨e, he, hempty, hsel⟩⟩

/-- The first outdated selector of a snapshot is the first one of the first rule that has any. -/
theorem PolicySpec.isFirst_resolvedSelectors_iff {s : PolicySpec} {sel : Selector} :
    IsFirst s.resolvedSelectors (¬ ·.Carries answers) sel ↔
      ∃ e, IsFirst s.egress (¬ ·.Carries answers) e ∧
        IsFirst e.selectors (¬ ·.Carries answers) sel := by
  rw [resolvedSelectors, isFirst_flatMap_iff]
  refine exists_congr fun e => and_congr_left' ?_
  rw [isFirst_filter_iff]
  apply isFirst_congr
  intro e
  simp [EgressRule.Carries]

/-- The first outdated selector of a store is that of the least key whose snapshot has any. -/
theorem SnapshotStore.isFirst_selectors_iff {store : SnapshotStore} {k : PolicyKey}
    {sel : Selector} :
    IsFirst store.selectors (fun e => ¬ e.2.Carries answers) (k, sel) ↔
      ∃ s, store.get? k = some s ∧
        (∀ k' s', k'.Precedes k → store.get? k' = some s' → s'.Carries answers) ∧
        IsFirst s.resolvedSelectors (¬ ·.Carries answers) sel := by
  rw [selectors, isFirst_flatMap_iff]
  simp only [isFirst_map_iff]
  constructor
  · rintro ⟨⟨k', s⟩, hentry, sel', hsel, heq⟩
    obtain ⟨rfl, rfl⟩ := Prod.mk.inj heq
    obtain ⟨hget, -, hbelow⟩ := SortedMap.isFirst_entries_iff.1 hentry
    refine ⟨s, hget, ?_, hsel⟩
    intro k' s' hk hs
    have hnone := hbelow k' s' (PolicyKey.compare_eq_lt_iff.2 hk) hs
    rw [PolicySpec.carries_iff]
    simpa using hnone
  · rintro ⟨s, hget, hbelow, hsel⟩
    refine ⟨(k, s), SortedMap.isFirst_entries_iff.2 ⟨hget, ?_, ?_⟩, sel, hsel, rfl⟩
    · exact ⟨(k, sel), List.mem_map_of_mem hsel.mem, hsel.prop⟩
    · intro k' s' hk hs
      have hall := PolicySpec.carries_iff.1 (hbelow k' s' (PolicyKey.compare_eq_lt_iff.1 hk) hs)
      simpa using hall

end Selectors

/-! ## Detection -/

section Detection

variable {σ : Type} {r : Resolver σ} {st : σ} {answers : Selector → List String}

theorem not_sameElements_iff_carries {s : Selector} :
    (!sameElements s.sets (answers s)) ↔ ¬ s.Carries answers := by
  rw [Bool.not_eq_true', ← Bool.not_eq_true, sameElements_iff]
  rfl

theorem resolutionDrift_eq_none_iff (h : r.AnswersBy answers st) {store : SnapshotStore} :
    (resolutionDrift r store st).1 = none ↔
      ∀ k s, store.get? k = some s → s.Carries answers := by
  rw [resolutionDrift, firstResolutionDrift_eq_find? h _ .refl, Option.map_eq_none_iff,
    List.find?_eq_none]
  simp only [not_sameElements_iff_carries, not_not, PolicySpec.carries_iff]
  exact SnapshotStore.forall_selectors_iff

theorem resolutionDrift_eq_some_iff (h : r.AnswersBy answers st) {store : SnapshotStore}
    {d : Drift} : (resolutionDrift r store st).1 = some d ↔
      ∃ k sel, IsFirst store.selectors (fun e => ¬ e.2.Carries answers) (k, sel) ∧
        d = .setsChanged k sel.key.text := by
  rw [resolutionDrift, firstResolutionDrift_eq_find? h _ .refl, Option.map_eq_some_iff]
  simp only [find?_eq_some_iff_isFirst fun _ => not_sameElements_iff_carries, Prod.exists,
    eq_comm]

theorem detect_eq_or (r : Resolver σ) (policies : List Policy) (store : SnapshotStore) (st : σ) :
    (detect r policies store st).1 =
      (specDrift policies store).or (resolutionDrift r store st).1 := by
  unfold detect
  cases specDrift policies store <;> rfl

theorem firstDrift_iff (h : r.AnswersBy answers st) {policies : List Policy}
    {store : SnapshotStore} {d : Drift} :
    FirstDrift answers policies store d ↔ specDrift policies store = some d ∨
      (specDrift policies store = none ∧ (resolutionDrift r store st).1 = some d) := by
  rw [specDrift_eq_some_iff, specDrift_eq_none_iff, resolutionDrift_eq_some_iff h]
  constructor
  · rintro (⟨hfirst, habsent⟩ | ⟨hfirst, hrecorded⟩ | ⟨hcovered, hrecorded, hbelow, hrule, hsel⟩)
    · exact .inl ⟨_, hfirst, .inl ⟨habsent, rfl⟩⟩
    · exact .inl ⟨_, hfirst, .inr ⟨by simp [hrecorded], rfl⟩⟩
    · have hselectors := PolicySpec.isFirst_resolvedSelectors_iff.2 ⟨_, hrule, hsel⟩
      exact .inr ⟨hcovered, _, _,
        SnapshotStore.isFirst_selectors_iff.2 ⟨_, hrecorded, hbelow, hselectors⟩, rfl⟩
  · rintro (⟨p, hfirst, ⟨habsent, rfl⟩ | ⟨hsome, rfl⟩⟩ | ⟨hcovered, k, sel, hfirst, rfl⟩)
    · exact .newPolicy hfirst habsent
    · obtain ⟨s, hrecorded⟩ := Option.isSome_iff_exists.1 hsome
      exact .specChanged hfirst hrecorded
    · obtain ⟨s, hrecorded, hbelow, hselectors⟩ := SnapshotStore.isFirst_selectors_iff.1 hfirst
      obtain ⟨e, hrule, hsel⟩ := PolicySpec.isFirst_resolvedSelectors_iff.1 hselectors
      exact .setsChanged hcovered hrecorded hbelow hrule hsel

/-- With fixed answers, no drift is found iff every policy has a snapshot that equals it but for the
sets and every recorded selector that stands for sets carries its answer. A drift is found iff it is
the first one. -/
theorem detect_eq_iff (h : r.AnswersBy answers st) (policies : List Policy)
    (store : SnapshotStore) :
    ((detect r policies store st).1 = none ↔
      (∀ p ∈ policies, ∃ s, store.get? p.key = some s ∧ p.spec.withoutSets = s.withoutSets) ∧
        ∀ k s, store.get? k = some s → ∀ e ∈ s.egress, e.destinations = [] →
          ∀ sel ∈ e.selectors, ∀ name, name ∈ sel.sets ↔ name ∈ answers sel) ∧
      ∀ d, (detect r policies store st).1 = some d ↔ FirstDrift answers policies store d := by
  rw [detect_eq_or]
  constructor
  · rw [Option.or_eq_none_iff, specDrift_eq_none_iff, resolutionDrift_eq_none_iff h]
    rfl
  · intro d
    rw [Option.or_eq_some_iff, firstDrift_iff h]

/-- Of two policies that are both covered, the second in the list has the lesser key. In its
snapshot the first rule has an outdated selector beside blocks, which does not count, and in the
second rule the first selector carries its names in another order. -/
theorem detect_eq_of_outdated_selector :
    let answers : SelectorKey → List String := fun k =>
      if k.matchName = "a.org" then ["a1", "a2"] else ["b"]
    let r : Resolver Unit := .fixed answers []
    let spec (first second : List String) : PolicySpec :=
      ⟨[], [⟨[⟨"192.0.2.0/24", []⟩], [.ofName "a.org"], [.single .tcp 80]⟩,
        ⟨[], [⟨"a.org", "", first⟩, ⟨"b.org", "", second⟩], [.single .tcp 443]⟩]⟩
    let policies : List Policy := [.named "web" (spec [] []), .named "dns" (spec [] [])]
    let store : SnapshotStore := SnapshotStore.recordAll ∅
      [.named "web" (spec ["gone"] ["gone"]), .named "dns" (spec ["a2", "a1", "a2"] ["gone"])]
    let drift : Drift := .setsChanged ⟨"firewall", "dns"⟩ "b.org"
    (detect r policies store ()).1 = some drift ∧
      FirstDrift (fun s => answers s.key) policies store drift := by
  intro answers r spec policies store drift
  have hfixed : r.AnswersBy (fun s => answers s.key) () :=
    (Resolver.fixed_steady answers [] ()).answersBy
  have hdetect : (detect r policies store ()).1 = some drift := by decide +kernel
  exact ⟨hdetect, ((detect_eq_iff hfixed policies store).2 drift).1 hdetect⟩

end Detection

end ClusterFirewall
