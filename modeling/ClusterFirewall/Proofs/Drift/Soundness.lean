import ClusterFirewall.Proofs.Policy.Sets

/-!
# What no drift means

If no drift is found, then every policy has a snapshot that equals it but for the sets, and every
selector of a snapshot carries the present answer (`detect_eq_none_iff`). The drift looks at other
things than the compiler does: rules index by index and without sets on the one hand, recorded sets
on the other. `compile_eq_recorded_of_no_drift` says that nothing the compiler reads is missed.
-/

namespace ClusterFirewall

variable {σ : Type} {r : Resolver σ} {answers : SelectorKey → List String} {st : σ}

/-! ## Policies against their snapshots -/

theorem policyDrift?_eq_none_iff {store : SnapshotStore} {p : Policy} :
    policyDrift? store p = none ↔
      ∃ s, store.get? p.key = some s ∧ p.spec.withoutSets = s.withoutSets := by
  unfold policyDrift?
  cases hs : store.get? p.key with
  | none => simp
  | some s =>
    by_cases hw : p.spec.withoutSets = s.withoutSets <;> simp [PolicySpec.sameButSets_iff, hw]

theorem specDrift_eq_none_iff {policies : List Policy} {store : SnapshotStore} :
    specDrift policies store = none ↔
      ∀ p ∈ policies, ∃ s, store.get? p.key = some s ∧ p.spec.withoutSets = s.withoutSets := by
  simp only [specDrift, List.findSome?_eq_none_iff, policyDrift?_eq_none_iff]

/-! ## Recorded sets against the present answers -/

/-- With fixed answers, the first selector is found that carries other sets than its answer. -/
theorem firstResolutionDrift_eq_find? {answers : Selector → List String}
    (h : r.AnswersBy answers st) (recorded : List (PolicyKey × Selector)) {st' : σ}
    (hr : r.Reaches st st') :
    (firstResolutionDrift r recorded st').1 =
      (recorded.find? fun e => !sameElements e.2.sets (answers e.2)).map fun e =>
        .setsChanged e.1 e.2.key.text := by
  induction recorded generalizing st' with
  | nil => rfl
  | cons e rest ih =>
    have hans : (r.answer e.2 false st').1 = answers e.2 := h st' hr e.2
    have hrest := ih (hr.answer e.2)
    simp only [firstResolutionDrift, hans, List.find?_cons]
    -- The first selector decides unless it is up to date, and then the rest decides.
    cases sameElements e.2.sets (answers e.2) with
    | true => exact hrest
    | false => rfl

theorem firstResolutionDrift_eq_none_iff (h : r.Steady answers st)
    (recorded : List (PolicyKey × Selector)) {st' : σ} (hr : r.Reaches st st') :
    (firstResolutionDrift r recorded st').1 = none ↔
      ∀ e ∈ recorded, ∀ name, name ∈ e.2.sets ↔ name ∈ answers e.2.key := by
  rw [firstResolutionDrift_eq_find? h.answersBy recorded hr, Option.map_eq_none_iff,
    List.find?_eq_none]
  simp only [Bool.not_eq_true', Bool.not_eq_false, sameElements_iff]

theorem firstResolutionDrift_reaches (r : Resolver σ) (recorded : List (PolicyKey × Selector))
    {st st' : σ} (hr : r.Reaches st st') :
    r.Reaches st (firstResolutionDrift r recorded st').2 := by
  induction recorded generalizing st' with
  | nil => exact hr
  | cons e rest ih =>
    simp only [firstResolutionDrift]
    split
    · exact ih (hr.answer e.2)
    · exact hr.answer e.2

theorem SnapshotStore.forall_selectors_iff {store : SnapshotStore} {P : Selector → Prop} :
    (∀ e ∈ store.selectors, P e.2) ↔
      ∀ k s, store.get? k = some s → ∀ sel ∈ s.resolvedSelectors, P sel := by
  constructor
  · -- A selector of a snapshot stands in the list with the key of its snapshot.
    intro hall k s hs sel hsel
    have hmem : (k, sel) ∈ store.selectors :=
      List.mem_flatMap.2 ⟨(k, s), SortedMap.get?_eq_some_iff.1 hs, List.mem_map.2 ⟨sel, hsel, rfl⟩⟩
    exact hall _ hmem
  · intro hall e he
    obtain ⟨⟨k, s⟩, hks, hmem⟩ := List.mem_flatMap.1 he
    obtain ⟨sel, hsel, rfl⟩ := List.mem_map.1 hmem
    exact hall k s (SortedMap.get?_eq_some_iff.2 hks) sel hsel

/-! ## Detection -/

/-- No drift is found if and only if every policy equals its snapshot but for the sets, and every
snapshot carries the present answers. -/
theorem detect_eq_none_iff (h : r.Steady answers st) {policies : List Policy}
    {store : SnapshotStore} :
    (detect r policies store st).1 = none ↔
      (∀ p ∈ policies, ∃ s, store.get? p.key = some s ∧ p.spec.withoutSets = s.withoutSets) ∧
        ∀ k s, store.get? k = some s → s.Current answers := by
  rw [← specDrift_eq_none_iff]
  cases hspec : specDrift policies store with
  | some drift => simp [detect, hspec]
  | none =>
    have hres : detect r policies store st = firstResolutionDrift r store.selectors st := by
      simp only [detect, hspec, resolutionDrift]
    rw [hres, firstResolutionDrift_eq_none_iff h _ .refl, SnapshotStore.forall_selectors_iff
      (P := fun sel => ∀ name, name ∈ sel.sets ↔ name ∈ answers sel.key)]
    exact ⟨fun hcurrent => ⟨rfl, hcurrent⟩, fun hboth => hboth.2⟩

theorem detect_reaches (r : Resolver σ) (policies : List Policy) (store : SnapshotStore) (st : σ) :
    r.Reaches st (detect r policies store st).2 := by
  unfold detect
  split
  · exact .refl
  · exact firstResolutionDrift_reaches r _ .refl

/-! ## Compilation -/

theorem Resolver.Steady.compile_eq (h : r.Steady answers st) (p : Policy) {st' : σ}
    (hr : r.Reaches st st') :
    (p.compile r st').1 =
      ⟨p.ingressLines, (p.resolveBy answers).egressLines, p.resolveBy answers⟩ := by
  show CompiledPolicy.mk p.ingressLines (p.resolve r st').1.egressLines (p.resolve r st').1 = _
  rw [(h.resolve_eq p hr).1]

/-- A policy compiles to the lines of any policy that equals it but for the sets and carries the
present answers. -/
theorem Policy.compile_of_current (h : r.Steady answers st) {p q : Policy}
    (hw : p.withoutSets = q.withoutSets) (hc : q.spec.Current answers) {st' : σ}
    (hr : r.Reaches st st') :
    (p.compile r st').1.ingress = q.ingressLines ∧ (p.compile r st').1.egress = q.egressLines := by
  rw [h.compile_eq p hr]
  constructor
  · show p.ingressLines = q.ingressLines
    exact ingressLines_of_withoutSets hw
  · show (p.resolveBy answers).egressLines = q.egressLines
    rw [egressLines_resolveBy_of_withoutSets answers hw, egressLines_resolveBy hc]

/-- Policies that agree without their sets compile to the same lines. -/
theorem Policy.compile_of_withoutSets (h : r.Steady answers st) {p q : Policy}
    (hw : p.withoutSets = q.withoutSets) {st' : σ} (hr : r.Reaches st st') :
    (p.compile r st').1.ingress = (q.compile r st').1.ingress ∧
      (p.compile r st').1.egress = (q.compile r st').1.egress := by
  rw [h.compile_eq p hr, h.compile_eq q hr]
  exact ⟨ingressLines_of_withoutSets hw, egressLines_resolveBy_of_withoutSets answers hw⟩

/-- The resolver that answers every selector by the sets that it carries. -/
def Resolver.recorded : Resolver σ where
  answer s _ st := (s.sets, st)
  rendering st := ([], st)

theorem EgressRule.resolve_recorded (e : EgressRule) (st : σ) :
    (e.resolve Resolver.recorded st).1 = e := by
  unfold EgressRule.resolve
  split
  · have hsel := traverse_fixed (fun s : Selector => s) e.selectors st
    rw [List.map_id'] at hsel
    exact congrArg (fun l => { e with selectors := l }) (congrArg Prod.fst hsel)
  · rfl

theorem Policy.compile_recorded (p : Policy) (st : σ) :
    (p.compile Resolver.recorded st).1 = ⟨p.ingressLines, p.egressLines, p⟩ := by
  obtain ⟨hrules, -⟩ := traverse_eq_map (f := EgressRule.resolve (σ := σ) Resolver.recorded)
    (g := id) (I := fun _ => True) (fun e st _ => ⟨e.resolve_recorded st, trivial⟩)
    p.spec.egress st trivial
  rw [List.map_id] at hrules
  have hself : (p.resolve Resolver.recorded st).1 = p :=
    congrArg (fun l => { p with spec := { p.spec with egress := l } }) hrules
  show CompiledPolicy.mk p.ingressLines (p.resolve Resolver.recorded st).1.egressLines
    (p.resolve Resolver.recorded st).1 = _
  rw [hself]

/-- If no drift is found, then every policy has a snapshot, and whenever it is compiled from now on
it gives, line for line, what the snapshot gives with the sets that were recorded. -/
theorem compile_eq_recorded_of_no_drift (h : r.Steady answers st) (policies : List Policy)
    (store : SnapshotStore) (hd : (detect r policies store st).1 = none) :
    ∀ p ∈ policies, ∃ s, store.get? p.key = some s ∧ ∀ st', r.Reaches st st' →
      let snapshot : Policy := { p with spec := s }
      (p.compile r st').1.ingress = (snapshot.compile Resolver.recorded ()).1.ingress ∧
        (p.compile r st').1.egress = (snapshot.compile Resolver.recorded ()).1.egress := by
  intro p hp
  obtain ⟨hpolicies, hcurrent⟩ := (detect_eq_none_iff h).1 hd
  obtain ⟨s, hs, hw⟩ := hpolicies p hp
  refine ⟨s, hs, ?_⟩
  intro st' hr snapshot
  have hsame : p.withoutSets = snapshot.withoutSets := Policy.withoutSets_of_key rfl hw
  rw [snapshot.compile_recorded]
  exact Policy.compile_of_current h hsame (hcurrent _ s hs) hr

/-- A policy with a rule for a name and a rule for blocks, whose selectors carry these sets. -/
def namesAndBlocks (sets shadowed : List String) : Policy :=
  .named "web"
    ⟨[⟨[⟨"10.0.0.0/8", []⟩], [.single .tcp 443]⟩],
      [⟨[], [⟨"example.com", "", sets⟩], [.single .udp 53]⟩,
        ⟨[⟨"1.1.1.0/24", ["1.1.1.1"]⟩], [⟨"shadowed.com", "", shadowed⟩], [.single .tcp 80]⟩]⟩

/-- The recorded sets come in another order and with a repetition, and the selector beside blocks
is out of date. -/
theorem compile_eq_recorded_of_reordered_sets :
    let answers : SelectorKey → List String := fun _ => ["b", "a"]
    let r : Resolver Unit := .fixed answers []
    let store : SnapshotStore :=
      SnapshotStore.record ∅ (namesAndBlocks ["a", "b", "a"] ["gone"])
    (detect r [namesAndBlocks [] []] store ()).1 = none ∧
      ∀ p ∈ [namesAndBlocks [] []], ∃ s, store.get? p.key = some s ∧ ∀ st', r.Reaches () st' →
        let snapshot : Policy := { p with spec := s }
        (p.compile r st').1.ingress = (snapshot.compile Resolver.recorded ()).1.ingress ∧
          (p.compile r st').1.egress = (snapshot.compile Resolver.recorded ()).1.egress := by
  intro answers r store
  have hd : (detect r [namesAndBlocks [] []] store ()).1 = none := by decide +kernel
  exact ⟨hd, compile_eq_recorded_of_no_drift (Resolver.fixed_steady answers [] ()) _ store hd⟩

end ClusterFirewall
