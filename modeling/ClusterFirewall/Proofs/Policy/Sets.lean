import ClusterFirewall.Drift
import ClusterFirewall.Policy.Validation
import ClusterFirewall.Proofs.Resolution.Steady

/-!
# Policies and the sets that they carry

Resolution writes sets into the selectors of a policy. What a policy is apart from these sets is
`Policy.withoutSets`: resolution does not change it, and the key, the violations and the ingress
rules depend on nothing else. The egress rules depend on the sets of those selectors that stand for
sets, and on these sets only as sets, whatever their order and repetition.

Main statements: `withoutSets_resolve`, `isValid_withoutSets`, and `egressLines_resolveBy`, a policy
that carries the present answers compiles as if it were resolved anew.
-/

namespace ClusterFirewall

/-! ## What is left without the sets -/

/-- A policy with the sets of its selectors left out. -/
def Policy.withoutSets (p : Policy) : Policy := { p with spec := p.spec.withoutSets }

theorem Policy.key_withoutSets (p : Policy) : p.withoutSets.key = p.key := rfl

theorem Policy.withoutSets_of_key {p q : Policy} (hkey : p.key = q.key)
    (hspec : p.spec.withoutSets = q.spec.withoutSets) : p.withoutSets = q.withoutSets := by
  obtain ⟨hspace, hname⟩ := PolicyKey.mk.inj hkey
  simp only [withoutSets, hspace, hname, hspec]

theorem EgressRule.withoutSets_resolve {σ : Type} (r : Resolver σ) (e : EgressRule) (st : σ) :
    (e.resolve r st).1.withoutSets = e.withoutSets := by
  unfold EgressRule.resolve
  split
  · -- Each selector keeps its name and its pattern, so that without sets the lists are equal.
    have hsel := map_traverse (f := Selector.resolve r) (h := fun s => { s with sets := [] })
      (g := fun s => { s with sets := [] }) (fun _ _ => rfl) e.selectors st
    exact congrArg (fun l => { e with selectors := l }) hsel
  · rfl

/-- Resolving a policy changes nothing but the sets of its selectors. -/
theorem Policy.withoutSets_resolve {σ : Type} (r : Resolver σ) (p : Policy) (st : σ) :
    (p.resolve r st).1.withoutSets = p.withoutSets := by
  have hrules := map_traverse (f := EgressRule.resolve r)
    (fun e st => e.withoutSets_resolve r st) p.spec.egress st
  exact congrArg (fun l => { p with spec := { p.spec with egress := l } }) hrules

theorem Policy.withoutSets_resolveBy (answers : SelectorKey → List String) (p : Policy) :
    (p.resolveBy answers).withoutSets = p.withoutSets := by
  -- Resolving with known answers is resolving with a resolver that has no others.
  have h := (Resolver.fixed_steady answers [] ()).resolve_eq p .refl
  rw [← h.1]
  exact p.withoutSets_resolve _ ()

/-! ## Violations -/

theorem EgressRule.violations_withoutSets (index : Nat) (e : EgressRule) :
    e.withoutSets.violations index = e.violations index := by
  simp only [EgressRule.violations, EgressRule.withoutSets, List.flatMap_map]
  rfl

/-- The violations of a policy do not depend on the sets of its selectors. -/
theorem Policy.violations_withoutSets (p : Policy) : p.withoutSets.violations = p.violations := by
  have hegress : p.withoutSets.spec.egress.zipIdx.flatMap (fun e => e.1.violations e.2) =
      p.spec.egress.zipIdx.flatMap (fun e => e.1.violations e.2) := by
    show (p.spec.egress.map EgressRule.withoutSets).zipIdx.flatMap _ = _
    rw [List.zipIdx_map, List.flatMap_map]
    congr 1
    funext e
    exact e.1.violations_withoutSets e.2
  unfold Policy.violations
  rw [hegress]
  rfl

theorem Policy.isValid_withoutSets (p : Policy) : p.withoutSets.isValid = p.isValid := by
  rw [isValid, isValid, violations_withoutSets]

/-- Policies that agree without their sets have the same key and are valid together. -/
theorem Policy.eq_of_withoutSets {p q : Policy} (h : p.withoutSets = q.withoutSets) :
    p.key = q.key ∧ p.isValid = q.isValid := by
  rw [← p.key_withoutSets, ← q.key_withoutSets, ← p.isValid_withoutSets, ← q.isValid_withoutSets, h]
  exact ⟨rfl, rfl⟩

/-! ## Rules -/

theorem Policy.ingressLines_of_withoutSets {p q : Policy} (h : p.withoutSets = q.withoutSets) :
    p.ingressLines = q.ingressLines := by
  have hp : p.withoutSets.ingressLines = p.ingressLines := rfl
  have hq : q.withoutSets.ingressLines = q.ingressLines := rfl
  rw [← hp, ← hq, h]

/-- The answers replace whatever sets there were. -/
theorem EgressRule.resolveBy_withoutSets (answers : SelectorKey → List String) {e : EgressRule}
    (he : e.destinations.isEmpty) : e.withoutSets.resolveBy answers = e.resolveBy answers := by
  simp only [EgressRule.resolveBy, EgressRule.withoutSets, he, if_true, List.map_map]
  rfl

theorem EgressRule.clauseLists_resolveBy_withoutSets (answers : SelectorKey → List String)
    (e : EgressRule) :
    (e.withoutSets.resolveBy answers).clauseLists = (e.resolveBy answers).clauseLists := by
  by_cases he : e.destinations.isEmpty
  · rw [EgressRule.resolveBy_withoutSets answers he]
  · -- Neither is resolved, and the clauses come from the blocks.
    simp [EgressRule.resolveBy, EgressRule.withoutSets, EgressRule.clauseLists, he]

theorem EgressRule.ports_resolveBy (answers : SelectorKey → List String) (e : EgressRule) :
    (e.resolveBy answers).ports = e.ports := by
  unfold EgressRule.resolveBy
  split <;> rfl

/-- The rules of a policy with known answers do not depend on the sets that it carried before. -/
theorem Policy.egressLines_resolveBy_of_withoutSets (answers : SelectorKey → List String)
    {p q : Policy} (h : p.withoutSets = q.withoutSets) :
    (p.resolveBy answers).egressLines = (q.resolveBy answers).egressLines := by
  -- The answers replace the sets, so those that the policy came with may be left out beforehand.
  have hself : ∀ p : Policy,
      (p.withoutSets.resolveBy answers).egressRules = (p.resolveBy answers).egressRules := by
    intro p
    simp only [egressRules, resolveBy, withoutSets, PolicySpec.withoutSets, List.flatMap_map,
      EgressRule.clauseLists_resolveBy_withoutSets, EgressRule.ports_resolveBy]
    rfl
  rw [egressLines, egressLines, ← hself p, ← hself q, h]

/-! ## Sets that are up to date -/

/-- Every selector that stands for sets carries the answer of its key, as a set. -/
def PolicySpec.Current (answers : SelectorKey → List String) (s : PolicySpec) : Prop :=
  ∀ sel ∈ s.resolvedSelectors, ∀ name, name ∈ sel.sets ↔ name ∈ answers sel.key

theorem PolicySpec.mem_resolvedSelectors {s : PolicySpec} {sel : Selector} :
    sel ∈ s.resolvedSelectors ↔
      ∃ e ∈ s.egress, e.destinations.isEmpty ∧ sel ∈ e.selectors := by
  simp [PolicySpec.resolvedSelectors, and_assoc]

/-- With known answers, every selector that stands for sets carries the answer of its key. -/
theorem PolicySpec.sets_of_resolveBy {answers : SelectorKey → List String} {p : Policy}
    {sel : Selector} (hsel : sel ∈ (p.resolveBy answers).spec.resolvedSelectors) :
    sel.sets = answers sel.key := by
  obtain ⟨e', he', hempty, hmem⟩ := PolicySpec.mem_resolvedSelectors.1 hsel
  obtain ⟨e, -, rfl⟩ := List.mem_map.1 he'
  by_cases he : e.destinations.isEmpty
  · rw [EgressRule.resolveBy, if_pos he] at hmem
    obtain ⟨s, -, rfl⟩ := List.mem_map.1 hmem
    rfl
  · -- An egress rule with blocks keeps them, so it is not one of those that stand for sets.
    rw [EgressRule.resolveBy, if_neg he] at hempty
    exact absurd hempty he

theorem PolicySpec.current_resolveBy (answers : SelectorKey → List String) (p : Policy) :
    (p.resolveBy answers).spec.Current answers := by
  intro sel hsel name
  rw [PolicySpec.sets_of_resolveBy hsel]

theorem EgressRule.mem_clauseLists_resolveBy {answers : SelectorKey → List String}
    {e : EgressRule} (h : e.destinations.isEmpty →
      ∀ sel ∈ e.selectors, ∀ name, name ∈ sel.sets ↔ name ∈ answers sel.key)
    (clauses : List Clause) :
    clauses ∈ (e.resolveBy answers).clauseLists ↔ clauses ∈ e.clauseLists := by
  by_cases he : e.destinations.isEmpty
  · -- There is one list of clauses for every name, so it is enough to compare the names.
    have hname : ∀ name, name ∈ (e.selectors.map (·.resolveBy answers)).flatMap (·.sets) ↔
        name ∈ e.selectors.flatMap (·.sets) := by
      intro name
      rw [List.flatMap_map, List.mem_flatMap, List.mem_flatMap]
      constructor
      · rintro ⟨sel, hsel, hmem⟩
        exact ⟨sel, hsel, (h he sel hsel name).2 hmem⟩
      · rintro ⟨sel, hsel, hmem⟩
        exact ⟨sel, hsel, (h he sel hsel name).1 hmem⟩
    rw [EgressRule.resolveBy, if_pos he, EgressRule.clauseLists, EgressRule.clauseLists,
      if_pos he, if_pos he, List.mem_map, List.mem_map]
    constructor
    · rintro ⟨name, hmem, rfl⟩
      exact ⟨name, (hname name).1 hmem, rfl⟩
    · rintro ⟨name, hmem, rfl⟩
      exact ⟨name, (hname name).2 hmem, rfl⟩
  · rw [EgressRule.resolveBy, if_neg he]

/-- A policy that carries the present answers gives the same lines as if it were resolved anew. -/
theorem Policy.egressLines_resolveBy {answers : SelectorKey → List String} {p : Policy}
    (h : p.spec.Current answers) : (p.resolveBy answers).egressLines = p.egressLines := by
  -- Lines are sorted and occur once, so that only the rules as a set matter.
  apply sortUnique_congr
  intro line
  rw [List.mem_map, List.mem_map]
  have hrules : ∀ rule, rule ∈ (p.resolveBy answers).egressRules ↔ rule ∈ p.egressRules := by
    intro rule
    simp only [egressRules, resolveBy, List.flatMap_map, List.mem_flatMap,
      EgressRule.ports_resolveBy]
    refine exists_congr fun e => and_congr_right fun he => exists_congr fun clauses => ?_
    rw [EgressRule.mem_clauseLists_resolveBy]
    intro hempty sel hsel
    exact h sel (PolicySpec.mem_resolvedSelectors.2 ⟨e, he, hempty, hsel⟩)
  constructor
  · rintro ⟨rule, hmem, rfl⟩
    exact ⟨rule, (hrules rule).1 hmem, rfl⟩
  · rintro ⟨rule, hmem, rfl⟩
    exact ⟨rule, (hrules rule).2 hmem, rfl⟩

end ClusterFirewall
