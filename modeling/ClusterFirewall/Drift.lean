import ClusterFirewall.Resolution.Basic
import ClusterFirewall.Snapshot

/-!
# Drift

The loaded ruleset is stale if a policy has no snapshot or differs from it, or if a selector of a
snapshot resolves to other sets than were recorded. Policies are compared without the sets of their
selectors, and sets by their names alone, whatever their order.
-/

namespace ClusterFirewall

/-- Why the loaded ruleset is stale. -/
inductive Drift where
  /-- The policy has no snapshot. -/
  | newPolicy (key : PolicyKey)
  /-- The policy differs from its snapshot. -/
  | specChanged (key : PolicyKey)
  /-- A selector of the snapshot resolves to other sets. -/
  | setsChanged (key : PolicyKey) (selector : String)
  deriving DecidableEq, Repr

/-- The wording of a drift. -/
def Drift.text : Drift → String
  | .newPolicy key => s!"policy {key.text} has not been applied yet"
  | .specChanged key => s!"spec of policy {key.text} changed"
  | .setsChanged key selector => s!"sets of selector {selector} in policy {key.text} changed"

/-! ## Comparisons -/

/-- Whether two lists have one length and their elements pass a test, index by index. -/
def sameByIndex {α : Type} (same : α → α → Bool) (xs ys : List α) : Bool :=
  xs.length == ys.length && (xs.zip ys).all fun e => same e.1 e.2

theorem sameByIndex_iff {α β : Type} {same : α → α → Bool} {f : α → β}
    (h : ∀ a b, same a b ↔ f a = f b) {xs ys : List α} :
    sameByIndex same xs ys ↔ xs.map f = ys.map f := by
  induction xs generalizing ys with
  | nil => cases ys <;> simp [sameByIndex]
  | cons a rest ih =>
    cases ys with
    | nil => simp [sameByIndex]
    | cons b rest' =>
      have hrest := @ih rest'
      simp only [sameByIndex, Bool.and_eq_true, beq_iff_eq] at hrest
      simp only [sameByIndex, List.length_cons, List.zip_cons_cons, List.all_cons, List.map_cons,
        Bool.and_eq_true, beq_iff_eq, Nat.add_right_cancel_iff, List.cons.injEq, ← hrest, ← h a b]
      exact and_left_comm

/-- Whether two rules are the same but for the sets of their selectors. -/
def EgressRule.sameButSets (e applied : EgressRule) : Bool :=
  e.ports == applied.ports && e.destinations == applied.destinations &&
    sameByIndex Selector.sameSelection e.selectors applied.selectors

/-- Whether two policies allow the same but for the sets of their selectors. -/
def PolicySpec.sameButSets (s applied : PolicySpec) : Bool :=
  s.ingress == applied.ingress && sameByIndex EgressRule.sameButSets s.egress applied.egress

/-- A rule with the sets of its selectors left out. -/
def EgressRule.withoutSets (e : EgressRule) : EgressRule :=
  { e with selectors := e.selectors.map fun s => { s with sets := [] } }

/-- What a policy allows, with the sets of its selectors left out. -/
def PolicySpec.withoutSets (s : PolicySpec) : PolicySpec :=
  { s with egress := s.egress.map EgressRule.withoutSets }

theorem Selector.sameSelection_iff (s t : Selector) :
    s.sameSelection t ↔ ({ s with sets := [] } : Selector) = { t with sets := [] } := by
  simp [sameSelection]

theorem EgressRule.sameButSets_iff (e applied : EgressRule) :
    e.sameButSets applied ↔ e.withoutSets = applied.withoutSets := by
  simp only [sameButSets, withoutSets, Bool.and_eq_true, beq_iff_eq,
    sameByIndex_iff Selector.sameSelection_iff, EgressRule.mk.injEq]
  exact ⟨fun ⟨⟨hports, hblocks⟩, hselectors⟩ => ⟨hblocks, hselectors, hports⟩,
    fun ⟨hblocks, hselectors, hports⟩ => ⟨⟨hports, hblocks⟩, hselectors⟩⟩

/-- Comparing field by field and index by index is comparing what is left without the sets. -/
theorem PolicySpec.sameButSets_iff (s applied : PolicySpec) :
    s.sameButSets applied ↔ s.withoutSets = applied.withoutSets := by
  simp only [sameButSets, withoutSets, Bool.and_eq_true, beq_iff_eq,
    sameByIndex_iff EgressRule.sameButSets_iff, PolicySpec.mk.injEq]

/-- Whether two lists hold the same elements, whatever their order. -/
def sameElements (xs ys : List String) : Bool :=
  xs.all (fun x => ys.contains x) && ys.all fun y => xs.contains y

theorem sameElements_iff {xs ys : List String} :
    sameElements xs ys ↔ ∀ x, x ∈ xs ↔ x ∈ ys := by
  simp [sameElements, iff_def, forall_and]

/-! ## Detection -/

/-- How a policy differs from its snapshot. -/
def policyDrift? (store : SnapshotStore) (p : Policy) : Option Drift :=
  match store.get? p.key with
  | none => some (.newPolicy p.key)
  | some applied =>
    if p.spec.sameButSets applied then none else some (.specChanged p.key)

/-- The first policy that differs from its snapshot. -/
def specDrift (policies : List Policy) (store : SnapshotStore) : Option Drift :=
  policies.findSome? (policyDrift? store)

/-- The selectors of a snapshot that stand for sets. -/
def PolicySpec.resolvedSelectors (s : PolicySpec) : List Selector :=
  (s.egress.filter fun e => e.destinations.isEmpty).flatMap (·.selectors)

/-- All recorded selectors with the keys of their policies. -/
def SnapshotStore.selectors (store : SnapshotStore) : List (PolicyKey × Selector) :=
  store.entries.flatMap fun e => e.2.resolvedSelectors.map fun s => (e.1, s)

/-- The first of some selectors that resolves to other sets than it carries. -/
def firstResolutionDrift {σ : Type} (r : Resolver σ) :
    List (PolicyKey × Selector) → σ → Option Drift × σ
  | [], st => (none, st)
  | (key, s) :: rest, st =>
    let (current, st) := r.answer s false st
    if sameElements s.sets current then firstResolutionDrift r rest st
    else (some (.setsChanged key s.key.text), st)

/-- The first recorded selector that resolves to other sets now. -/
def resolutionDrift {σ : Type} (r : Resolver σ) (store : SnapshotStore) (st : σ) :
    Option Drift × σ :=
  firstResolutionDrift r store.selectors st

/-- The first reason why the loaded ruleset is stale. -/
def detect {σ : Type} (r : Resolver σ) (policies : List Policy) (store : SnapshotStore) (st : σ) :
    Option Drift × σ :=
  match specDrift policies store with
  | some drift => (some drift, st)
  | none => resolutionDrift r store st

end ClusterFirewall
