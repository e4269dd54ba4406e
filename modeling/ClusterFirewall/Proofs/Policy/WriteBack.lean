import ClusterFirewall.Proofs.Drift.Soundness

/-!
# What compilation writes back

A policy comes out of compilation with the sets that its rules refer to, and it is this policy that
snapshots are taken of and compared with. `Policy.withoutAnswers` is what a policy says apart from
the sets that compilation writes: only those in rules without blocks, so that a selector beside
blocks keeps whatever sets it has.

Main statement: `Policy.compile_writes_back`, compilation with a steady resolver writes its answers
there and nothing anywhere else, whatever sets the policy came with, and compiling the outcome once
more changes nothing.
-/

namespace ClusterFirewall

/-- An egress rule with the sets left out that its selectors get from a resolver. -/
def EgressRule.withoutAnswers (e : EgressRule) : EgressRule :=
  if e.destinations.isEmpty then e.withoutSets else e

/-- A policy with the sets left out that its selectors get from a resolver. -/
def Policy.withoutAnswers (p : Policy) : Policy :=
  { p with spec := { p.spec with egress := p.spec.egress.map (·.withoutAnswers) } }

theorem Policy.key_withoutAnswers (p : Policy) : p.withoutAnswers.key = p.key := rfl

/-! ## The frame of resolution -/

theorem EgressRule.withoutAnswers_resolve {σ : Type} (r : Resolver σ) (e : EgressRule) (st : σ) :
    (e.resolve r st).1.withoutAnswers = e.withoutAnswers := by
  by_cases he : e.destinations.isEmpty
  · have hempty : (e.resolve r st).1.destinations.isEmpty := by
      rw [EgressRule.resolve, if_pos he]
      exact he
    rw [EgressRule.withoutAnswers, if_pos hempty, EgressRule.withoutAnswers, if_pos he]
    exact e.withoutSets_resolve r st
  · rw [EgressRule.resolve, if_neg he]

/-- Whatever a resolver says, resolving a policy changes nothing but the sets of selectors in rules
without blocks. -/
theorem Policy.withoutAnswers_resolve {σ : Type} (r : Resolver σ) (p : Policy) (st : σ) :
    (p.resolve r st).1.withoutAnswers = p.withoutAnswers := by
  have hrules := map_traverse (f := EgressRule.resolve r)
    (fun e st => e.withoutAnswers_resolve r st) p.spec.egress st
  exact congrArg (fun l => { p with spec := { p.spec with egress := l } }) hrules

/-! ## Policies that differ in such sets -/

theorem EgressRule.resolveBy_withoutAnswers (answers : SelectorKey → List String) (e : EgressRule) :
    e.withoutAnswers.resolveBy answers = e.resolveBy answers := by
  unfold EgressRule.withoutAnswers
  split
  · rename_i he
    exact EgressRule.resolveBy_withoutSets answers he
  · rfl

theorem EgressRule.withoutSets_withoutAnswers (e : EgressRule) :
    e.withoutAnswers.withoutSets = e.withoutSets := by
  unfold EgressRule.withoutAnswers
  split
  · simp [EgressRule.withoutSets]
  · rfl

namespace Policy

variable {p q : Policy}

/-- With known answers, the sets that they replace do not matter. -/
theorem resolveBy_of_withoutAnswers (answers : SelectorKey → List String)
    (h : p.withoutAnswers = q.withoutAnswers) : p.resolveBy answers = q.resolveBy answers := by
  have hself : ∀ p : Policy, p.withoutAnswers.resolveBy answers = p.resolveBy answers := by
    intro p
    simp only [resolveBy, withoutAnswers, List.map_map, Function.comp_def,
      EgressRule.resolveBy_withoutAnswers]
  rw [← hself p, ← hself q, h]

theorem withoutSets_of_withoutAnswers (h : p.withoutAnswers = q.withoutAnswers) :
    p.withoutSets = q.withoutSets := by
  have hself : ∀ p : Policy, p.withoutAnswers.withoutSets = p.withoutSets := by
    intro p
    simp only [withoutSets, PolicySpec.withoutSets, withoutAnswers, List.map_map,
      Function.comp_def, EgressRule.withoutSets_withoutAnswers]
  rw [← hself p, ← hself q, h]

/-! ## Compilation -/

variable {σ : Type} {r : Resolver σ} {answers : SelectorKey → List String} {st st' st'' : σ}

theorem compile_of_withoutAnswers (h : r.Steady answers st)
    (hw : p.withoutAnswers = q.withoutAnswers) (hr : r.Reaches st st') (hr' : r.Reaches st st'') :
    (p.compile r st').1 = (q.compile r st'').1 := by
  rw [h.compile_eq p hr, h.compile_eq q hr', resolveBy_of_withoutAnswers answers hw,
    ingressLines_of_withoutSets (withoutSets_of_withoutAnswers hw)]

/-- A policy comes out of compilation as it was, but that every selector in a rule without blocks
has the answer of its key. All policies that differ only there compile to the same, so that it
does not change any more when it is compiled again, and sets that a policy came with do not get into
its rules, wherever they stand. -/
theorem compile_writes_back (h : r.Steady answers st) (p : Policy) (hr : r.Reaches st st')
    (hr' : r.Reaches st st'') :
    let c := (p.compile r st').1
    c.policy.withoutAnswers = p.withoutAnswers ∧
      (∀ e ∈ c.policy.spec.egress, e.destinations = [] → ∀ s ∈ e.selectors,
        s.sets = answers s.key) ∧
      (c.policy.compile r st'').1 = c ∧
      (∀ q : Policy, q.withoutAnswers = p.withoutAnswers → (q.compile r st'').1 = c) ∧
      ∀ q : Policy, q.withoutSets = p.withoutSets →
        (q.compile r st'').1.ingress = c.ingress ∧ (q.compile r st'').1.egress = c.egress := by
  intro c
  have hframe : c.policy.withoutAnswers = p.withoutAnswers := p.withoutAnswers_resolve r st'
  have hpolicy : c.policy = p.resolveBy answers := congrArg (·.policy) (h.compile_eq p hr)
  refine ⟨hframe, ?answered, compile_of_withoutAnswers h hframe hr' hr,
    fun q hq => compile_of_withoutAnswers h hq hr' hr, ?rules⟩
  case answered =>
    intro e he hempty s hs
    rw [hpolicy] at he
    exact PolicySpec.sets_of_resolveBy
      (PolicySpec.mem_resolvedSelectors.2 ⟨e, he, List.isEmpty_iff.2 hempty, hs⟩)
  case rules =>
    intro q hq
    obtain ⟨hingress, hegress⟩ := compile_of_withoutSets h hq hr'
    -- The resolver answers the same in both states.
    have hsame : (p.compile r st'').1 = c := compile_of_withoutAnswers h rfl hr' hr
    rw [hingress, hegress, hsame]
    exact ⟨rfl, rfl⟩

/-- A policy that is not at home, with sets that are out of date in a rule with blocks and in one
without. -/
theorem compile_writes_back_of_stale :
    let r : Resolver Unit :=
      .fixed (fun k => if k.matchName = "example.com" then ["example"] else []) []
    let https : List PolicyPort := [.single .tcp 443]
    let beside : EgressRule :=
      ⟨[⟨"10.0.0.0/8", []⟩], [⟨"example.com", "", ["beside"]⟩], https⟩
    let p : Policy := ⟨"default", "dns", ⟨[],
      [beside, ⟨[], [⟨"example.com", "", ["stale"]⟩, ⟨"gone.example", "", ["old"]⟩], https⟩]⟩⟩
    let c := (p.compile r ()).1
    ¬ p.isValid ∧
      c.policy.spec.egress =
        [beside, ⟨[], [⟨"example.com", "", ["example"]⟩, ⟨"gone.example", "", []⟩], https⟩] ∧
      c.policy.withoutAnswers = p.withoutAnswers ∧ (c.policy.compile r ()).1 = c := by
  intro r https beside p c
  obtain ⟨hframe, -, hagain, -⟩ :=
    compile_writes_back (Resolver.fixed_steady _ [] ()) p .refl .refl
  exact ⟨by decide +kernel, by decide +kernel, hframe, hagain⟩

end Policy

end ClusterFirewall
