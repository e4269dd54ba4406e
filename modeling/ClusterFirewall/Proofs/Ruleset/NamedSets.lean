import ClusterFirewall.Proofs.First
import ClusterFirewall.Proofs.Ruleset.Determinism
import ClusterFirewall.Proofs.Ruleset.Meaning

/-!
# The named sets of a build

The names in the egress rules are answers of the resolver, and the sets to declare are asked for
after all answers were given, so that a name can be gone by then. `Ruleset.Declares` says which sets
a ruleset declares all the same: those of the resolver, of each name the first one, and an empty set
for every other name that was answered.

Main statement: `declares_of_build`, a build declares these sets whatever its resolver says, and
every named set in an egress rule is declared exactly once.
-/

namespace ClusterFirewall

/-- A ruleset has one set for every name that is to be declared or was answered, in the strict order
of the names: the first set of its name that is to be declared, or else an empty one. -/
structure Ruleset.Declares (r : Ruleset) (rendering : List IpSet) (Answered : String → Prop) :
    Prop where
  increasing : r.sets.Pairwise fun s t => s.name < t.name
  names : ∀ name, name ∈ r.sets.map (·.name) ↔ name ∈ rendering.map (·.name) ∨ Answered name
  first : ∀ s ∈ r.sets, s.name ∈ rendering.map (·.name) → IsFirst rendering (·.name = s.name) s
  empty : ∀ s ∈ r.sets, s.name ∉ rendering.map (·.name) → s = ⟨s.name, .ipv4, []⟩

/-- Some policy has an egress rule without blocks and in it a selector that was answered with the
name. -/
def Transcript.Answered (t : Transcript) (policies : List Policy) (name : String) : Prop :=
  ∃ p ∈ policies, ∃ e ∈ p.spec.egress, e.destinations = [] ∧ ∃ s ∈ e.selectors,
    ∃ names, t.answers.lookup s.key = some names ∧ name ∈ names

/-! ## Declared sets -/

section Declared

variable {rendering : List IpSet} {policies : List Policy} {s : IpSet}

theorem count_names_declaredSets {name : String}
    (h : name ∈ (declaredSets rendering policies).map (·.name)) :
    ((declaredSets rendering policies).map (·.name)).count name = 1 :=
  List.count_eq_one_of_mem (nodup_names_declaredSets rendering policies) h

theorem isFirst_of_mem_declaredSets (hs : s ∈ declaredSets rendering policies)
    (hname : s.name ∈ rendering.map (·.name)) : IsFirst rendering (·.name = s.name) s := by
  have hfound := find?_of_mem_declaredSets hs
  obtain ⟨t, ht, heq⟩ := List.mem_map.1 hname
  cases hfind : rendering.find? (·.name == s.name) with
  | none => exact absurd (beq_iff_eq.2 heq) (List.find?_eq_none.1 hfind t ht)
  | some t =>
    -- Nothing was filled in for the name, so the set is the one that is found first.
    rw [hfind, Option.some_or] at hfound
    rw [hfound] at hfind
    exact (find?_eq_some_iff_isFirst fun _ => beq_iff_eq).1 hfind

theorem eq_empty_of_mem_declaredSets (hs : s ∈ declaredSets rendering policies)
    (hname : s.name ∉ rendering.map (·.name)) : s = IpSet.empty s.name := by
  have hfound := find?_of_mem_declaredSets hs
  have hnone : rendering.find? (·.name == s.name) = none :=
    List.find?_eq_none.2 fun t ht heq =>
      hname (List.mem_map.2 ⟨t, ht, beq_iff_eq.1 heq⟩)
  -- What is declared all the same was filled in.
  rw [hnone, Option.none_or] at hfound
  split at hfound
  · exact (Option.some.inj hfound).symm
  · cases hfound

end Declared

/-- A ruleset with the declared sets of policies declares the names that they carry. -/
theorem Ruleset.declares_of_sets {r : Ruleset} {rendering : List IpSet} {policies : List Policy}
    {Answered : String → Prop} (hsets : r.sets = declaredSets rendering policies)
    (hanswered : ∀ name, name ∈ referencedSets policies ↔ Answered name) :
    r.Declares rendering Answered where
  increasing := by
    rw [hsets]
    exact (pairwise_declaredSets rendering policies).imp compareOfLessAndEq_eq_lt.1
  names := fun name => by rw [hsets, mem_names_declaredSets, hanswered]
  first := fun s hs => isFirst_of_mem_declaredSets (hsets ▸ hs)
  empty := fun s hs => eq_empty_of_mem_declaredSets (hsets ▸ hs)

/-! ## Names in rules -/

/-- The rule refers to a named set as the destination. -/
def PortRule.RefersTo (rule : PortRule) (name : String) : Prop :=
  .destinationInSet name ∈ rule.clauses

/-- A clause on a named set stands in a rule of selectors, and one of them carries the name. -/
theorem EgressRule.exists_of_mem_clauseLists {e : EgressRule} {clauses : List Clause}
    (hclauses : clauses ∈ e.clauseLists) {name : String}
    (hname : .destinationInSet name ∈ clauses) :
    e.destinations.isEmpty ∧ ∃ s ∈ e.selectors, name ∈ s.sets := by
  unfold clauseLists at hclauses
  split at hclauses
  · rename_i hempty
    obtain ⟨name', hname', rfl⟩ := List.mem_map.1 hclauses
    obtain ⟨s, hs, hsets⟩ := List.mem_flatMap.1 hname'
    obtain rfl : name = name' := by simpa using hname
    exact ⟨hempty, s, hs, hsets⟩
  · -- The clauses on blocks name no set but the cluster's prefixes, and these for the source.
    obtain rfl := List.mem_singleton.1 hclauses
    have hother : ∀ (clause : List String → Clause) (blocks : List String),
        clause blocks ≠ .destinationInSet name →
          .destinationInSet name ∉ clauseUnlessEmpty clause blocks := by
      intro clause blocks hne hmem
      exact forall_mem_clauseUnlessEmpty (P := (· ≠ .destinationInSet name)).2 (.inr hne) _ hmem rfl
    simp [destinationClauses, hother] at hname

theorem Policy.exists_of_refersTo {p : Policy} {rule : PortRule} (hrule : rule ∈ p.egressRules)
    {name : String} (hname : rule.RefersTo name) :
    ∃ s ∈ p.spec.resolvedSelectors, name ∈ s.sets := by
  obtain ⟨e, he, hlists⟩ := List.mem_flatMap.1 hrule
  obtain ⟨clauses, hclauses, hmem⟩ := List.mem_flatMap.1 hlists
  obtain ⟨protocol, -, -, rfl⟩ := mem_portRules.1 hmem
  obtain ⟨hempty, s, hs, hsets⟩ := EgressRule.exists_of_mem_clauseLists hclauses hname
  exact ⟨s, PolicySpec.mem_resolvedSelectors.2 ⟨e, he, hempty, hs⟩, hsets⟩

/-- The sets that are read off a line as the destination are those that the rule refers to. -/
theorem PortRule.exists_readRule_text {rule : PortRule} (h : rule.Readable) :
    ∃ conditions, readRule rule.text = some conditions ∧
      ∀ name, .member .destination name ∈ conditions ↔ rule.RefersTo name := by
  obtain ⟨conditions, hconditions, hmem⟩ := exists_mapM fun c hc => (h.clauses c hc).networks
  refine ⟨_, readRule_text ⟨fun c hc => (h.clauses c hc).legible, h.ports⟩ hconditions, ?_⟩
  intro name
  have hclause : ∀ c : Clause,
      c.condition? = some (.member .destination name) ↔ c = .destinationInSet name := by
    intro c
    cases c <;> simp [Clause.condition?]
  simp [hmem, hclause, portCondition, RefersTo]

/-! ## Builds -/

section Builds

variable {σ : Type} {r : Resolver σ} {policies : List Policy} {services : List Service}
  {firewall : FirewallSpec} {st : σ} {b : Build}

/-- The sets to declare are asked for once. -/
theorem exists_rendering (hb : (build r policies services firewall st).1 = .ok b) :
    ∃ rendering, (transcriptOf r policies services firewall st).renderings = [rendering] ∧
      b.ruleset.sets = declaredSets rendering b.applied := by
  obtain ⟨rendering, hrendering⟩ := List.length_eq_one_iff.1 (length_renderings hb)
  -- The build is the one with the answers and the sets of the transcript, so it has these sets.
  rw [build_eq_buildBy_of_transcript fun k names => Transcript.first_of_lookup, hrendering] at hb
  obtain ⟨vrf, snat, -, rfl⟩ := buildBy_eq_ok hb
  exact ⟨rendering, hrendering, rfl⟩

/-- The names that the rules of a build refer to are those that were answered. -/
theorem mem_referencedSets_iff (hb : (build r policies services firewall st).1 = .ok b)
    (name : String) : name ∈ referencedSets b.applied ↔
      (transcriptOf r policies services firewall st).Answered b.applied name := by
  have hlookup : ∀ p ∈ b.applied, ∀ s ∈ p.spec.resolvedSelectors,
      (transcriptOf r policies services firewall st).answers.lookup s.key = some s.sets :=
    fun p hp s hs => lookup_of_mem_policies hb (List.mem_append_left _ hp) hs
  rw [mem_referencedSets]
  constructor
  · rintro ⟨p, hp, s, hs, hname⟩
    obtain ⟨e, he, hempty, hmem⟩ := PolicySpec.mem_resolvedSelectors.1 hs
    exact ⟨p, hp, e, he, List.isEmpty_iff.1 hempty, s, hmem, s.sets, hlookup p hp s hs, hname⟩
  · rintro ⟨p, hp, e, he, hempty, s, hmem, names, hnames, hname⟩
    have hs := PolicySpec.mem_resolvedSelectors.2 ⟨e, he, List.isEmpty_iff.2 hempty, hmem⟩
    -- The selector carries what was answered.
    obtain rfl := Option.some.inj ((hlookup p hp s hs).symm.trans hnames)
    exact ⟨p, hp, s, hs, hname⟩

/-- A build declares the sets that were to be declared when its resolver was asked for them, and an
empty set for every other name that a policy in force was answered with. Every egress rule refers to
sets that are declared exactly once, and if no answered name has a blank in it, so one can read off
the lines of the chain. -/
theorem declares_of_build (r : Resolver σ) (policies : List Policy) (services : List Service)
    (firewall : FirewallSpec) (st : σ) :
    let run := build r.transcribed policies services firewall (st, .blank)
    let t := run.2.2
    (run.1, run.2.1) = build r policies services firewall st ∧
      ∀ b, (build r policies services firewall st).1 = .ok b →
        let declared := b.ruleset.sets.map (·.name)
        (∃ rendering, t.renderings = [rendering] ∧
          b.ruleset.Declares rendering (t.Answered b.applied)) ∧
        (∀ line, line ∈ b.ruleset.egress ↔
          ∃ p ∈ b.applied, ∃ rule ∈ p.egressRules, line = rule.text) ∧
        (∀ p ∈ b.applied, ∀ rule ∈ p.egressRules, ∀ name, rule.RefersTo name →
          declared.count name = 1) ∧
        ((∀ k names, t.answers.lookup k = some names → ∀ name ∈ names, Text.HasNoBlank name) →
          ∀ line ∈ b.ruleset.egress, ∃ conditions, readRule line = some conditions ∧
            ∀ name, .member .destination name ∈ conditions → declared.count name = 1) := by
  intro run t
  obtain ⟨hrun, hstate⟩ := build_transcribed r policies services firewall st .blank
  refine ⟨Prod.ext hrun hstate, ?_⟩
  intro b hb declared
  have hof := build_of (Prod.ext hb rfl)
  obtain ⟨rendering, hrendering, hsets⟩ := exists_rendering hb
  have hlines : ∀ line, line ∈ b.ruleset.egress ↔
      ∃ p ∈ b.applied, ∃ rule ∈ p.egressRules, line = rule.text := by
    intro line
    simp only [hof.egress, Policy.egressLines, ruleLines, mem_sortUnique, List.mem_map, eq_comm]
  have hcount : ∀ p ∈ b.applied, ∀ rule ∈ p.egressRules, ∀ name, rule.RefersTo name →
      declared.count name = 1 := by
    intro p hp rule hrule name hname
    simp only [declared, hsets]
    exact count_names_declaredSets (mem_names_declaredSets.2
      (.inr (mem_referencedSets.2 ⟨p, hp, Policy.exists_of_refersTo hrule hname⟩)))
  refine ⟨⟨rendering, hrendering, Ruleset.declares_of_sets hsets (mem_referencedSets_iff hb)⟩,
    hlines, hcount, ?_⟩
  intro hblank line hline
  obtain ⟨p, hp, rule, hrule, rfl⟩ := (hlines line).1 hline
  -- The blocks of a policy in force are networks, and its sets are answers.
  have hreadable := Policy.readable_egressRules (hof.of_mem_applied hp).1
    (fun s hs => hblank s.key s.sets
      (lookup_of_mem_policies hb (List.mem_append_left _ hp) hs)) rule hrule
  obtain ⟨conditions, hread, hmember⟩ := rule.exists_readRule_text hreadable
  exact ⟨conditions, hread, fun name hname => hcount p hp rule hrule name ((hmember name).1 hname)⟩

/-- A resolver that drops a set between its answer and the sets to declare, and that has another one
twice. -/
theorem declares_of_build_of_dropped_set :
    let kept : IpSet := ⟨"kept", .ipv6, ["2001:db8::7"]⟩
    let rendering : List IpSet := [⟨"other", .ipv4, []⟩, kept, ⟨"kept", .ipv4, []⟩]
    let r : Resolver Nat :=
      ⟨fun _ _ n => (["kept", "gone" ++ toString n], n + 1), fun n => (rendering, n)⟩
    let dns : PolicySpec := ⟨[], [⟨[], [.ofName "example.com"], [.single .udp 53]⟩]⟩
    let policies : List Policy := [⟨"default", "foreign", dns⟩, .named "dns" dns,
      .named "mixed" ⟨[], [⟨[⟨"10.0.0.0/8", []⟩], [.ofPattern "*.org"], [.single .tcp 443]⟩]⟩]
    let firewall : FirewallSpec := ⟨[], [⟨"tenant", .privatePrimary, some 42, []⟩], [], []⟩
    ∃ b, (build r policies [] firewall 0).1 = .ok b ∧ b.applied.length = 2 ∧
      b.ruleset.sets = [⟨"gone0", .ipv4, []⟩, kept, ⟨"other", .ipv4, []⟩] ∧
      (∀ name ∈ ["gone0", "kept"], ∃ p ∈ b.applied, ∃ rule ∈ p.egressRules, rule.RefersTo name) ∧
      (∃ t : Transcript, t.renderings = [rendering] ∧
        b.ruleset.Declares rendering (t.Answered b.applied)) ∧
      ∀ p ∈ b.applied, ∀ rule ∈ p.egressRules, ∀ name, rule.RefersTo name →
        (b.ruleset.sets.map (·.name)).count name = 1 := by
  intro kept rendering r dns policies firewall
  obtain ⟨b, hb⟩ : ∃ b, (build r policies [] firewall 0).1 = .ok b := ⟨_, rfl⟩
  obtain ⟨⟨rendering', hrendering, hdeclares⟩, -, hcount, -⟩ :=
    (declares_of_build r policies [] firewall 0).2 b hb
  have hasked : (build r.transcribed policies [] firewall (0, .blank)).2.2.renderings =
      [rendering] := rfl
  obtain rfl : rendering = rendering' :=
    List.singleton_inj.1 (hasked.symm.trans hrendering)
  have hfacts : b.applied.length = 2 ∧
      b.ruleset.sets = [⟨"gone0", .ipv4, []⟩, kept, ⟨"other", .ipv4, []⟩] ∧
      ∀ name ∈ ["gone0", "kept"], ∃ p ∈ b.applied, ∃ rule ∈ p.egressRules,
        .destinationInSet name ∈ rule.clauses := by
    obtain rfl := Except.ok.inj hb
    decide +kernel
  exact ⟨b, hb, hfacts.1, hfacts.2.1, hfacts.2.2, ⟨_, hrendering, hdeclares⟩, hcount⟩

end Builds

end ClusterFirewall
