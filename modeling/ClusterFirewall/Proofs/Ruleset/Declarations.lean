import ClusterFirewall.Proofs.Ruleset.NamedSets
import ClusterFirewall.Proofs.Ruleset.References
import Mathlib.Data.List.Count

/-!
# What is used is declared

The lines of a ruleset come from policies, services, rate limits and source addresses. As long as
all texts in them are plain, a line uses the sets of its clauses, the set of the cluster's prefixes
or the counter of the rate limits, and the forward chain uses the two chains for both directions.

Main statement: `declared_of_used`, every chain and every set that is used is declared once, but the
counter of the rate limits nowhere, and the set of the cluster's prefixes twice if the resolver has
a set of that name too.
-/

namespace ClusterFirewall

/-! ## Plain input -/

/-- A resolver all of whose sets are plain. -/
structure Resolver.Plain {σ : Type} (r : Resolver σ) : Prop where
  answer : ∀ s create st, ∀ name ∈ (r.answer s create st).1, IsName name
  rendering : ∀ st, ∀ s ∈ (r.rendering st).1, s.Plain

/-- A service whose addresses are written like addresses and whose names do not break a comment. -/
structure Service.Plain (s : Service) : Prop where
  ingressIps : ∀ ip ∈ s.ingressIps, IsAddressText ip
  sourceRanges : ∀ range ∈ s.sourceRanges, IsAddressText range
  space : Inline s.space
  name : Inline s.name

structure EgressSnat.Plain (e : EgressSnat) : Prop where
  ips : ∀ ip ∈ e.ips, IsAddressText ip
  networkId : Inline e.networkId

/-- Of the policies only the names of the valid ones need to be plain. -/
structure ClusterState.Plain (c : ClusterState) : Prop where
  names : ∀ p ∈ c.policies, p.isValid → Inline p.name
  services : ∀ s ∈ c.services, s.Plain
  prefixes : ∀ p ∈ c.firewall.internalPrefixes, IsAddressText p
  egressSnat : ∀ e ∈ c.firewall.egressSnat, e.Plain

/-! ## Counting declarations -/

namespace Ruleset

/-- The objects that a ruleset declares. -/
def objects (r : Ruleset) : List TableObject :=
  (clusterPrefixes :: r.sets.map (·.name)).map (TableObject.mk .set) ++
    ["forward", "forward_ingress", "forward_egress", "postrouting"].map (TableObject.mk .chain)

/-- The lines of a ruleset that are not the same in all rulesets. -/
def ownLines (r : Ruleset) : List String := r.rateLimits ++ r.ingress ++ r.egress ++ r.snat

theorem count_objects (kind : ObjectKind) (name : String) (names : List String) :
    (names.map (TableObject.mk kind)).count ⟨kind, name⟩ = names.count name :=
  List.count_map_of_injective _ _ (fun _ _ h => (TableObject.mk.inj h).2) _

theorem count_objects_of_ne {kind kind' : ObjectKind} (hne : kind ≠ kind') (name : String)
    (names : List String) : (names.map (TableObject.mk kind')).count ⟨kind, name⟩ = 0 := by
  rw [List.count_eq_zero]
  simp [hne.symm]

variable {r : Ruleset}

/-- If the lines only use objects, then the declarations are those of the ruleset's objects. -/
theorem count_declares (hprefixes : ∀ p ∈ r.internalPrefixes, IsAddressText p)
    (hsets : ∀ s ∈ r.sets, s.Plain)
    (hlines : ∀ line ∈ r.ownLines, ∀ m ∈ mentions (indented line), ∃ o, m = .uses o)
    (o : TableObject) : (mentions r.text).count (.declares o) = r.objects.count o := by
  -- The lines declare nothing, so only the objects between them are counted.
  have hnone : ∀ lines : List String, lines ⊆ r.ownLines →
      (lines.flatMap fun line => mentions (indented line)).count (.declares o) = 0 := by
    intro lines hsub
    rw [List.count_eq_zero]
    intro hmem
    obtain ⟨line, hline, hm⟩ := List.mem_flatMap.1 hmem
    obtain ⟨o', ho'⟩ := hlines line (hsub hline) _ hm
    cases ho'
  have hinjective : Function.Injective Mention.declares := fun _ _ h => Mention.declares.inj h
  have hdeclared : (r.sets.map fun s => Mention.declares ⟨.set, s.name⟩).count (.declares o) =
      ((r.sets.map (·.name)).map (TableObject.mk .set)).count o := by
    rw [← List.count_map_of_injective _ _ hinjective, List.map_map, List.map_map]
    rfl
  have hsub : r.rateLimits ⊆ r.ownLines ∧ r.ingress ⊆ r.ownLines ∧ r.egress ⊆ r.ownLines ∧
      r.snat ⊆ r.ownLines := by
    simp only [List.subset_def, ownLines, List.mem_append]
    tauto
  rw [mentions_text hprefixes hsets]
  simp only [objects, List.count_append, List.count_cons, List.count_nil, List.map_cons,
    List.map_nil, hnone _ hsub.1, hnone _ hsub.2.1, hnone _ hsub.2.2.1, hnone _ hsub.2.2.2,
    hdeclared]
  simp
  omega

end Ruleset

/-! ## Lines -/

theorem sets_of_mem_clauseUnlessEmpty {clause : List String → Clause}
    (hclause : ∀ blocks, (clause blocks).sets = []) {blocks : List String} :
    ∀ c ∈ clauseUnlessEmpty clause blocks, c.sets = [] := by
  rw [forall_mem_clauseUnlessEmpty]
  exact .inr (hclause blocks)

theorem IngressRule.sets_clauses (e : IngressRule) : ∀ c ∈ e.clauses, c.sets = [] := by
  intro c hc
  rcases List.mem_append.1 hc with hc | hc
  · exact sets_of_mem_clauseUnlessEmpty (fun _ => rfl) c hc
  · exact sets_of_mem_clauseUnlessEmpty (fun _ => rfl) c hc

theorem Policy.sets_of_mem_ingressRules {p : Policy} {rule : PortRule}
    (hrule : rule ∈ p.ingressRules) : rule.sets = [] := by
  obtain ⟨e, -, hmem⟩ := List.mem_flatMap.1 hrule
  obtain ⟨protocol, -, -, rfl⟩ := mem_portRules.1 hmem
  exact List.flatMap_eq_nil_iff.2 e.sets_clauses

/-- The rules for traffic that may leave refer to the sets that the policy carries, and to the
cluster's prefixes. -/
theorem Policy.of_mem_egressRules {p : Policy} {rule : PortRule} (hrule : rule ∈ p.egressRules)
    {name : String} (hname : name ∈ rule.sets) :
    name = clusterPrefixes ∨ ∃ s ∈ p.spec.resolvedSelectors, name ∈ s.sets := by
  obtain ⟨c, hc, hset⟩ := List.mem_flatMap.1 hname
  cases c with
  | sourceInCluster => exact .inl (List.mem_singleton.1 hset)
  | destinationInSet name' =>
    obtain rfl := List.mem_singleton.1 hset
    exact .inr (Policy.exists_of_refersTo hrule hc)
  | sourceIn | sourceNotIn | destinationIn | destinationNotIn => cases hset

theorem Policy.Names.inline {p : Policy} {comment : String} (h : p.Names comment)
    (hname : Inline p.name) : Inline comment := by
  obtain ⟨before, after, rfl, hbefore, hafter⟩ := h
  exact (hbefore.append hname).append hafter

theorem Service.of_mem_rules {s : Service} {rule : PortRule} (hrule : rule ∈ s.rules) :
    rule.clauses = s.clauses ∧
      rule.comment = "accept traffic for k8s service " ++ s.space ++ "/" ++ s.name := by
  unfold rules at hrule
  split at hrule
  · cases hrule
  · obtain ⟨protocol, -, hsome⟩ := List.mem_filterMap.1 hrule
    unfold portRule? at hsome
    dsimp only at hsome
    split at hsome
    · cases hsome
    · obtain rfl := Option.some.inj hsome
      exact ⟨rfl, rfl⟩

/-- The line of a service uses nothing. -/
theorem Service.mentions_of_mem_ruleTexts {s : Service} (h : s.Plain) {line : String}
    (hline : line ∈ s.ruleTexts) : mentions (Ruleset.indented line) = [] := by
  obtain ⟨rule, hrule, rfl⟩ := List.mem_map.1 hline
  obtain ⟨hclauses, hcomment⟩ := of_mem_rules hrule
  have hplain : ∀ c ∈ rule.clauses, c.Plain ∧ c.sets = [] := by
    intro c hc
    rw [hclauses] at hc
    rcases List.mem_append.1 hc with hc | hc
    · split at hc
      · cases hc
      · obtain rfl := List.mem_singleton.1 hc
        exact ⟨h.sourceRanges, rfl⟩
    · obtain rfl := List.mem_singleton.1 hc
      exact ⟨h.ingressIps, rfl⟩
  have hinline : Inline rule.comment := by
    rw [hcomment]
    exact Inline.append (Inline.append (Inline.append (by decide) h.space) (by decide)) h.name
  have hsets : rule.sets = [] := List.flatMap_eq_nil_iff.2 fun c hc => (hplain c hc).2
  rw [PortRule.mentions_text (fun c hc => (hplain c hc).1) hinline, hsets]
  rfl

theorem exists_of_mem_snatLinesOf {f : FirewallSpec} {snats : List EgressSnat}
    {lines : List String} (h : snatLinesOf f snats = .ok lines) {line : String}
    (hline : line ∈ lines) : ∃ e ∈ snats, ∃ vrf target, snatTarget? e.ips = some target ∧
      line = snatLine vrf target e.networkId := by
  induction snats generalizing lines with
  | nil =>
    obtain rfl := Except.ok.inj h
    cases hline
  | cons e rest ih =>
    obtain ⟨vrf, more, -, hmore, rfl⟩ := exists_of_snatLinesOf_cons h
    rcases List.mem_append.1 hline with hline | hline
    · obtain ⟨target, htarget, rfl⟩ := List.mem_map.1 hline
      exact ⟨e, List.mem_cons_self, vrf, target, by simpa using htarget, rfl⟩
    · obtain ⟨e', he', hrest⟩ := ih hmore hline
      exact ⟨e', List.mem_cons_of_mem _ he', hrest⟩

theorem FirewallSpec.mem_rateLimitLines {f : FirewallSpec} {line : String} :
    line ∈ f.rateLimitLines ↔ ∃ limit ∈ f.rateLimits, ∃ vrf, f.vrf? limit.networkId = some vrf ∧
      line = rateLimitLine vrf limit.rate := by
  simp only [rateLimitLines, List.mem_filterMap, Option.map_eq_some_iff, @eq_comm _ _ line]

theorem FirewallSpec.rateLimitLines_ne_nil_iff (f : FirewallSpec) :
    f.rateLimitLines ≠ [] ↔ ∃ limit ∈ f.rateLimits, (f.vrf? limit.networkId).isSome := by
  simp [rateLimitLines, Option.isSome_iff_ne_none]

/-! ## Rulesets -/

/-- What the lines of a ruleset mention, if all texts in it are plain. -/
structure Ruleset.Written (r : Ruleset) : Prop where
  prefixes : ∀ p ∈ r.internalPrefixes, IsAddressText p
  sets : ∀ s ∈ r.sets, s.Plain
  names_nodup : (r.sets.map (·.name)).Nodup
  rateLimits : ∀ line ∈ r.rateLimits,
    mentions (indented line) = [.uses ⟨.counter, "drop_ratelimit"⟩]
  ingress : ∀ line ∈ r.ingress, mentions (indented line) = []
  egress : ∀ line ∈ r.egress, ∃ names ⊆ clusterPrefixes :: r.sets.map (·.name),
    mentions (indented line) = names.map fun name => .uses ⟨.set, name⟩
  snat : ∀ line ∈ r.snat, mentions (indented line) = [.uses ⟨.set, clusterPrefixes⟩]

namespace Ruleset.Written

variable {r : Ruleset}

/-- A ruleset uses the two chains of the forward chain and what its lines use. -/
theorem mem_uses_iff (h : r.Written) (o : TableObject) : .uses o ∈ mentions r.text ↔
    o ∈ [⟨.chain, "forward_egress"⟩, ⟨.chain, "forward_ingress"⟩] ∨
      (o = ⟨.counter, "drop_ratelimit"⟩ ∧ r.rateLimits ≠ []) ∨
      (∃ line ∈ r.egress, .uses o ∈ mentions (indented line)) ∨
      (o = ⟨.set, clusterPrefixes⟩ ∧ r.snat ≠ []) := by
  -- Where all lines use the same object, it is used as soon as there is a line.
  have hsame : ∀ {lines : List String} {o' : TableObject},
      (∀ line ∈ lines, mentions (indented line) = [.uses o']) →
      ((∃ line ∈ lines, .uses o ∈ mentions (indented line)) ↔ o = o' ∧ lines ≠ []) := by
    intro lines o' hlines
    constructor
    · rintro ⟨line, hline, hm⟩
      rw [hlines line hline] at hm
      exact ⟨by simpa using hm, List.ne_nil_of_mem hline⟩
    · rintro ⟨rfl, hne⟩
      obtain ⟨line, hline⟩ := List.exists_mem_of_ne_nil _ hne
      exact ⟨line, hline, by simp [hlines line hline]⟩
  have hingress : ¬ ∃ line ∈ r.ingress, .uses o ∈ mentions (indented line) := by
    rintro ⟨line, hline, hm⟩
    rw [h.ingress line hline] at hm
    cases hm
  rw [mentions_text h.prefixes h.sets, ← hsame h.rateLimits, ← hsame h.snat]
  simp only [List.mem_append, List.mem_cons, List.mem_map, List.mem_flatMap, List.not_mem_nil,
    reduceCtorEq, Mention.uses.injEq, and_false, exists_false, false_or, or_false, hingress,
    or_assoc, or_left_comm]

theorem count_declares_eq (h : r.Written) (o : TableObject) :
    (mentions r.text).count (.declares o) = r.objects.count o := by
  apply count_declares h.prefixes h.sets
  intro line hline m hm
  simp only [ownLines, List.mem_append] at hline
  rcases hline with ((hline | hline) | hline) | hline
  · rw [h.rateLimits line hline, List.mem_singleton] at hm
    exact ⟨_, hm⟩
  · rw [h.ingress line hline] at hm
    cases hm
  · obtain ⟨names, -, hnames⟩ := h.egress line hline
    rw [hnames] at hm
    obtain ⟨name, -, rfl⟩ := List.mem_map.1 hm
    exact ⟨_, rfl⟩
  · rw [h.snat line hline, List.mem_singleton] at hm
    exact ⟨_, hm⟩

theorem count_set (h : r.Written) (name : String) :
    (mentions r.text).count (.declares ⟨.set, name⟩) =
      (if name ∈ r.sets.map (·.name) then 1 else 0) +
        if clusterPrefixes = name then 1 else 0 := by
  have hnames : (r.sets.map (·.name)).count name =
      if name ∈ r.sets.map (·.name) then 1 else 0 := by
    split
    · rename_i hmem
      exact List.count_eq_one_of_mem h.names_nodup hmem
    · rename_i hmem
      exact List.count_eq_zero.2 hmem
  rw [h.count_declares_eq, objects, List.count_append, count_objects,
    count_objects_of_ne (by decide), List.count_cons, hnames, Nat.add_zero]
  simp only [beq_iff_eq]

theorem count_chain (h : r.Written) {name : String}
    (hname : name ∈ ["forward_egress", "forward_ingress"]) :
    (mentions r.text).count (.declares ⟨.chain, name⟩) = 1 := by
  have hchains : ∀ name ∈ ["forward_egress", "forward_ingress"],
      ["forward", "forward_ingress", "forward_egress", "postrouting"].count name = 1 := by decide
  rw [h.count_declares_eq, objects, List.count_append, count_objects,
    count_objects_of_ne (by decide), hchains name hname]

theorem count_counter (h : r.Written) (name : String) :
    (mentions r.text).count (.declares ⟨.counter, name⟩) = 0 := by
  rw [h.count_declares_eq, objects, List.count_append, count_objects_of_ne (by decide),
    count_objects_of_ne (by decide)]

/-- What is used is declared once, with two exceptions: counters are declared nowhere, and the set of
the cluster's prefixes twice if there is another set of its name. -/
theorem count_of_uses (h : r.Written) {o : TableObject} (ho : .uses o ∈ mentions r.text) :
    (mentions r.text).count (.declares o) =
      if o.kind = .counter then 0
      else if o = ⟨.set, clusterPrefixes⟩ ∧ clusterPrefixes ∈ r.sets.map (·.name) then 2
      else 1 := by
  -- Sets are declared under different names, and the set of the prefixes apart from them.
  have hset : ∀ name ∈ clusterPrefixes :: r.sets.map (·.name),
      (mentions r.text).count (.declares ⟨.set, name⟩) =
        if name = clusterPrefixes ∧ clusterPrefixes ∈ r.sets.map (·.name) then 2 else 1 := by
    intro name hname
    rw [h.count_set]
    by_cases hprefixes : name = clusterPrefixes
    · subst hprefixes
      split <;> simp_all
    · have hmem : name ∈ r.sets.map (·.name) := (List.mem_cons.1 hname).resolve_left hprefixes
      rw [if_pos hmem, if_neg (Ne.symm hprefixes), if_neg fun hand => hprefixes hand.1]
  rcases (h.mem_uses_iff o).1 ho with hchain | ⟨rfl, -⟩ | ⟨line, hline, hm⟩ | ⟨rfl, -⟩
  · obtain ⟨name, hname, rfl⟩ : ∃ name ∈ ["forward_egress", "forward_ingress"],
        o = ⟨.chain, name⟩ := by simpa using hchain
    rw [h.count_chain hname]
    simp
  · rw [h.count_counter, if_pos rfl]
  · obtain ⟨names, hsub, hnames⟩ := h.egress line hline
    rw [hnames] at hm
    obtain ⟨name, hname, heq⟩ := List.mem_map.1 hm
    obtain rfl := Mention.uses.inj heq
    rw [hset name (hsub hname)]
    simp
  · rw [hset _ List.mem_cons_self]
    simp

end Ruleset.Written

/-! ## Builds -/

section Builds

variable {σ : Type} {r : Resolver σ} {cluster : ClusterState} {st : σ} {b : Build}

/-- The policies in force have plain names and carry plain sets. -/
theorem plain_of_mem_applied {answers : SelectorKey → List String} {sets : List IpSet}
    (hc : cluster.Plain) (hanswers : ∀ k, ∀ name ∈ answers k, IsName name)
    (hb : buildBy answers sets cluster.policies cluster.services cluster.firewall = .ok b)
    {q : Policy} (hq : q ∈ b.applied) :
    q.isValid ∧ Inline q.name ∧
      ∀ s ∈ q.spec.resolvedSelectors, ∀ name ∈ s.sets, IsName name := by
  obtain ⟨p, hp, hv, heq⟩ := (mem_applied_buildBy hb).1 hq
  have hsame := Policy.eq_of_withoutSets (p.withoutSets_resolveBy answers)
  have hname : q.name = p.name := heq ▸ (PolicyKey.mk.inj hsame.1).2
  refine ⟨heq ▸ hsame.2.trans hv, hname ▸ hc.names p hp hv, ?_⟩
  intro s hs
  rw [sets_of_mem_policies hb (List.mem_append_left _ hq) hs]
  exact hanswers s.key

/-- In its chain, an egress rule of a policy in force mentions the sets of its clauses. -/
theorem mentions_of_mem_egressRules {answers : SelectorKey → List String} {sets : List IpSet}
    (hc : cluster.Plain) (hanswers : ∀ k, ∀ name ∈ answers k, IsName name)
    (hb : buildBy answers sets cluster.policies cluster.services cluster.firewall = .ok b)
    {q : Policy} (hq : q ∈ b.applied) {rule : PortRule} (hrule : rule ∈ q.egressRules) :
    mentions (Ruleset.indented rule.text) = rule.sets.map fun name => .uses ⟨.set, name⟩ := by
  obtain ⟨hv, hname, hnames⟩ := plain_of_mem_applied hc hanswers hb hq
  obtain ⟨hplain, hcomment⟩ := Policy.plain_of_mem_egressRules hv hnames hrule
  exact PortRule.mentions_text hplain (hcomment.inline hname)

theorem mentions_of_mem_ingressRules {answers : SelectorKey → List String} {sets : List IpSet}
    (hc : cluster.Plain) (hanswers : ∀ k, ∀ name ∈ answers k, IsName name)
    (hb : buildBy answers sets cluster.policies cluster.services cluster.firewall = .ok b)
    {q : Policy} (hq : q ∈ b.applied) {rule : PortRule} (hrule : rule ∈ q.ingressRules) :
    mentions (Ruleset.indented rule.text) = [] := by
  obtain ⟨hv, hname, -⟩ := plain_of_mem_applied hc hanswers hb hq
  obtain ⟨hplain, hcomment⟩ := Policy.plain_of_mem_ingressRules hv hrule
  rw [PortRule.mentions_text hplain (hcomment.inline hname),
    Policy.sets_of_mem_ingressRules hrule]
  rfl

/-- What is built from plain input has only lines that mention what they are made for. -/
theorem written_of_build (hr : r.Plain) (hc : cluster.Plain)
    (hb : (build r cluster.policies cluster.services cluster.firewall st).1 = .ok b) :
    b.ruleset.Written ∧
      ∀ p ∈ b.applied, ∀ rule ∈ p.egressRules, mentions (Ruleset.indented rule.text) =
        rule.sets.map fun name => .uses ⟨.set, name⟩ := by
  -- The build is one with known answers, all of them plain.
  obtain ⟨answers, sets, hanswers, hsets, hbuild⟩ :=
    exists_build_eq_buildBy (P := fun names => ∀ name ∈ names, IsName name)
      (Q := fun sets => ∀ s ∈ sets, s.Plain) (by simp) hr.answer hr.rendering cluster.policies
      cluster.services cluster.firewall st
  have hof := build_of (Prod.ext hb rfl)
  rw [hbuild] at hb
  refine ⟨?_, fun q hq rule hrule => mentions_of_mem_egressRules hc hanswers hb hq hrule⟩
  obtain ⟨vrf, snat, hsnat, heq⟩ := buildBy_eq_ok hb
  have hdeclared : b.ruleset.sets = declaredSets sets b.applied := by
    subst heq
    rfl
  constructor
  case prefixes =>
    subst heq
    exact hc.prefixes
  case sets =>
    intro s hs
    rw [hdeclared] at hs
    rcases of_mem_declaredSets hs with hs | ⟨name, hname, rfl⟩
    · exact hsets s hs
    · -- A set that only a policy refers to has a name that the resolver gave, and no elements.
      obtain ⟨q, hq, sel, hsel, hmem⟩ := mem_referencedSets.1 hname
      obtain ⟨-, -, hnames⟩ := plain_of_mem_applied hc hanswers hb hq
      exact ⟨hnames sel hsel name hmem, by simp [IpSet.empty]⟩
  case names_nodup =>
    rw [hdeclared]
    exact nodup_names_declaredSets sets b.applied
  case rateLimits =>
    subst heq
    intro line hline
    obtain ⟨limit, -, vrf, -, rfl⟩ := FirewallSpec.mem_rateLimitLines.1 hline
    exact mentions_rateLimitLine vrf limit.rate
  case ingress =>
    intro line hline
    rcases (hof.ingress line).1 hline with ⟨q, hq, hline⟩ | ⟨s, hs, hline⟩
    · obtain ⟨rule, hrule, rfl⟩ := List.mem_map.1 (mem_sortUnique.1 hline)
      exact mentions_of_mem_ingressRules hc hanswers hb hq hrule
    · exact Service.mentions_of_mem_ruleTexts (hc.services s hs) hline
  case egress =>
    intro line hline
    obtain ⟨q, hq, hline⟩ := (hof.egress line).1 hline
    obtain ⟨rule, hrule, rfl⟩ := List.mem_map.1 (mem_sortUnique.1 hline)
    refine ⟨rule.sets, ?_, mentions_of_mem_egressRules hc hanswers hb hq hrule⟩
    intro name hname
    rw [hdeclared, List.mem_cons, mem_names_declaredSets, mem_referencedSets]
    rcases Policy.of_mem_egressRules hrule hname with hname | ⟨s, hs, hname⟩
    · exact .inl hname
    · exact .inr (.inr ⟨q, hq, s, hs, hname⟩)
  case snat =>
    subst heq
    intro line hline
    obtain ⟨e, he, vrf, target, htarget, rfl⟩ := exists_of_mem_snatLinesOf hsnat hline
    exact mentions_snatLine vrf (silent_snatTarget? (hc.egressSnat e he).ips htarget)
      (hc.egressSnat e he).networkId

/-- What the lines of the egress chain use, read off the rules of the policies in force. -/
theorem exists_uses_egress_iff (hof : b.Of cluster)
    (hrules : ∀ p ∈ b.applied, ∀ rule ∈ p.egressRules, mentions (Ruleset.indented rule.text) =
      rule.sets.map fun name => .uses ⟨.set, name⟩) (o : TableObject) :
    (∃ line ∈ b.ruleset.egress, .uses o ∈ mentions (Ruleset.indented line)) ↔
      ∃ p ∈ b.applied, ∃ rule ∈ p.egressRules, ∃ name ∈ rule.sets, ⟨.set, name⟩ = o := by
  constructor
  · rintro ⟨line, hline, hm⟩
    obtain ⟨p, hp, hline⟩ := (hof.egress line).1 hline
    obtain ⟨rule, hrule, rfl⟩ := List.mem_map.1 (mem_sortUnique.1 hline)
    rw [hrules p hp rule hrule] at hm
    obtain ⟨name, hname, heq⟩ := List.mem_map.1 hm
    exact ⟨p, hp, rule, hrule, name, hname, Mention.uses.inj heq⟩
  · rintro ⟨p, hp, rule, hrule, name, hname, rfl⟩
    refine ⟨rule.text, (hof.egress _).2 ⟨p, hp, ?_⟩, ?_⟩
    · exact mem_sortUnique.2 (List.mem_map_of_mem hrule)
    · rw [hrules p hp rule hrule]
      exact List.mem_map_of_mem hname

/-- Everything that the text of a built ruleset uses is declared in it, and once, but for two
things: the counter of the rate limits is declared nowhere, and the set of the cluster's prefixes
twice if the resolver has a set of its name. -/
theorem declared_of_used (hr : r.Plain) (hc : cluster.Plain)
    (hb : (build r cluster.policies cluster.services cluster.firewall st).1 = .ok b) :
    let said := mentions b.ruleset.text
    (∀ o, .uses o ∈ said → said.count (.declares o) =
      if o.kind = .counter then 0
      else if o = ⟨.set, clusterPrefixes⟩ ∧ clusterPrefixes ∈ b.ruleset.sets.map (·.name) then 2
      else 1) ∧
    (∀ name, .uses ⟨.chain, name⟩ ∈ said ↔ name ∈ ["forward_egress", "forward_ingress"]) ∧
    (∀ name, .uses ⟨.set, name⟩ ∈ said ↔
      (∃ p ∈ b.applied, ∃ rule ∈ p.egressRules, name ∈ rule.sets) ∨
        (name = clusterPrefixes ∧ b.ruleset.snat ≠ [])) ∧
    ∀ name, .uses ⟨.counter, name⟩ ∈ said ↔ name = "drop_ratelimit" ∧
      ∃ limit ∈ cluster.firewall.rateLimits,
        (cluster.firewall.vrf? limit.networkId).isSome := by
  intro said
  obtain ⟨hwritten, hrules⟩ := written_of_build hr hc hb
  -- Only the lines for traffic that leaves use sets by their names.
  have hegress := exists_uses_egress_iff (build_of (Prod.ext hb rfl)) hrules
  refine ⟨fun o ho => hwritten.count_of_uses ho, fun name => ?_, fun name => ?_, fun name => ?_⟩
  · rw [hwritten.mem_uses_iff, hegress]
    simp
  · rw [hwritten.mem_uses_iff, hegress]
    simp
  · have hlimits : b.ruleset.rateLimits ≠ [] ↔ ∃ limit ∈ cluster.firewall.rateLimits,
        (cluster.firewall.vrf? limit.networkId).isSome := by
      rw [rateLimits_of_build (Prod.ext hb rfl), cluster.firewall.rateLimitLines_ne_nil_iff]
    rw [hwritten.mem_uses_iff, hegress, hlimits]
    simp

/-- A policy with a DNS name, a load balancer, a source address and a rate limit. -/
theorem declared_of_used_with_rate_limit :
    let r : Resolver Unit := .fixed (fun _ => ["example_v4"]) [⟨"other", .ipv4, ["192.0.2.7"]⟩]
    let firewall : FirewallSpec := ⟨["10.0.0.0/22"],
      [⟨"tenant", .privatePrimary, some 42, []⟩, ⟨"internet", .external, some 104, []⟩],
      [⟨"internet", 10⟩], [⟨"internet", ["192.0.2.1", "192.0.2.2"]⟩]⟩
    let cluster : ClusterState :=
      ⟨[.named "dns" ⟨[], [⟨[], [.ofName "example.com"], [.single .udp 53]⟩]⟩],
        [⟨"default", "shop", .loadBalancer, ["192.0.2.3"], [], [⟨none, 80⟩]⟩], firewall⟩
    ∃ b, (build r cluster.policies cluster.services cluster.firewall ()).1 = .ok b ∧
      let said := mentions b.ruleset.text
      (∀ name ∈ ["example_v4", clusterPrefixes],
        .uses ⟨.set, name⟩ ∈ said ∧ said.count (.declares ⟨.set, name⟩) = 1) ∧
      (∀ name ∈ ["forward_egress", "forward_ingress"],
        .uses ⟨.chain, name⟩ ∈ said ∧ said.count (.declares ⟨.chain, name⟩) = 1) ∧
      .uses ⟨.counter, "drop_ratelimit"⟩ ∈ said ∧
        said.count (.declares ⟨.counter, "drop_ratelimit"⟩) = 0 := by
  intro r firewall cluster
  have hr : r.Plain := by
    constructor
    · intro s create st name hname
      obtain rfl := List.mem_singleton.1 hname
      decide
    · intro st s hs
      obtain rfl := List.mem_singleton.1 hs
      exact ⟨by decide, by decide⟩
  have hc : cluster.Plain := by
    constructor
    · intro p hp _
      obtain rfl := List.mem_singleton.1 hp
      decide
    · intro s hs
      obtain rfl := List.mem_singleton.1 hs
      exact ⟨by decide, by decide, by decide, by decide⟩
    · decide
    · intro e he
      obtain rfl := List.mem_singleton.1 he
      exact ⟨by decide, by decide⟩
  obtain ⟨b, hb⟩ : ∃ b,
      (build r cluster.policies cluster.services cluster.firewall ()).1 = .ok b := ⟨_, rfl⟩
  obtain ⟨hcount, hchains, hsets, hcounters⟩ := declared_of_used hr hc hb
  have hnames : ∀ name ∈ ["example_v4", clusterPrefixes],
      (∃ p ∈ b.applied, ∃ rule ∈ p.egressRules, name ∈ rule.sets) ∧
        ¬ (clusterPrefixes ∈ b.ruleset.sets.map (·.name)) := by
    obtain rfl := Except.ok.inj hb
    decide +kernel
  refine ⟨b, hb, fun name hname => ?_, fun name hname => ?_, ?_⟩
  · obtain ⟨hrule, hprefixes⟩ := hnames name hname
    have hused := (hsets name).2 (.inl hrule)
    rw [hcount _ hused]
    exact ⟨hused, by simp [hprefixes]⟩
  · have hused := (hchains name).2 hname
    rw [hcount _ hused]
    exact ⟨hused, by simp⟩
  · have hused := (hcounters "drop_ratelimit").2 ⟨rfl, ⟨"internet", 10⟩, by decide, by decide⟩
    rw [hcount _ hused]
    exact ⟨hused, rfl⟩

/-- With one rate limit and nothing else, a counter is used that is declared nowhere. -/
theorem rate_limit_counter_undeclared :
    let r : Resolver Unit := .fixed (fun _ => []) []
    let firewall : FirewallSpec := ⟨[],
      [⟨"tenant", .privatePrimary, some 42, []⟩, ⟨"internet", .external, some 104, []⟩],
      [⟨"internet", 10⟩], []⟩
    ∃ b, (build r [] [] firewall ()).1 = .ok b ∧
      .uses ⟨.counter, "drop_ratelimit"⟩ ∈ mentions b.ruleset.text ∧
      .declares ⟨.counter, "drop_ratelimit"⟩ ∉ mentions b.ruleset.text := by
  intro r firewall
  have hr : r.Plain := by
    constructor
    · intro s create st name hname
      cases hname
    · intro st s hs
      cases hs
  have hc : (ClusterState.mk [] [] firewall).Plain := by
    constructor <;> simp [firewall]
  obtain ⟨b, hb⟩ : ∃ b, (build r [] [] firewall ()).1 = .ok b := ⟨_, rfl⟩
  have hwritten := (written_of_build hr hc hb).1
  have hlimits : b.ruleset.rateLimits ≠ [] := by
    rw [rateLimits_of_build (Prod.ext hb rfl)]
    decide
  refine ⟨b, hb, (hwritten.mem_uses_iff _).2 (.inr (.inl ⟨rfl, hlimits⟩)), ?_⟩
  rw [← List.count_eq_zero]
  exact hwritten.count_counter "drop_ratelimit"

end Builds

end ClusterFirewall
