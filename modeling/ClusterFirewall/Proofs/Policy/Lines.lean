import ClusterFirewall.Proofs.Drift.Soundness
import ClusterFirewall.Proofs.Ruleset.Meaning
import ClusterFirewall.Proofs.Text.ByteOrder
import Mathlib.Data.List.Dedup

/-!
# The lines of a policy

The lines that a policy compiles to are a set that is written down in order. What the set holds is
said here one rule of the policy at a time and letter by letter: the conditions on addresses that
the rule stands for, and for each list of conditions one line for TCP and one for UDP, as far as the
rule has ports of the protocol. This does not depend on the order in which rules, selectors or sets
are listed, nor on how often, and neither do the lines.

Main statement: `Policy.lines_canonical`.
-/

namespace ClusterFirewall

/-! ## What a rule gives -/

/-- Items between braces. -/
def braced (items : List String) : String := "\x7b " ++ ", ".intercalate items ++ " \x7d"

/-- A port in a line: its number, or two numbers with a dash if it ends with another port. -/
def portItem (item : PolicyPort) : String :=
  match item.endPort with
  | none => toString item.port.toNat
  | some last =>
    if last = item.port then toString item.port.toNat
    else toString item.port.toNat ++ "-" ++ toString last.toNat

/-- The line for the ports of a protocol on some conditions. A port that names no protocol is one
of TCP. -/
def portLine (conditions : List String) (ports : List PolicyPort) (comment : String)
    (protocol : Protocol) (word : String) : String :=
  let items := ports.filter fun item => item.protocol.getD .tcp == protocol
  " ".intercalate
    (conditions ++
      [word ++ " dport " ++ braced (items.map portItem), "counter", "accept",
        "comment \"" ++ comment ++ " " ++ word ++ "\""])

/-- There is one line for TCP and one for UDP, each if there is a port of the protocol. -/
def IsPortLine (conditions : List String) (ports : List PolicyPort) (comment line : String) :
    Prop :=
  ∃ protocol word, (protocol, word) ∈ [(.tcp, "tcp"), (.udp, "udp")] ∧
    (∃ item ∈ ports, item.protocol.getD .tcp = protocol) ∧
      line = portLine conditions ports comment protocol word

namespace IngressRule

/-- The conditions of an ingress rule: the source is in none of the blocks that are cut out, and in
one of those that are listed. Without such blocks a condition is left out. -/
def conditions (e : IngressRule) : List String :=
  let cutOut := e.sources.flatMap (·.except)
  let listed := e.sources.map (·.cidr)
  (if cutOut = [] then [] else ["ip saddr != " ++ braced cutOut]) ++
    if listed = [] then [] else ["ip saddr " ++ braced listed]

/-- A line is one of those that an ingress rule gives in a policy of this name. -/
def Gives (e : IngressRule) (name line : String) : Prop :=
  IsPortLine e.conditions e.ports ("accept traffic for k8s network policy " ++ name) line

end IngressRule

/-- The conditions of blocks as destinations: the source is in the cluster, and the destination in
none of the blocks that are cut out and in one of those that are listed. The last condition is left
out if the block of all addresses alone is listed. -/
def blockConditions (destinations : List IpBlock) : List String :=
  let cutOut := destinations.flatMap (·.except)
  let listed := destinations.map (·.cidr)
  ["ip saddr == @cluster_prefixes"] ++
    (if cutOut = [] then [] else ["ip daddr != " ++ braced cutOut]) ++
      if listed = ["0.0.0.0/0"] then [] else ["ip daddr " ++ braced listed]

namespace EgressRule

/-- An egress rule with blocks stands for one list of conditions, an egress rule without blocks for
one list for each set that its selectors are answered with. -/
def StandsFor (e : EgressRule) (answers : SelectorKey → List String) (conditions : List String) :
    Prop :=
  (e.destinations ≠ [] ∧ conditions = blockConditions e.destinations) ∨
    (e.destinations = [] ∧ ∃ s ∈ e.selectors, ∃ set ∈ answers s.key,
      conditions = ["ip saddr == @cluster_prefixes", "ip daddr @" ++ set])

/-- A line is one of those that an egress rule gives in a policy of this name. -/
def Gives (e : EgressRule) (answers : SelectorKey → List String) (name line : String) : Prop :=
  ∃ conditions, e.StandsFor answers conditions ∧
    IsPortLine conditions e.ports ("accept traffic for np " ++ name) line

end EgressRule

/-! ## Clauses as conditions -/

theorem text_eq_portItem (item : PolicyPort) : item.text = portItem item := by
  obtain ⟨protocol, port, _ | last⟩ := item <;> rfl

theorem map_text_clauseUnlessEmpty (clause : List String → Clause) (blocks : List String) :
    (clauseUnlessEmpty clause blocks).map Clause.text =
      if blocks = [] then [] else [(clause blocks).text] := by
  cases blocks <;> rfl

theorem IngressRule.map_text_clauses (e : IngressRule) :
    e.clauses.map Clause.text = e.conditions := by
  rw [clauses, List.map_append, map_text_clauseUnlessEmpty, map_text_clauseUnlessEmpty]
  rfl

theorem map_text_destinationClauses {destinations : List IpBlock} (h : destinations ≠ []) :
    (destinationClauses destinations).map Clause.text = blockConditions destinations := by
  have hlisted : allowedBlocks destinations ≠ [] := by simpa [allowedBlocks] using h
  rw [destinationClauses, List.map_append, List.map_append, map_text_clauseUnlessEmpty,
    map_text_clauseUnlessEmpty]
  -- The list of all addresses alone is emptied, and an empty list has no clause.
  by_cases hall : allowedBlocks destinations = [allAddresses]
  · have hall' : destinations.map (·.cidr) = ["0.0.0.0/0"] := hall
    rw [blockConditions, if_pos hall, if_pos rfl, if_pos hall']
    rfl
  · have hall' : destinations.map (·.cidr) ≠ ["0.0.0.0/0"] := hall
    rw [blockConditions, if_neg hall, if_neg hlisted, if_neg hall']
    rfl

section Ports

variable {clauses : List Clause} {ports : List PolicyPort} {comment line : String}

theorem map_text_portsOf (protocol : Protocol) (ports : List PolicyPort) :
    (portsOf protocol (spansOf ports)).map PortSpan.text =
      (ports.filter fun item => item.protocol.getD .tcp == protocol).map portItem := by
  rw [portsOf, spansOf, List.filter_map, List.map_map, List.map_map]
  apply List.map_congr_left
  intro item _
  exact item.text_span.trans (text_eq_portItem item)

theorem portsOf_spansOf_ne_nil_iff {protocol : Protocol} :
    portsOf protocol (spansOf ports) ≠ [] ↔ ∃ item ∈ ports, item.protocol.getD .tcp = protocol := by
  constructor
  · intro hne
    obtain ⟨span, hspan⟩ := List.exists_mem_of_ne_nil _ hne
    obtain ⟨item, hitem, hprotocol, -⟩ := mem_portsOf_spansOf.1 hspan
    exact ⟨item, hitem, hprotocol⟩
  · rintro ⟨item, hitem, hprotocol⟩
    exact List.ne_nil_of_mem (mem_portsOf_spansOf.2 ⟨item, hitem, hprotocol, rfl⟩)

theorem exists_portRules_text_iff :
    (∃ rule ∈ portRules clauses ports comment, rule.text = line) ↔
      IsPortLine (clauses.map Clause.text) ports comment line := by
  have htext : ∀ protocol, PortRule.text ⟨clauses, protocol, portsOf protocol (spansOf ports),
      comment ++ " " ++ protocol.text⟩ =
        portLine (clauses.map Clause.text) ports comment protocol protocol.text := by
    intro protocol
    simp only [PortRule.text, map_text_portsOf, portLine, String.append_assoc]
    rfl
  constructor
  · rintro ⟨rule, hrule, rfl⟩
    obtain ⟨protocol, hprotocol, hne, rfl⟩ := mem_portRules.1 hrule
    refine ⟨protocol, protocol.text, ?_, portsOf_spansOf_ne_nil_iff.1 hne, htext protocol⟩
    rcases hprotocol with rfl | rfl
    · exact .head _
    · exact .tail _ (.head _)
  · rintro ⟨protocol, word, hword, hitem, rfl⟩
    obtain ⟨hprotocol, rfl⟩ : (protocol = .tcp ∨ protocol = .udp) ∧ word = protocol.text := by
      rcases List.mem_cons.1 hword with h | h
      · obtain ⟨rfl, rfl⟩ := Prod.mk.inj h
        exact ⟨.inl rfl, rfl⟩
      · obtain ⟨rfl, rfl⟩ := Prod.mk.inj (List.mem_singleton.1 h)
        exact ⟨.inr rfl, rfl⟩
    exact ⟨_, mem_portRules.2 ⟨protocol, hprotocol, portsOf_spansOf_ne_nil_iff.2 hitem, rfl⟩,
      htext protocol⟩

end Ports

theorem EgressRule.exists_clauseLists_iff_standsFor {answers : SelectorKey → List String}
    {e : EgressRule} {conditions : List String} :
    (∃ clauses ∈ (e.resolveBy answers).clauseLists, clauses.map Clause.text = conditions) ↔
      e.StandsFor answers conditions := by
  unfold resolveBy StandsFor
  by_cases he : e.destinations = []
  · -- The selectors carry the answers of their keys, and there is one list for each name in them.
    simp only [he, List.isEmpty_nil, if_true, clauseLists, ne_eq, not_true_eq_false, false_and,
      true_and, false_or, List.mem_map, List.mem_flatMap]
    constructor
    · rintro ⟨_, ⟨set, ⟨_, ⟨s, hs, rfl⟩, hset⟩, rfl⟩, rfl⟩
      exact ⟨s, hs, set, hset, rfl⟩
    · rintro ⟨s, hs, set, hset, rfl⟩
      exact ⟨_, ⟨set, ⟨_, ⟨s, hs, rfl⟩, hset⟩, rfl⟩, rfl⟩
  · -- Nothing is resolved, and there is the list of the blocks.
    simp only [clauseLists, List.isEmpty_iff, he, if_false, List.mem_singleton, exists_eq_left,
      map_text_destinationClauses he, ne_eq, not_false_eq_true, true_and, false_and, or_false]
    exact eq_comm

namespace Policy

variable {p : Policy} {answers : SelectorKey → List String} {line : String}

theorem mem_ingressLines_iff :
    line ∈ p.ingressLines ↔ ∃ e ∈ p.spec.ingress, e.Gives p.name line := by
  rw [ingressLines, ruleLines, mem_sortUnique, List.mem_map, ingressRules, exists_mem_flatMap_iff]
  refine exists_congr fun e => and_congr_right fun _ => ?_
  rw [exists_portRules_text_iff, e.map_text_clauses]
  rfl

theorem mem_egressLines_iff : line ∈ (p.resolveBy answers).egressLines ↔
    ∃ e ∈ p.spec.egress, e.Gives answers p.name line := by
  have hrule : ∀ e : EgressRule,
      (∃ rule ∈ (e.resolveBy answers).clauseLists.flatMap fun clauses =>
        portRules clauses (e.resolveBy answers).ports ("accept traffic for np " ++ p.name),
          rule.text = line) ↔ e.Gives answers p.name line := by
    intro e
    rw [exists_mem_flatMap_iff, e.ports_resolveBy]
    simp only [exists_portRules_text_iff, EgressRule.Gives,
      ← EgressRule.exists_clauseLists_iff_standsFor]
    constructor
    · rintro ⟨clauses, hclauses, hline⟩
      exact ⟨_, ⟨clauses, hclauses, rfl⟩, hline⟩
    · rintro ⟨_, ⟨clauses, hclauses, rfl⟩, hline⟩
      exact ⟨clauses, hclauses, hline⟩
  rw [egressLines, ruleLines, mem_sortUnique, List.mem_map, egressRules, exists_mem_flatMap_iff]
  show (∃ e' ∈ p.spec.egress.map (·.resolveBy answers), _) ↔ _
  simp only [List.mem_map, exists_exists_and_eq_and]
  exact exists_congr fun e => and_congr_right fun _ => hrule e

end Policy

/-! ## Rearranging -/

/-- Two egress rules differ only in the order and the repetition of their selectors, and in the sets
that these carry. -/
structure EgressRule.Rearranged (e e' : EgressRule) : Prop where
  destinations : e.destinations = e'.destinations
  ports : e.ports = e'.ports
  keys : ∀ k, k ∈ e.selectors.map (·.key) ↔ k ∈ e'.selectors.map (·.key)

/-- Two policies of one name differ only in the order and the repetition of their rules and of the
selectors of these, and in the sets that the selectors carry. -/
structure Policy.Rearranged (p q : Policy) : Prop where
  name : p.name = q.name
  ingress : ∀ e, e ∈ p.spec.ingress ↔ e ∈ q.spec.ingress
  egress : ∀ e ∈ p.spec.egress, ∃ e' ∈ q.spec.egress, e.Rearranged e'
  egress_symm : ∀ e' ∈ q.spec.egress, ∃ e ∈ p.spec.egress, e'.Rearranged e

/-- Whatever a rule gives, it gives rearranged and with answers that name at least these sets. -/
theorem EgressRule.Rearranged.gives {e e' : EgressRule} (h : e.Rearranged e')
    {answers answers' : SelectorKey → List String}
    (hanswers : ∀ k set, set ∈ answers k → set ∈ answers' k) {name line : String}
    (hline : e.Gives answers name line) : e'.Gives answers' name line := by
  obtain ⟨conditions, hconditions, hline⟩ := hline
  rw [h.ports] at hline
  refine ⟨conditions, ?_, hline⟩
  rcases hconditions with ⟨hne, rfl⟩ | ⟨hempty, s, hs, set, hset, rfl⟩
  · rw [h.destinations] at hne ⊢
    exact .inl ⟨hne, rfl⟩
  · -- Some selector of the other rule has the same key, and so the same answer.
    rw [h.destinations] at hempty
    obtain ⟨s', hs', hkey⟩ := List.mem_map.1 ((h.keys s.key).1 (List.mem_map_of_mem hs))
    exact .inr ⟨hempty, s', hs', set, hkey ▸ hanswers _ _ hset, rfl⟩

theorem ruleLines_congr {rules rules' : List PortRule}
    (h : ∀ line, line ∈ ruleLines rules ↔ line ∈ ruleLines rules') :
    ruleLines rules = ruleLines rules' := by
  have hmem : ∀ (rules : List PortRule) (line : String),
      line ∈ ruleLines rules ↔ line ∈ rules.map PortRule.text := fun _ _ => mem_sortUnique
  apply sortUnique_congr
  intro line
  rw [← hmem, ← hmem]
  exact h line

namespace Policy.Rearranged

variable {p q : Policy} (h : p.Rearranged q)

include h

theorem ingressLines_eq : p.ingressLines = q.ingressLines := by
  apply ruleLines_congr
  intro line
  rw [← ingressLines, ← ingressLines, mem_ingressLines_iff, mem_ingressLines_iff, h.name]
  simp only [h.ingress]

theorem egressLines_eq {answers answers' : SelectorKey → List String}
    (hanswers : ∀ k set, set ∈ answers k ↔ set ∈ answers' k) :
    (p.resolveBy answers).egressLines = (q.resolveBy answers').egressLines := by
  apply ruleLines_congr
  intro line
  rw [← egressLines, ← egressLines, mem_egressLines_iff, mem_egressLines_iff, h.name]
  constructor
  · rintro ⟨e, he, hline⟩
    obtain ⟨e', he', hsame⟩ := h.egress e he
    exact ⟨e', he', hsame.gives (fun k set => (hanswers k set).1) hline⟩
  · rintro ⟨e', he', hline⟩
    obtain ⟨e, he, hsame⟩ := h.egress_symm e' he'
    exact ⟨e, he, hsame.gives (fun k set => (hanswers k set).2) hline⟩

end Policy.Rearranged

/-! ## Counting -/

/-- At most so many lines have a property. -/
def AtMost (n : Nat) (P : String → Prop) : Prop :=
  ∃ few : List String, few.length ≤ n ∧ ∀ line, P line → line ∈ few

theorem AtMost.mono {n : Nat} {P Q : String → Prop} (h : AtMost n P)
    (hQ : ∀ line, Q line → P line) : AtMost n Q := by
  obtain ⟨few, hlength, hfew⟩ := h
  exact ⟨few, hlength, fun line hline => hfew line (hQ line hline)⟩

/-- Every list of conditions gives two lines at most. -/
theorem atMost_isPortLine (lists : List (List String)) (ports : List PolicyPort)
    (comment : String) :
    AtMost (2 * lists.length) fun line =>
      ∃ conditions ∈ lists, IsPortLine conditions ports comment line := by
  refine ⟨lists.flatMap fun conditions => [(.tcp, "tcp"), (.udp, "udp")].map fun w =>
    portLine conditions ports comment w.1 w.2, ?_, ?_⟩
  · simp [List.length_flatMap, Nat.mul_comm]
  · rintro line ⟨conditions, hconditions, protocol, word, hword, -, rfl⟩
    exact List.mem_flatMap.2 ⟨conditions, hconditions, List.mem_map.2 ⟨_, hword, rfl⟩⟩

theorem IngressRule.atMost_gives (e : IngressRule) (name : String) : AtMost 2 (e.Gives name) := by
  apply (atMost_isPortLine [e.conditions] e.ports _).mono
  intro line hline
  exact ⟨e.conditions, List.mem_singleton_self _, hline⟩

namespace EgressRule

/-- The names of the sets that the selectors of a rule are answered with. -/
def setNames (e : EgressRule) (answers : SelectorKey → List String) : List String :=
  e.selectors.flatMap fun s => answers s.key

theorem atMost_gives (e : EgressRule) (answers : SelectorKey → List String) (name : String) :
    AtMost (if e.destinations = [] then 2 * (e.setNames answers).dedup.length else 2)
      (e.Gives answers name) := by
  by_cases he : e.destinations = []
  · -- One list of conditions for every name, each name counted once.
    have hlists := atMost_isPortLine ((e.setNames answers).dedup.map fun set =>
      ["ip saddr == @cluster_prefixes", "ip daddr @" ++ set]) e.ports
        ("accept traffic for np " ++ name)
    rw [List.length_map] at hlists
    rw [if_pos he]
    apply hlists.mono
    rintro line ⟨conditions, ⟨hne, -⟩ | ⟨-, s, hs, set, hset, rfl⟩, hline⟩
    · exact absurd he hne
    · have hname : set ∈ e.setNames answers := List.mem_flatMap.2 ⟨s, hs, hset⟩
      exact ⟨_, List.mem_map_of_mem (List.mem_dedup.2 hname), hline⟩
  · have hlists := atMost_isPortLine [blockConditions e.destinations] e.ports
      ("accept traffic for np " ++ name)
    rw [if_neg he]
    apply hlists.mono
    rintro line ⟨conditions, ⟨-, rfl⟩ | ⟨hempty, -⟩, hline⟩
    · exact ⟨_, List.mem_singleton_self _, hline⟩
    · exact absurd hempty he

end EgressRule

/-! ## Compilation -/

theorem increasing_ruleLines (rules : List PortRule) :
    (ruleLines rules).Pairwise fun a b => Text.utf8 a < Text.utf8 b := by
  apply (sortUnique_pairwise _).imp
  intro a b hlt
  exact Text.utf8_lt_iff.2 (compareOfLessAndEq_eq_lt.mp hlt)

namespace Policy

/-- Both lists of lines increase strictly in the order of bytes. They hold the lines that the rules
of the policy give: of an ingress rule and of an egress rule with blocks two at most, of an egress
rule without blocks two at most for each set. They are the same for every policy with the same rules
and every resolver with the same answers, in whatever order these are listed and however often. -/
theorem lines_canonical {σ : Type} {r : Resolver σ} {answers : SelectorKey → List String} {st : σ}
    (h : r.Steady answers st) (p : Policy) :
    let c := (p.compile r st).1
    c.ingress.Pairwise (fun a b => Text.utf8 a < Text.utf8 b) ∧
      c.egress.Pairwise (fun a b => Text.utf8 a < Text.utf8 b) ∧
      (∀ line, line ∈ c.ingress ↔ ∃ e ∈ p.spec.ingress, e.Gives p.name line) ∧
      (∀ line, line ∈ c.egress ↔ ∃ e ∈ p.spec.egress, e.Gives answers p.name line) ∧
      (∀ e ∈ p.spec.ingress, AtMost 2 (e.Gives p.name)) ∧
      (∀ e ∈ p.spec.egress,
        AtMost (if e.destinations = [] then 2 * (e.setNames answers).dedup.length else 2)
          (e.Gives answers p.name)) ∧
      ∀ q : Policy, p.Rearranged q → ∀ {σ' : Type} (r' : Resolver σ') (answers' st'),
        r'.Steady answers' st' → (∀ k set, set ∈ answers k ↔ set ∈ answers' k) →
          (q.compile r' st').1.ingress = c.ingress ∧ (q.compile r' st').1.egress = c.egress := by
  intro c
  have hc : c = ⟨p.ingressLines, (p.resolveBy answers).egressLines, p.resolveBy answers⟩ :=
    h.compile_eq p .refl
  rw [hc]
  refine ⟨increasing_ruleLines _, increasing_ruleLines _, fun _ => mem_ingressLines_iff,
    fun _ => mem_egressLines_iff, fun e _ => e.atMost_gives p.name,
    fun e _ => e.atMost_gives answers p.name, ?rearranged⟩
  case rearranged =>
    intro q hq σ' r' answers' st' h' hanswers
    rw [h'.compile_eq q .refl]
    exact ⟨hq.ingressLines_eq.symm, (hq.egressLines_eq hanswers).symm⟩

/-- Rules, selectors and sets in another order and twice. The selectors share a set, so that only
two sets count for the rule with both of them; and the block of all addresses leaves no condition
behind. -/
theorem lines_canonical_of_shuffled :
    let https : IngressRule :=
      ⟨[⟨"10.0.0.0/8", ["10.1.0.0/16"]⟩], [.single .tcp 443, .single .sctp 9]⟩
    let dns : IngressRule := ⟨[], [.single .udp 53, ⟨none, 53, none⟩]⟩
    let a : Selector := .ofName "a.example"
    let b : Selector := .ofPattern "*.b.example"
    let toNames : EgressRule := ⟨[], [a, b], dns.ports⟩
    let toNames' : EgressRule := ⟨[], [b, b, a], dns.ports⟩
    let toBlocks : EgressRule := ⟨[⟨"0.0.0.0/0", []⟩], [a], [.range .tcp 80 90]⟩
    let answers : SelectorKey → List String := fun k =>
      if k = a.key then ["both", "first"] else ["both"]
    let answers' : SelectorKey → List String := fun k =>
      if k = a.key then ["first", "first", "both"] else ["both", "both"]
    let p : Policy := .named "site" ⟨[https, dns], [toNames, toBlocks]⟩
    let q : Policy := .named "site" ⟨[dns, dns, https], [toBlocks, toBlocks, toNames']⟩
    let c := (p.compile (.fixed answers []) ()).1
    let c' := (q.compile (.fixed answers' []) ()).1
    p.Rearranged q ∧ AtMost 4 (toNames.Gives answers "site") ∧
      "ip saddr == @cluster_prefixes tcp dport \x7b 80-90 \x7d counter accept " ++
        "comment \"accept traffic for np site tcp\"" ∈ c.egress ∧
      c.egress.Pairwise (fun a b => Text.utf8 a < Text.utf8 b) ∧
      c'.ingress = c.ingress ∧ c'.egress = c.egress := by
  intro https dns a b toNames toNames' toBlocks answers answers' p q c c'
  -- Two elements in the other order, one of them twice.
  have hswap : ∀ {α : Type} (x y z : α), z ∈ [x, y] ↔ z ∈ [y, y, x] := by
    intro α x y z
    simp only [List.mem_cons, or_self_left]
    exact or_left_comm
  have hnames : toNames.Rearranged toNames' := ⟨rfl, rfl, hswap _ _⟩
  have hnames' : toNames'.Rearranged toNames := ⟨rfl, rfl, fun k => (hswap _ _ k).symm⟩
  have hblocks : toBlocks.Rearranged toBlocks := ⟨rfl, rfl, fun _ => .rfl⟩
  have hq : p.Rearranged q := by
    refine ⟨rfl, hswap _ _, ?_, ?_⟩
    · intro e he
      obtain rfl | rfl : e = toNames ∨ e = toBlocks := by simpa [p, named] using he
      · exact ⟨toNames', by simp [q, named], hnames⟩
      · exact ⟨toBlocks, by simp [q, named], hblocks⟩
    · intro e he
      obtain rfl | rfl : e = toBlocks ∨ e = toNames' := by simpa [q, named] using he
      · exact ⟨toBlocks, by simp [p, named], hblocks⟩
      · exact ⟨toNames, by simp [p, named], hnames'⟩
  have hanswers : ∀ k set, set ∈ answers k ↔ set ∈ answers' k := by
    intro k set
    by_cases hk : k = a.key
    · simpa only [answers, answers', if_pos hk] using hswap _ _ set
    · simp only [answers, answers', if_neg hk, List.mem_cons, or_self_left]
  obtain ⟨-, hincreasing, -, hlines, -, hcount, hsame⟩ :=
    lines_canonical (Resolver.fixed_steady answers [] ()) p
  obtain ⟨hingress, hegress⟩ := hsame q hq _ answers' () (Resolver.fixed_steady _ [] ()) hanswers
  have hfew : 2 * (toNames.setNames answers).dedup.length = 4 := by decide +kernel
  have hfour := hcount toNames (by simp [p, named])
  rw [if_pos rfl, hfew] at hfour
  have hblockLine := (hlines _).2 ⟨toBlocks, by simp [p, named],
    _, .inl ⟨List.cons_ne_nil _ _, rfl⟩, .tcp, "tcp", .head _, ⟨_, .head _, rfl⟩, rfl⟩
  exact ⟨hq, hfour, hblockLine, hincreasing, hingress, hegress⟩

end Policy

end ClusterFirewall
