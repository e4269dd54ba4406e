import ClusterFirewall.Proofs.Policy.Acceptance
import ClusterFirewall.Proofs.Policy.Sets
import ClusterFirewall.Proofs.Ruleset.Reading

/-!
# What the rules of a policy let pass

A policy says in its own terms which packets it lets in and out: by its blocks, by the blocks that
are cut out of them, by the sets that a resolver names, and by its ports. The lines that it compiles
to are texts. Here both are compared. A rule is `Readable` if its line is read back as what the rule
states; a valid policy has no other rules as long as no name of a set has a blank in it, and what
they let pass together is what the policy says.

Main statement: `Policy.matches_compile_iff`, for every resolver and every packet.
-/

namespace ClusterFirewall

/-! ## What a policy says -/

/-- An address lies in the block that a text writes. -/
def Address.InBlock (a : Address) (cidr : String) : Prop :=
  ∃ n, Network.parse? cidr = some n ∧ n.contains a

/-- An address lies in the block of a peer. -/
def Address.AllowedBy (a : Address) (peers : List IpBlock) : Prop :=
  ∃ b ∈ peers, a.InBlock b.cidr

/-- An address lies in a block that is cut out of a peer. -/
def Address.ExceptedBy (a : Address) (peers : List IpBlock) : Prop :=
  ∃ b ∈ peers, ∃ cidr ∈ b.except, a.InBlock cidr

/-- The protocol and the port of a packet are among those of a policy. Of the protocols only TCP and
UDP are let pass. -/
def Packet.GoesTo (q : Packet) (ports : List PolicyPort) : Prop :=
  ∃ item ∈ ports, (item.effectiveProtocol = .tcp ∨ item.effectiveProtocol = .udp) ∧
    q.protocol = item.effectiveProtocol.number ∧
      item.port ≤ q.port ∧ q.port ≤ item.endPort.getD item.port

/-- An ingress rule lets a packet in. -/
def IngressRule.Admits (e : IngressRule) (q : Packet) : Prop :=
  (e.sources = [] ∨ q.source.AllowedBy e.sources) ∧ ¬ q.source.ExceptedBy e.sources ∧
    q.GoesTo e.ports

/-- An egress rule lets a packet out, if these are the names of the sets for its selectors. -/
def EgressRule.Admits (e : EgressRule) (names : List String) (sets : NamedSets) (q : Packet) :
    Prop :=
  q.GoesTo e.ports ∧
    ((e.destinations ≠ [] ∧ q.destination.AllowedBy e.destinations ∧
        ¬ q.destination.ExceptedBy e.destinations) ∨
      (e.destinations = [] ∧ ∃ name ∈ names, sets name q.destination))

section Decidability

instance (a : Address) (cidr : String) : Decidable (a.InBlock cidr) :=
  inferInstanceAs (Decidable (∃ n ∈ Network.parse? cidr, n.contains a))

instance (a : Address) (peers : List IpBlock) : Decidable (a.AllowedBy peers) :=
  inferInstanceAs (Decidable (∃ b ∈ peers, a.InBlock b.cidr))

instance (a : Address) (peers : List IpBlock) : Decidable (a.ExceptedBy peers) :=
  inferInstanceAs (Decidable (∃ b ∈ peers, ∃ cidr ∈ b.except, a.InBlock cidr))

instance (q : Packet) (ports : List PolicyPort) : Decidable (q.GoesTo ports) :=
  inferInstanceAs (Decidable (∃ item ∈ ports, _ ∧ _))

instance (e : IngressRule) (q : Packet) : Decidable (e.Admits q) :=
  inferInstanceAs (Decidable ((_ ∨ _) ∧ _ ∧ _))

instance (e : EgressRule) (names : List String) (sets : NamedSets)
    [∀ name a, Decidable (sets name a)] (q : Packet) : Decidable (e.Admits names sets q) :=
  inferInstanceAs (Decidable (_ ∧ (_ ∨ _ ∧ ∃ name ∈ names, _)))

end Decidability

section Answers

variable {σ : Type}

/-- The names of the sets that a resolver gives for the selectors of an egress rule. It is not asked
if there are blocks. -/
def EgressRule.answers (r : Resolver σ) (e : EgressRule) (st : σ) : List String × σ :=
  if e.destinations.isEmpty then
    let (answers, st) := traverse (fun s st => r.answer s false st) e.selectors st
    (answers.flatten, st)
  else ([], st)

/-- The names of the sets for each egress rule of a policy, asked for one rule after the other. -/
def Policy.answers (r : Resolver σ) (p : Policy) (st : σ) : List (List String) :=
  (traverse (EgressRule.answers r) p.spec.egress st).1

end Answers

/-! ## What clauses and rules state -/

/-- A packet meets a clause. -/
def Clause.Holds (sets : NamedSets) (q : Packet) : Clause → Prop
  | .sourceIn blocks => ∃ b ∈ blocks, q.source.InBlock b
  | .sourceNotIn blocks => ∀ b ∈ blocks, ¬ q.source.InBlock b
  | .sourceInCluster => sets clusterPrefixes q.source
  | .destinationIn blocks => ∃ b ∈ blocks, q.destination.InBlock b
  | .destinationNotIn blocks => ∀ b ∈ blocks, ¬ q.destination.InBlock b
  | .destinationInSet name => sets name q.destination

/-- A clause can be told from its text, and its blocks are networks. -/
structure Clause.Readable (c : Clause) : Prop where
  legible : c.Legible
  networks : c.condition?.isSome

/-- A packet meets all that a rule states. -/
def PortRule.Admits (sets : NamedSets) (q : Packet) (r : PortRule) : Prop :=
  (∀ c ∈ r.clauses, c.Holds sets q) ∧ r.portCondition.Holds sets q

/-- The line of a rule is read back as what the rule states. -/
structure PortRule.Readable (r : PortRule) : Prop where
  clauses : ∀ c ∈ r.clauses, c.Readable
  ports : r.ports ≠ []

section Rules

variable {sets : NamedSets} {q : Packet}

theorem exists_contains_iff {blocks : List String} {networks : List Network}
    (h : blocks.mapM Network.parse? = some networks) (a : Address) :
    (∃ n ∈ networks, n.contains a) ↔ ∃ b ∈ blocks, a.InBlock b := by
  obtain ⟨networks', h', hmem⟩ := exists_mapM (isSome_of_mapM h)
  obtain rfl : networks = networks' := Option.some.inj (h.symm.trans h')
  constructor
  · rintro ⟨n, hn, ha⟩
    obtain ⟨b, hb, hparse⟩ := (hmem n).1 hn
    exact ⟨b, hb, n, hparse, ha⟩
  · rintro ⟨b, hb, n, hparse, ha⟩
    exact ⟨n, (hmem n).2 ⟨b, hb, hparse⟩, ha⟩

theorem forall_not_contains_iff {blocks : List String} {networks : List Network}
    (h : blocks.mapM Network.parse? = some networks) (a : Address) :
    (∀ n ∈ networks, ¬ n.contains a) ↔ ∀ b ∈ blocks, ¬ a.InBlock b := by
  simpa only [not_exists, not_and] using not_congr (exists_contains_iff h a)

/-- The condition of a clause is what the clause states. -/
theorem Clause.holds_condition {c : Clause} {condition : Condition}
    (h : c.condition? = some condition) : condition.Holds sets q ↔ c.Holds sets q := by
  cases c with
  | sourceIn blocks =>
    obtain ⟨networks, hnetworks, rfl⟩ := Option.map_eq_some_iff.1 h
    exact exists_contains_iff hnetworks q.source
  | sourceNotIn blocks =>
    obtain ⟨networks, hnetworks, rfl⟩ := Option.map_eq_some_iff.1 h
    exact forall_not_contains_iff hnetworks q.source
  | sourceInCluster =>
    obtain rfl := Option.some.inj h
    exact Iff.rfl
  | destinationIn blocks =>
    obtain ⟨networks, hnetworks, rfl⟩ := Option.map_eq_some_iff.1 h
    exact exists_contains_iff hnetworks q.destination
  | destinationNotIn blocks =>
    obtain ⟨networks, hnetworks, rfl⟩ := Option.map_eq_some_iff.1 h
    exact forall_not_contains_iff hnetworks q.destination
  | destinationInSet name =>
    obtain rfl := Option.some.inj h
    exact Iff.rfl

/-- A readable line lets those packets pass that meet what the rule states. -/
theorem PortRule.matches_text_iff {r : PortRule} (hr : r.Readable) :
    q.Matches sets r.text ↔ r.Admits sets q := by
  -- The conditions that are read are those of the clauses, one for each.
  obtain ⟨conditions, hconditions, hmem⟩ := exists_mapM fun c hc => (hr.clauses c hc).networks
  have hread := readRule_text ⟨fun c hc => (hr.clauses c hc).legible, hr.ports⟩ hconditions
  have hclauses : (∀ condition ∈ conditions, condition.Holds sets q) ↔
      ∀ c ∈ r.clauses, c.Holds sets q := by
    constructor
    · intro h c hc
      obtain ⟨condition, hcondition⟩ := Option.isSome_iff_exists.1 (hr.clauses c hc).networks
      exact (Clause.holds_condition hcondition).1 (h condition ((hmem _).2 ⟨c, hc, hcondition⟩))
    · intro h condition hcondition
      obtain ⟨c, hc, hcondition⟩ := (hmem condition).1 hcondition
      exact (Clause.holds_condition hcondition).2 (h c hc)
  rw [Packet.Matches, hread, PortRule.Admits, ← hclauses]
  simp [or_imp, forall_and]

theorem exists_mem_flatMap_iff {α β : Type} {xs : List α} {f : α → List β} {P : β → Prop} :
    (∃ b ∈ xs.flatMap f, P b) ↔ ∃ a ∈ xs, ∃ b ∈ f a, P b := by
  constructor
  · rintro ⟨b, hb, hP⟩
    obtain ⟨a, ha, hmem⟩ := List.mem_flatMap.1 hb
    exact ⟨a, ha, b, hmem, hP⟩
  · rintro ⟨a, ha, b, hmem, hP⟩
    exact ⟨b, List.mem_flatMap.2 ⟨a, ha, hmem⟩, hP⟩

/-- Sorting lines does not matter to what they let pass together. -/
theorem exists_ruleLines_iff {rules : List PortRule} (h : ∀ rule ∈ rules, rule.Readable) :
    (∃ line ∈ ruleLines rules, q.Matches sets line) ↔ ∃ rule ∈ rules, rule.Admits sets q := by
  constructor
  · rintro ⟨line, hline, hmatch⟩
    obtain ⟨rule, hrule, rfl⟩ := List.mem_map.1 (mem_sortUnique.1 hline)
    exact ⟨rule, hrule, (PortRule.matches_text_iff (h rule hrule)).1 hmatch⟩
  · rintro ⟨rule, hrule, hadmits⟩
    exact ⟨rule.text, mem_sortUnique.2 (List.mem_map_of_mem hrule),
      (PortRule.matches_text_iff (h rule hrule)).2 hadmits⟩

/-! ## Ports -/

theorem mem_portsOf_spansOf {protocol : Protocol} {ports : List PolicyPort} {span : PortSpan} :
    span ∈ portsOf protocol (spansOf ports) ↔
      ∃ item ∈ ports, item.effectiveProtocol = protocol ∧ item.span = span := by
  simp [portsOf, spansOf]

theorem mem_portRules {clauses : List Clause} {ports : List PolicyPort} {comment : String}
    {rule : PortRule} : rule ∈ portRules clauses ports comment ↔
      ∃ protocol, (protocol = .tcp ∨ protocol = .udp) ∧ portsOf protocol (spansOf ports) ≠ [] ∧
        rule = ⟨clauses, protocol, portsOf protocol (spansOf ports),
          comment ++ " " ++ protocol.text⟩ := by
  simp only [portRules, List.mem_filterMap, List.mem_cons, List.not_mem_nil, or_false, portRule?]
  refine exists_congr fun protocol => and_congr_right fun _ => ?_
  by_cases hports : portsOf protocol (spansOf ports) = []
  · simp [hports]
  · rw [if_neg (by simpa using hports), Option.some_inj, eq_comm, and_iff_right hports]

theorem readable_of_mem_portRules {clauses : List Clause} (h : ∀ c ∈ clauses, c.Readable)
    {ports : List PolicyPort} {comment : String} :
    ∀ rule ∈ portRules clauses ports comment, rule.Readable := by
  intro rule hrule
  obtain ⟨protocol, -, hports, rfl⟩ := mem_portRules.1 hrule
  exact ⟨h, hports⟩

/-- The rules of some clauses together let a packet pass that meets the clauses and goes to one of
the ports. -/
theorem exists_portRules_iff {clauses : List Clause} {ports : List PolicyPort} {comment : String} :
    (∃ rule ∈ portRules clauses ports comment, rule.Admits sets q) ↔
      (∀ c ∈ clauses, c.Holds sets q) ∧ q.GoesTo ports := by
  constructor
  · rintro ⟨rule, hrule, hclauses, hport⟩
    obtain ⟨protocol, hprotocol, -, rfl⟩ := mem_portRules.1 hrule
    obtain ⟨hnumber, span, hspan, hfirst, hlast⟩ := hport
    obtain ⟨item, hitem, rfl, rfl⟩ := mem_portsOf_spansOf.1 hspan
    exact ⟨hclauses, item, hitem, hprotocol, hnumber, hfirst, hlast⟩
  · rintro ⟨hclauses, item, hitem, hprotocol, hnumber, hfirst, hlast⟩
    have hspan : item.span ∈ portsOf item.effectiveProtocol (spansOf ports) :=
      mem_portsOf_spansOf.2 ⟨item, hitem, rfl, rfl⟩
    exact ⟨_, mem_portRules.2 ⟨_, hprotocol, List.ne_nil_of_mem hspan, rfl⟩, hclauses,
      hnumber, item.span, hspan, hfirst, hlast⟩

/-! ## Blocks -/

/-- The texts of a block and of those cut out of it write networks. -/
structure IpBlock.Parses (b : IpBlock) : Prop where
  cidr : (Network.parse? b.cidr).isSome
  except : ∀ cidr ∈ b.except, (Network.parse? cidr).isSome

theorem IpBlock.Nested.parses {b : IpBlock} (h : b.Nested) : b.Parses := by
  obtain ⟨n, hn, hexcept⟩ := h
  refine ⟨by simp [hn], ?_⟩
  intro cidr hcidr
  obtain ⟨m, hm, -⟩ := hexcept cidr hcidr
  simp [hm]

theorem isSome_allowedBlocks {peers : List IpBlock} (h : ∀ b ∈ peers, b.Parses) :
    ∀ cidr ∈ allowedBlocks peers, (Network.parse? cidr).isSome := by
  intro cidr hcidr
  obtain ⟨b, hb, rfl⟩ := List.mem_map.1 hcidr
  exact (h b hb).cidr

theorem isSome_exceptedBlocks {peers : List IpBlock} (h : ∀ b ∈ peers, b.Parses) :
    ∀ cidr ∈ exceptedBlocks peers, (Network.parse? cidr).isSome := by
  intro cidr hcidr
  obtain ⟨b, hb, hmem⟩ := List.mem_flatMap.1 hcidr
  exact (h b hb).except cidr hmem

theorem exists_allowedBlocks_iff {peers : List IpBlock} {a : Address} :
    (∃ cidr ∈ allowedBlocks peers, a.InBlock cidr) ↔ a.AllowedBy peers := by
  simp [allowedBlocks, Address.AllowedBy]

theorem forall_exceptedBlocks_iff {peers : List IpBlock} {a : Address} :
    (∀ cidr ∈ exceptedBlocks peers, ¬ a.InBlock cidr) ↔ ¬ a.ExceptedBy peers := by
  simp only [exceptedBlocks, Address.ExceptedBy, List.mem_flatMap, not_exists, not_and]
  constructor
  · intro h b hb cidr hcidr
    exact h cidr ⟨b, hb, hcidr⟩
  · rintro h cidr ⟨b, hb, hcidr⟩
    exact h b hb cidr hcidr

/-- Every address lies in the block of all addresses. -/
theorem Address.inBlock_allAddresses (a : Address) : a.InBlock allAddresses := by
  have hparse : Network.parse? allAddresses = some ⟨0, 0, by decide⟩ := by decide
  refine ⟨_, hparse, ?_⟩
  have hmask : Network.mask ⟨0, 0, by decide⟩ = 0 := by decide
  rw [Network.contains_iff, hmask]
  simp

/-! ## Clauses -/

theorem forall_mem_clauseUnlessEmpty {P : Clause → Prop} {clause : List String → Clause}
    {blocks : List String} :
    (∀ c ∈ clauseUnlessEmpty clause blocks, P c) ↔ blocks = [] ∨ P (clause blocks) := by
  cases blocks <;> simp [clauseUnlessEmpty]

/-- A clause on blocks that are networks is readable, on either side and in either sense. -/
theorem readable_clauseUnlessEmpty {clause : List String → Clause}
    (hclause : clause ∈ [.sourceIn, .sourceNotIn, .destinationIn, .destinationNotIn])
    {blocks : List String} (h : ∀ cidr ∈ blocks, (Network.parse? cidr).isSome) :
    ∀ c ∈ clauseUnlessEmpty clause blocks, c.Readable := by
  rw [forall_mem_clauseUnlessEmpty, or_iff_not_imp_left]
  intro hne
  obtain ⟨networks, hnetworks, -⟩ := exists_mapM h
  simp only [List.mem_cons, List.not_mem_nil, or_false] at hclause
  rcases hclause with rfl | rfl | rfl | rfl <;>
    exact ⟨hne, by simp [Clause.condition?, hnetworks]⟩

/-- Without blocks cut out there is no clause, and nothing that a packet could fail. -/
theorem holds_exceptedBlocks_iff {clause : List String → Clause} {a : Address}
    (hclause : ∀ blocks, (clause blocks).Holds sets q ↔ ∀ b ∈ blocks, ¬ a.InBlock b)
    {peers : List IpBlock} :
    (∀ c ∈ clauseUnlessEmpty clause (exceptedBlocks peers), c.Holds sets q) ↔
      ¬ a.ExceptedBy peers := by
  rw [forall_mem_clauseUnlessEmpty, hclause, ← forall_exceptedBlocks_iff]
  apply or_iff_right_of_imp
  intro hempty
  simp [hempty]

namespace IngressRule

theorem readable_clauses {e : IngressRule} (h : ∀ b ∈ e.sources, b.Parses) :
    ∀ c ∈ e.clauses, c.Readable := by
  intro c hc
  rcases List.mem_append.1 hc with hc | hc
  · exact readable_clauseUnlessEmpty (by simp) (isSome_exceptedBlocks h) c hc
  · exact readable_clauseUnlessEmpty (by simp) (isSome_allowedBlocks h) c hc

theorem holds_clauses_iff {e : IngressRule} :
    (∀ c ∈ e.clauses, c.Holds sets q) ↔
      (e.sources = [] ∨ q.source.AllowedBy e.sources) ∧ ¬ q.source.ExceptedBy e.sources := by
  have hexcepted : (∀ c ∈ clauseUnlessEmpty .sourceNotIn (exceptedBlocks e.sources),
      c.Holds sets q) ↔ ¬ q.source.ExceptedBy e.sources :=
    holds_exceptedBlocks_iff fun _ => Iff.rfl
  have hallowed : (∀ c ∈ clauseUnlessEmpty .sourceIn (allowedBlocks e.sources), c.Holds sets q) ↔
      e.sources = [] ∨ q.source.AllowedBy e.sources := by
    rw [forall_mem_clauseUnlessEmpty, ← exists_allowedBlocks_iff, allowedBlocks,
      List.map_eq_nil_iff]
    rfl
  rw [clauses, List.forall_mem_append, hexcepted, hallowed, and_comm]

end IngressRule

theorem readable_destinationClauses {destinations : List IpBlock}
    (h : ∀ b ∈ destinations, b.Parses) : ∀ c ∈ destinationClauses destinations, c.Readable := by
  have hallowed : ∀ cidr ∈ (if allowedBlocks destinations = [allAddresses] then []
      else allowedBlocks destinations), (Network.parse? cidr).isSome := by
    split
    · simp
    · exact isSome_allowedBlocks h
  intro c hc
  rcases List.mem_append.1 hc with hc | hc
  · rcases List.mem_append.1 hc with hc | hc
    · obtain rfl := List.mem_singleton.1 hc
      exact ⟨trivial, rfl⟩
    · exact readable_clauseUnlessEmpty (by simp) (isSome_exceptedBlocks h) c hc
  · exact readable_clauseUnlessEmpty (by simp) hallowed c hc

/-- The clause that is left out where the blocks are all addresses is one that every packet
meets. -/
theorem holds_destinationClauses_iff {destinations : List IpBlock} (hne : destinations ≠ []) :
    (∀ c ∈ destinationClauses destinations, c.Holds sets q) ↔
      sets clusterPrefixes q.source ∧ q.destination.AllowedBy destinations ∧
        ¬ q.destination.ExceptedBy destinations := by
  have hexcepted : (∀ c ∈ clauseUnlessEmpty .destinationNotIn (exceptedBlocks destinations),
      c.Holds sets q) ↔ ¬ q.destination.ExceptedBy destinations :=
    holds_exceptedBlocks_iff fun _ => Iff.rfl
  have hallowed : (∀ c ∈ clauseUnlessEmpty .destinationIn
      (if allowedBlocks destinations = [allAddresses] then [] else allowedBlocks destinations),
      c.Holds sets q) ↔ q.destination.AllowedBy destinations := by
    rw [forall_mem_clauseUnlessEmpty, ← exists_allowedBlocks_iff]
    by_cases hall : allowedBlocks destinations = [allAddresses]
    · -- There is no clause, and the block holds every destination.
      rw [if_pos hall, hall]
      exact iff_of_true (.inl rfl)
        ⟨allAddresses, List.mem_singleton_self _, q.destination.inBlock_allAddresses⟩
    · rw [if_neg hall]
      exact or_iff_right fun hempty => hne (List.map_eq_nil_iff.1 hempty)
  rw [destinationClauses, List.forall_mem_append, List.forall_mem_append, hexcepted, hallowed,
    List.forall_mem_singleton, and_assoc, and_comm (b := q.destination.AllowedBy destinations)]
  rfl

namespace EgressRule

theorem readable_clauseLists {e : EgressRule} (hblocks : ∀ b ∈ e.destinations, b.Parses)
    (hnames : e.destinations.isEmpty → ∀ s ∈ e.selectors, ∀ name ∈ s.sets, Text.HasNoBlank name) :
    ∀ clauses ∈ e.clauseLists, ∀ c ∈ clauses, c.Readable := by
  intro clauses hclauses
  unfold clauseLists at hclauses
  split at hclauses
  · rename_i hempty
    obtain ⟨name, hname, rfl⟩ := List.mem_map.1 hclauses
    obtain ⟨s, hs, hmem⟩ := List.mem_flatMap.1 hname
    simp only [List.forall_mem_cons, List.not_mem_nil, false_implies, implies_true, and_true]
    exact ⟨⟨trivial, rfl⟩, ⟨hnames hempty s hs name hmem, rfl⟩⟩
  · obtain rfl := List.mem_singleton.1 hclauses
    exact readable_destinationClauses hblocks

/-- The clauses of an egress rule, whichever list of them is met, are what the rule says with the
sets that its selectors carry. -/
theorem exists_clauseLists_iff {e : EgressRule} :
    (∃ clauses ∈ e.clauseLists, (∀ c ∈ clauses, c.Holds sets q) ∧ q.GoesTo e.ports) ↔
      sets clusterPrefixes q.source ∧ e.Admits (e.selectors.flatMap (·.sets)) sets q := by
  unfold clauseLists Admits
  by_cases hempty : e.destinations = []
  · -- There is one list of clauses for every name.
    rw [if_pos (List.isEmpty_iff.2 hempty)]
    constructor
    · rintro ⟨clauses, hclauses, hholds, hports⟩
      obtain ⟨name, hname, rfl⟩ := List.mem_map.1 hclauses
      obtain ⟨hcluster, hrest⟩ := List.forall_mem_cons.1 hholds
      have hset := hrest _ (List.mem_singleton_self _)
      exact ⟨hcluster, hports, .inr ⟨hempty, name, hname, hset⟩⟩
    · rintro ⟨hcluster, hports, ⟨hne, -⟩ | ⟨-, name, hname, hset⟩⟩
      · exact absurd hempty hne
      · refine ⟨_, List.mem_map_of_mem hname, ?_, hports⟩
        simpa [Clause.Holds] using ⟨hcluster, hset⟩
  · -- There is one list of clauses, for the blocks.
    rw [if_neg (by simpa using hempty)]
    simp only [List.mem_singleton, exists_eq_left, holds_destinationClauses_iff hempty]
    constructor
    · rintro ⟨⟨hcluster, hblocks⟩, hports⟩
      exact ⟨hcluster, hports, .inl ⟨hempty, hblocks⟩⟩
    · rintro ⟨hcluster, hports, ⟨-, hblocks⟩ | ⟨hnil, -⟩⟩
      · exact ⟨⟨hcluster, hblocks⟩, hports⟩
      · exact absurd hnil hempty

end EgressRule

/-! ## Policies -/

namespace Policy

/-- The blocks of a valid policy write networks, those that traffic comes from. -/
theorem parses_sources {p : Policy} (hp : p.isValid) {e : IngressRule}
    (he : e ∈ p.spec.ingress) : ∀ b ∈ e.sources, b.Parses :=
  fun b hb => (((isValid_iff.1 hp).ingress e he).sources b hb).parses

/-- The blocks of a valid policy write networks, those that traffic goes to. -/
theorem parses_destinations {p : Policy} (hp : p.isValid) {e : EgressRule}
    (he : e ∈ p.spec.egress) : ∀ b ∈ e.destinations, b.Parses :=
  fun b hb => (((isValid_iff.1 hp).egress e he).destinations b hb).parses

theorem readable_ingressRules {p : Policy} (hp : p.isValid) :
    ∀ rule ∈ p.ingressRules, rule.Readable := by
  intro rule hrule
  obtain ⟨e, he, hmem⟩ := List.mem_flatMap.1 hrule
  exact readable_of_mem_portRules (IngressRule.readable_clauses (parses_sources hp he)) rule hmem

theorem readable_egressRules {p : Policy} (hp : p.isValid)
    (hnames : ∀ s ∈ p.spec.resolvedSelectors, ∀ name ∈ s.sets, Text.HasNoBlank name) :
    ∀ rule ∈ p.egressRules, rule.Readable := by
  intro rule hrule
  obtain ⟨e, he, hlists⟩ := List.mem_flatMap.1 hrule
  obtain ⟨clauses, hclauses, hmem⟩ := List.mem_flatMap.1 hlists
  refine readable_of_mem_portRules (EgressRule.readable_clauseLists (parses_destinations hp he) ?_
    clauses hclauses) rule hmem
  intro hempty s hs
  exact hnames s (PolicySpec.mem_resolvedSelectors.2 ⟨e, he, hempty, hs⟩)

theorem exists_ingressLines_iff {p : Policy} (hp : p.isValid) :
    (∃ line ∈ p.ingressLines, q.Matches sets line) ↔ ∃ e ∈ p.spec.ingress, e.Admits q := by
  rw [ingressLines, exists_ruleLines_iff (readable_ingressRules hp), ingressRules,
    exists_mem_flatMap_iff]
  refine exists_congr fun e => and_congr_right fun _ => ?_
  rw [exists_portRules_iff, IngressRule.holds_clauses_iff, and_assoc]
  rfl

/-- What a policy lets out with the sets that its selectors carry. -/
theorem exists_egressLines_iff {p : Policy} (hp : p.isValid)
    (hnames : ∀ s ∈ p.spec.resolvedSelectors, ∀ name ∈ s.sets, Text.HasNoBlank name) :
    (∃ line ∈ p.egressLines, q.Matches sets line) ↔ sets clusterPrefixes q.source ∧
      ∃ e ∈ p.spec.egress, e.Admits (e.selectors.flatMap (·.sets)) sets q := by
  rw [egressLines, exists_ruleLines_iff (readable_egressRules hp hnames), egressRules]
  simp only [exists_mem_flatMap_iff, exists_portRules_iff, EgressRule.exists_clauseLists_iff]
  constructor
  · rintro ⟨e, he, hcluster, hadmits⟩
    exact ⟨hcluster, e, he, hadmits⟩
  · rintro ⟨hcluster, e, he, hadmits⟩
    exact ⟨e, he, hcluster, hadmits⟩

end Policy

end Rules

/-! ## Resolution -/

section Resolution

variable {σ : Type}

/-- If two mappings take a state to the same next one, and what holds of the results of the first
holds of the elements with the results of the second, then so it does after mapping a list. -/
theorem exists_mem_traverse_iff {α β γ : Type} {f : α → σ → β × σ} {g : α → σ → γ × σ}
    {P : β → Prop} {Q : α → γ → Prop}
    (h : ∀ a st, (f a st).2 = (g a st).2 ∧ (P (f a st).1 ↔ Q a (g a st).1)) (xs : List α) (st : σ) :
    (∃ b ∈ (traverse f xs st).1, P b) ↔ ∃ x ∈ xs.zip (traverse g xs st).1, Q x.1 x.2 := by
  induction xs generalizing st with
  | nil => simp [traverse]
  | cons a rest ih =>
    obtain ⟨hnext, hhead⟩ := h a st
    simp only [traverse, List.zip_cons_cons, List.mem_cons, exists_eq_or_imp, hhead, hnext, ih]

/-- Every result of mapping with a state is that of an element in some state. -/
theorem exists_of_mem_traverse {α β : Type} {f : α → σ → β × σ} {xs : List α} {st : σ} {b : β}
    (hb : b ∈ (traverse f xs st).1) : ∃ a ∈ xs, ∃ st', b = (f a st').1 := by
  induction xs generalizing st with
  | nil => simp [traverse] at hb
  | cons a rest ih =>
    rcases List.mem_cons.1 hb with rfl | hb
    · exact ⟨a, List.mem_cons_self, st, rfl⟩
    · obtain ⟨a', ha', h⟩ := ih hb
      exact ⟨a', List.mem_cons_of_mem _ ha', h⟩

/-- Resolved selectors carry the answers, and the resolver is asked for nothing else. -/
theorem Selector.traverse_resolve (r : Resolver σ) (selectors : List Selector) (st : σ) :
    (traverse (Selector.resolve r) selectors st).1.map (·.sets) =
        (traverse (fun s st => r.answer s false st) selectors st).1 ∧
      (traverse (Selector.resolve r) selectors st).2 =
        (traverse (fun s st => r.answer s false st) selectors st).2 := by
  induction selectors generalizing st with
  | nil => exact ⟨rfl, rfl⟩
  | cons s rest ih =>
    obtain ⟨hsets, hst⟩ := ih (r.answer s false st).2
    exact ⟨congrArg _ hsets, hst⟩

/-- What a resolved egress rule lets out is what the rule says with the answers. -/
theorem EgressRule.admits_resolve_iff (r : Resolver σ) (e : EgressRule) (st : σ)
    {sets : NamedSets} {q : Packet} :
    (e.resolve r st).2 = (e.answers r st).2 ∧
      ((e.resolve r st).1.Admits ((e.resolve r st).1.selectors.flatMap (·.sets)) sets q ↔
        e.Admits (e.answers r st).1 sets q) := by
  obtain ⟨hsets, hst⟩ := Selector.traverse_resolve r e.selectors st
  unfold resolve answers
  split
  · -- The selectors were resolved, and nothing else of the rule changed.
    refine ⟨hst, ?_⟩
    rw [List.flatMap_def, hsets]
    rfl
  · rename_i hne
    rw [List.isEmpty_iff] at hne
    refine ⟨rfl, ?_⟩
    simp [Admits, hne]

/-- The sets that a resolved policy carries are answers of the resolver. -/
theorem Policy.exists_answer_of_resolve {r : Resolver σ} {p : Policy} {st : σ} {s : Selector}
    (hs : s ∈ (p.resolve r st).1.spec.resolvedSelectors) :
    ∃ s' st', s.sets = (r.answer s' false st').1 := by
  obtain ⟨e', he', hempty, hmem⟩ := PolicySpec.mem_resolvedSelectors.1 hs
  obtain ⟨e, -, st₁, rfl⟩ := exists_of_mem_traverse he'
  by_cases he : e.destinations.isEmpty
  · rw [EgressRule.resolve, if_pos he] at hmem
    obtain ⟨s', -, st₂, rfl⟩ := exists_of_mem_traverse hmem
    exact ⟨s', st₂, rfl⟩
  · -- A rule with blocks keeps them, so it is not one of those that stand for sets.
    rw [EgressRule.resolve, if_neg he] at hempty
    exact absurd hempty he

end Resolution

end ClusterFirewall
