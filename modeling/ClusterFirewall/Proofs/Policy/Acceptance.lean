import ClusterFirewall.Policy.Validation
import ClusterFirewall.Proofs.Address

/-!
# Which policies are accepted

The checks on a policy stop at the first violation, three loops deep. What they accept is stated
here without them: `IpBlock.Nested`, `Selector.IsSingle` and `PolicyPort.IsOrdered` say what is
asked of a block, a selector and a port, and `Policy.Acceptable` asks it of every one of them. A
block that is cut out has to be a set of addresses inside the block that it is cut out of.

Main statement: `Policy.violation?_eq_none_iff`.
-/

namespace ClusterFirewall

/-! ## Blocks, selectors and ports -/

/-- The text of a block writes a network, and the texts of the blocks cut out of it write networks
inside that one. -/
def IpBlock.Nested (b : IpBlock) : Prop :=
  ∃ n, Network.parse? b.cidr = some n ∧
    ∀ cidr ∈ b.except, ∃ m, Network.parse? cidr = some m ∧ m.addresses ⊆ n.addresses

theorem exceptViolation?_eq_none_iff {field : String} {b : IpBlock} {n : Network}
    {cidr : String} :
    exceptViolation? field b n cidr = none ↔
      ∃ m, Network.parse? cidr = some m ∧ m.addresses ⊆ n.addresses := by
  unfold exceptViolation?
  cases Network.parse? cidr with
  | none => simp
  | some m => simp [Network.includes_iff_subset]

theorem IpBlock.violations_eq_nil_iff {field : String} {b : IpBlock} :
    b.violations field = [] ↔ b.Nested := by
  unfold violations Nested
  cases Network.parse? b.cidr with
  | none => simp
  | some n => simp [List.filterMap_eq_nil_iff, exceptViolation?_eq_none_iff]

instance (b : IpBlock) : Decidable b.Nested :=
  decidable_of_iff (b.violations "" = []) IpBlock.violations_eq_nil_iff

/-- Host bits do not count, and a network is not inside a part of it. -/
example : IpBlock.Nested ⟨"10.9.9.9/8", ["10.1.2.3/16", "10.0.0.1"]⟩ ∧
    ¬ IpBlock.Nested ⟨"10.0.0.0/16", ["10.0.0.0/8"]⟩ := by decide +kernel

/-- A selector selects by a name or by a pattern, and not by both. -/
def Selector.IsSingle (s : Selector) : Prop :=
  (s.matchName ≠ "" ∧ s.matchPattern = "") ∨ (s.matchName = "" ∧ s.matchPattern ≠ "")

theorem Selector.violations_eq_nil_iff {field : String} {s : Selector} :
    s.violations field = [] ↔ s.IsSingle := by
  unfold violations IsSingle
  -- Of the four cases, those are fine in which one text is empty and the other is not.
  cases hname : s.matchName.isEmpty <;> cases hpattern : s.matchPattern.isEmpty <;>
    simp_all [String.isEmpty_iff]

/-- A port is not zero, and a range does not end below its start. -/
def PolicyPort.IsOrdered (p : PolicyPort) : Prop :=
  1 ≤ p.port ∧ ∀ last ∈ p.endPort, p.port ≤ last

theorem PolicyPort.violations_eq_nil_iff {field : String} {p : PolicyPort} :
    p.violations field = [] ↔ p.IsOrdered := by
  -- A port is a word: it is at least one as soon as it is not zero.
  have hpositive : p.port ≠ 0 ↔ 1 ≤ p.port := by
    rw [UInt16.le_iff_toNat_le, Ne, ← UInt16.toNat_inj]
    exact Nat.pos_iff_ne_zero.symm
  unfold violations IsOrdered
  split
  · rename_i hzero
    simp [hzero]
  · rename_i hport
    cases p.endPort <;> simp [hpositive.1 hport]

/-! ## Rules and policies -/

/-- Every block and every port of an ingress rule is as it should be. -/
structure IngressRule.Acceptable (e : IngressRule) : Prop where
  sources : ∀ b ∈ e.sources, b.Nested
  ports : ∀ p ∈ e.ports, p.IsOrdered

theorem IngressRule.violations_eq_nil_iff {index : Nat} {e : IngressRule} :
    e.violations index = [] ↔ e.Acceptable := by
  simp only [violations, List.append_eq_nil_iff, List.flatMap_eq_nil_iff,
    IpBlock.violations_eq_nil_iff, PolicyPort.violations_eq_nil_iff]
  exact ⟨fun ⟨hsources, hports⟩ => ⟨hsources, hports⟩, fun h => ⟨h.sources, h.ports⟩⟩

/-- Every block, every selector and every port of an egress rule is as it should be: the selectors
also where they stand beside blocks, which they have no effect on. -/
structure EgressRule.Acceptable (e : EgressRule) : Prop where
  destinations : ∀ b ∈ e.destinations, b.Nested
  selectors : ∀ s ∈ e.selectors, s.IsSingle
  ports : ∀ p ∈ e.ports, p.IsOrdered

theorem EgressRule.violations_eq_nil_iff {index : Nat} {e : EgressRule} :
    e.violations index = [] ↔ e.Acceptable := by
  simp only [violations, List.append_eq_nil_iff, List.flatMap_eq_nil_iff,
    IpBlock.violations_eq_nil_iff, Selector.violations_eq_nil_iff,
    PolicyPort.violations_eq_nil_iff]
  exact ⟨fun ⟨⟨hdestinations, hselectors⟩, hports⟩ => ⟨hdestinations, hselectors, hports⟩,
    fun h => ⟨⟨h.destinations, h.selectors⟩, h.ports⟩⟩

/-- A check that finds the same whatever the place of a rule finds nothing in a list of rules iff it
finds nothing in any of them. -/
theorem flatMap_zipIdx_eq_nil_iff {α β : Type} (check : Nat → α → List β) {P : α → Prop}
    (h : ∀ index a, check index a = [] ↔ P a) (l : List α) :
    l.zipIdx.flatMap (fun e => check e.2 e.1) = [] ↔ ∀ a ∈ l, P a := by
  calc l.zipIdx.flatMap (fun e => check e.2 e.1) = []
    _ ↔ ∀ e ∈ l.zipIdx, check e.2 e.1 = [] := List.flatMap_eq_nil_iff
    _ ↔ ∀ e ∈ l.zipIdx, P e.1 := forall₂_congr fun e _ => h e.2 e.1
    _ ↔ ∀ a ∈ l.zipIdx.map Prod.fst, P a := List.forall_mem_map.symm
    _ ↔ ∀ a ∈ l, P a := by rw [List.zipIdx_map_fst]

namespace Policy

/-- A policy that rules can be made of: it lives at home, it has a name, and nothing is wrong with
any of its rules. -/
structure Acceptable (p : Policy) : Prop where
  space : p.space = "firewall"
  name : p.name ≠ ""
  ingress : ∀ e ∈ p.spec.ingress, e.Acceptable
  egress : ∀ e ∈ p.spec.egress, e.Acceptable

theorem spaceViolations_eq_nil_iff {p : Policy} : p.spaceViolations = [] ↔ p.space = home := by
  simp [spaceViolations]

theorem nameViolations_eq_nil_iff {p : Policy} : p.nameViolations = [] ↔ p.name ≠ "" := by
  simp [nameViolations, String.isEmpty_iff]

theorem violations_eq_nil_iff {p : Policy} : p.violations = [] ↔ p.Acceptable := by
  rw [violations, List.append_eq_nil_iff, List.append_eq_nil_iff, List.append_eq_nil_iff,
    spaceViolations_eq_nil_iff, nameViolations_eq_nil_iff,
    flatMap_zipIdx_eq_nil_iff IngressRule.violations fun _ _ => IngressRule.violations_eq_nil_iff,
    flatMap_zipIdx_eq_nil_iff EgressRule.violations fun _ _ => EgressRule.violations_eq_nil_iff]
  exact ⟨fun ⟨⟨⟨hspace, hname⟩, hingress⟩, hegress⟩ => ⟨hspace, hname, hingress, hegress⟩,
    fun h => ⟨⟨⟨h.space, h.name⟩, h.ingress⟩, h.egress⟩⟩

theorem isValid_iff {p : Policy} : p.isValid ↔ p.Acceptable := by
  rw [isValid, List.isEmpty_iff, violations_eq_nil_iff]

/-- No violation is reported for a policy iff it is acceptable: no rule, block, cut-out block,
selector or port is passed over on the way to the first violation, and nothing else is asked. -/
theorem violation?_eq_none_iff (p : Policy) : p.violation? = none ↔ p.Acceptable := by
  rw [violation?, List.head?_eq_none_iff, violations_eq_nil_iff]

end Policy

end ClusterFirewall
