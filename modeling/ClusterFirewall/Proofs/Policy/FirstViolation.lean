import ClusterFirewall.Proofs.First
import ClusterFirewall.Proofs.Policy.Acceptance

/-!
# Which violation is reported

Of all that is wrong with a policy one violation is reported. The policy is read part by part
(`Policy.parts`): the namespace, the name, the blocks and ports of the ingress rules, the blocks,
selectors and ports of the egress rules. Each part is checked, a block first and then the blocks cut
out of it. What is wrong with the policy is what the failing checks say, in that order
(`Policy.violations_eq`), so that the violation that is reported is that of the first of them, and
nothing after its part has a say in it.

Main statement: `Policy.violation?_eq_some_iff_isFirst`.
-/

namespace ClusterFirewall

/-! ## Parts and checks -/

/-- A part of a policy. Those of rules are numbered by the rule. -/
inductive Part where
  /-- The namespace; the name beside it is shown only. -/
  | space (key : PolicyKey)
  /-- The name. -/
  | name (name : String)
  /-- A block that an ingress rule lets traffic come from. -/
  | source (index : Nat) (block : IpBlock)
  /-- A port of an ingress rule. -/
  | ingressPort (index : Nat) (port : PolicyPort)
  /-- A block that an egress rule lets traffic go to. -/
  | destination (index : Nat) (block : IpBlock)
  /-- A selector of an egress rule. -/
  | selector (index : Nat) (selector : Selector)
  /-- A port of an egress rule. -/
  | egressPort (index : Nat) (port : PolicyPort)
  deriving DecidableEq, Repr

/-- Something that is asked of a part, with the field that it is in. -/
inductive Check where
  /-- The namespace is that of policies. -/
  | home (key : PolicyKey)
  /-- The name is not empty. -/
  | named (name : String)
  /-- The text of a block writes a network. -/
  | block (field : String) (block : IpBlock)
  /-- Where the text of a block writes a network, that of a block cut out of it writes one inside
  it. -/
  | cutOut (field : String) (block : IpBlock) (cidr : String)
  /-- A selector has a name or a pattern and not both. -/
  | selector (field : String) (selector : Selector)
  /-- A port is a port, and a range does not end below its start. -/
  | port (field : String) (port : PolicyPort)
  deriving DecidableEq, Repr

namespace Check

/-- What is asked. -/
def Passes : Check → Prop
  | home key => key.space = "firewall"
  | named name => name ≠ ""
  | block _ b => ∃ n, Network.parse? b.cidr = some n
  | cutOut _ b cidr => ∀ n, Network.parse? b.cidr = some n →
      ∃ m, Network.parse? cidr = some m ∧ m.addresses ⊆ n.addresses
  | selector _ s => s.IsSingle
  | port _ p => p.IsOrdered

/-- The field of a check. -/
def field : Check → String
  | home _ => "metadata.namespace"
  | named _ => "metadata.name"
  | block field _ | cutOut field _ _ | selector field _ | port field _ => field

/-- What is said of a check that fails. -/
def complaint : Check → String
  | home key => "policy " ++ key.text ++ " must live in namespace " ++ Policy.home
  | named _ => "name must not be empty"
  | block _ b => "invalid CIDR " ++ b.cidr
  | cutOut _ b cidr =>
    if (Network.parse? cidr).isNone then "invalid except CIDR " ++ cidr
    else "except " ++ cidr ++ " is not within " ++ b.cidr
  | selector _ s =>
    if s.matchName = "" then "selector needs a matchName or a matchPattern"
    else "selector sets both matchName " ++ s.matchName ++ " and matchPattern " ++ s.matchPattern
  | port _ p =>
    if p.port = 0 then "port must be between 1 and 65535"
    else "end port " ++ toString (p.endPort.getD 0).toNat ++ " is below start port " ++
      toString p.port.toNat

/-- The violation of a check that fails. -/
def violation (c : Check) : Violation := ⟨c.field, c.complaint⟩

end Check

instance : DecidablePred Check.Passes
  | .home key => inferInstanceAs (Decidable (key.space = "firewall"))
  | .named name => inferInstanceAs (Decidable (name ≠ ""))
  | .block _ b =>
    decidable_of_iff ((Network.parse? b.cidr).isSome = true) Option.isSome_iff_exists
  | .cutOut field b cidr =>
    decidable_of_iff (∀ n ∈ Network.parse? b.cidr, exceptViolation? field b n cidr = none)
      (forall₂_congr fun _ _ => exceptViolation?_eq_none_iff)
  | .selector field s =>
    decidable_of_iff (s.violations field = []) Selector.violations_eq_nil_iff
  | .port field p => decidable_of_iff (p.violations field = []) PolicyPort.violations_eq_nil_iff

/-- What the failing ones of some checks say. -/
def failures (checks : List Check) : List Violation :=
  (checks.filter fun c => decide (¬ c.Passes)).map Check.violation

namespace Part

/-- The field of a part. -/
def field : Part → String
  | space _ => "metadata.namespace"
  | .name _ => "metadata.name"
  | source index _ => "spec.ingress[" ++ toString index ++ "].from"
  | ingressPort index _ => "spec.ingress[" ++ toString index ++ "].ports"
  | destination index _ => "spec.egress[" ++ toString index ++ "].to"
  | .selector index _ => "spec.egress[" ++ toString index ++ "].toFQDNs"
  | egressPort index _ => "spec.egress[" ++ toString index ++ "].ports"

/-- The checks of a part: a block comes before the blocks cut out of it. -/
def checks (x : Part) : List Check :=
  match x with
  | .space key => [.home key]
  | .name n => [.named n]
  | .source _ b | .destination _ b => .block x.field b :: b.except.map (.cutOut x.field b)
  | .selector _ s => [.selector x.field s]
  | .ingressPort _ p | .egressPort _ p => [.port x.field p]

/-- Nothing is wrong with a part. -/
def Passes (x : Part) : Prop := ∀ c ∈ x.checks, c.Passes

instance : DecidablePred Passes := fun x => inferInstanceAs (Decidable (∀ c ∈ x.checks, c.Passes))

end Part

/-- The parts of the ingress rule of an index. -/
def IngressRule.parts (index : Nat) (e : IngressRule) : List Part :=
  e.sources.map (.source index) ++ e.ports.map (.ingressPort index)

/-- The parts of the egress rule of an index. -/
def EgressRule.parts (index : Nat) (e : EgressRule) : List Part :=
  e.destinations.map (.destination index) ++ e.selectors.map (.selector index) ++
    e.ports.map (.egressPort index)

namespace Policy

/-- The parts of a policy in reading order. -/
def parts (p : Policy) : List Part :=
  [.space p.key, .name p.name] ++ p.spec.ingress.zipIdx.flatMap (fun e => e.1.parts e.2) ++
    p.spec.egress.zipIdx.flatMap (fun e => e.1.parts e.2)

/-- The checks of a policy in reading order. -/
def checks (p : Policy) : List Check := p.parts.flatMap Part.checks

/-- The policy has a part: those of rules are in the rule of their index. -/
def Has (p : Policy) : Part → Prop
  | .space key => key = p.key
  | .name n => n = p.name
  | .source index b => ∃ e, p.spec.ingress[index]? = some e ∧ b ∈ e.sources
  | .ingressPort index q => ∃ e, p.spec.ingress[index]? = some e ∧ q ∈ e.ports
  | .destination index b => ∃ e, p.spec.egress[index]? = some e ∧ b ∈ e.destinations
  | .selector index s => ∃ e, p.spec.egress[index]? = some e ∧ s ∈ e.selectors
  | .egressPort index q => ∃ e, p.spec.egress[index]? = some e ∧ q ∈ e.ports

end Policy

/-! ## What is wrong is what the failing checks say -/

section failures

variable {c : Check} {cs ds : List Check} {field : String}

@[simp]
theorem failures_nil : failures [] = [] := rfl

theorem failures_append : failures (cs ++ ds) = failures cs ++ failures ds := by
  simp [failures]

theorem failures_flatMap {α : Type} {l : List α} {f : α → List Check} :
    failures (l.flatMap f) = l.flatMap fun a => failures (f a) := by
  induction l with
  | nil => rfl
  | cons a l ih => rw [List.flatMap_cons, failures_append, ih, List.flatMap_cons]

theorem failures_cons :
    failures (c :: cs) = (if c.Passes then [] else [c.violation]) ++ failures cs := by
  by_cases h : c.Passes <;> simp [failures, h]

theorem eq_failures_singleton {vs : List Violation} (hpasses : c.Passes → vs = [])
    (hfails : ¬ c.Passes → vs = [c.violation]) : vs = failures [c] := by
  rw [failures_cons, failures_nil, List.append_nil]
  split
  · exact hpasses ‹_›
  · exact hfails ‹_›

theorem failures_eq_nil_iff : failures cs = [] ↔ ∀ c ∈ cs, c.Passes := by
  simp [failures, List.filter_eq_nil_iff]

/-- The first failure is that of the first failing check. -/
theorem head?_failures_eq_some_iff {v : Violation} :
    (failures cs).head? = some v ↔ ∃ c, IsFirst cs (fun c => ¬ c.Passes) c ∧ c.violation = v := by
  simp only [failures, List.head?_map, List.head?_filter, Option.map_eq_some_iff,
    isFirst_iff_find?]

end failures

/-- What is found of a block that is cut out is what its check says. -/
theorem failures_map_cutOut {field : String} {b : IpBlock} {n : Network}
    (hparse : Network.parse? b.cidr = some n) (cidrs : List String) :
    cidrs.filterMap (exceptViolation? field b n) = failures (cidrs.map (.cutOut field b)) := by
  have hpasses : ∀ cidr, (Check.cutOut field b cidr).Passes ↔
      exceptViolation? field b n cidr = none := by
    intro cidr
    rw [exceptViolation?_eq_none_iff]
    exact ⟨fun h => h n hparse, fun h n' hn' => by rwa [← Option.some.inj (hparse.symm.trans hn')]⟩
  have hfails : ∀ cidr v, exceptViolation? field b n cidr = some v →
      v = (Check.cutOut field b cidr).violation := by
    intro cidr v hv
    unfold exceptViolation? at hv
    simp only [Check.violation, Check.field, Check.complaint]
    split at hv
    · rename_i hcidr
      cases hv
      rw [if_pos (Option.isNone_iff_eq_none.2 hcidr)]
      rfl
    · rename_i m hcidr
      split at hv <;> cases hv
      rw [if_neg (by simp [hcidr])]
      rfl
  induction cidrs with
  | nil => rfl
  | cons cidr cidrs ih =>
    rw [List.map_cons, failures_cons, ← ih, List.filterMap_cons]
    cases hv : exceptViolation? field b n cidr with
    | none => rw [if_pos ((hpasses cidr).2 hv)]; rfl
    | some v =>
      rw [if_neg fun h => by simp [(hpasses cidr).1 h] at hv, hfails cidr v hv]
      rfl

/-- A block is asked to be a network, and then the blocks cut out of it are. -/
theorem IpBlock.violations_eq {field : String} {b : IpBlock} :
    b.violations field = failures (.block field b :: b.except.map (.cutOut field b)) := by
  unfold violations
  rw [failures_cons]
  cases hparse : Network.parse? b.cidr with
  | none =>
    -- Nothing is asked of what is cut out of a block that is no network.
    have hcuts : failures (b.except.map (.cutOut field b)) = [] := by
      simp [failures_eq_nil_iff, Check.Passes, hparse]
    rw [if_neg (by simp [Check.Passes, hparse]), hcuts]
    rfl
  | some n => rw [if_pos ⟨n, hparse⟩, List.nil_append, ← failures_map_cutOut hparse]

theorem Selector.violations_eq {field : String} {s : Selector} :
    s.violations field = failures [.selector field s] := by
  refine eq_failures_singleton violations_eq_nil_iff.2 fun hfails => ?_
  have hsingle : ¬ s.IsSingle := hfails
  simp only [IsSingle, ← String.isEmpty_iff] at hsingle
  simp only [violations, Check.violation, Check.field, Check.complaint, ← String.isEmpty_iff]
  -- The two texts are both empty or both not.
  cases hname : s.matchName.isEmpty <;> cases hpattern : s.matchPattern.isEmpty
  case true.true | false.false => rfl
  all_goals simp_all

theorem PolicyPort.violations_eq {field : String} {p : PolicyPort} :
    p.violations field = failures [.port field p] := by
  refine eq_failures_singleton violations_eq_nil_iff.2 fun hfails => ?_
  have hnot : p.violations field ≠ [] := mt violations_eq_nil_iff.1 hfails
  simp only [violations, Check.violation, Check.field, Check.complaint] at hnot ⊢
  split
  · rfl
  · rename_i hport
    rw [if_neg hport] at hnot
    cases hend : p.endPort with
    | none => simp [hend] at hnot
    | some last =>
      simp only [hend] at hnot ⊢
      by_cases hlast : last < p.port
      · rw [if_pos hlast]
        rfl
      · simp [if_neg hlast] at hnot

/-- Parts are listed one after the other, and so is what is wrong with them. -/
theorem flatMap_eq_failures {α : Type} {part : α → Part} {found : α → List Violation}
    (h : ∀ a, found a = failures (part a).checks) (l : List α) :
    l.flatMap found = failures ((l.map part).flatMap Part.checks) := by
  rw [failures_flatMap, List.flatMap_map, funext h]

theorem IngressRule.violations_eq {index : Nat} {e : IngressRule} :
    e.violations index = failures ((e.parts index).flatMap Part.checks) := by
  rw [parts, List.flatMap_append, failures_append,
    ← flatMap_eq_failures fun _ => IpBlock.violations_eq,
    ← flatMap_eq_failures fun _ => PolicyPort.violations_eq]
  rfl

theorem EgressRule.violations_eq {index : Nat} {e : EgressRule} :
    e.violations index = failures ((e.parts index).flatMap Part.checks) := by
  rw [parts, List.flatMap_append, List.flatMap_append, failures_append, failures_append,
    ← flatMap_eq_failures fun _ => IpBlock.violations_eq,
    ← flatMap_eq_failures fun _ => Selector.violations_eq,
    ← flatMap_eq_failures fun _ => PolicyPort.violations_eq]
  rfl

namespace Policy

theorem spaceViolations_eq {p : Policy} :
    p.spaceViolations = failures (Part.space p.key).checks := by
  refine eq_failures_singleton spaceViolations_eq_nil_iff.2 fun hfails => ?_
  have hspace : p.space ≠ home := hfails
  rw [spaceViolations, if_neg hspace]
  rfl

theorem nameViolations_eq {p : Policy} : p.nameViolations = failures (Part.name p.name).checks := by
  refine eq_failures_singleton nameViolations_eq_nil_iff.2 fun hfails => ?_
  have hname : ¬ p.name ≠ "" := hfails
  rw [nameViolations, if_pos (by simpa using hname)]
  rfl

/-- What is wrong with a policy is what its failing checks say. -/
theorem violations_eq (p : Policy) : p.violations = failures p.checks := by
  simp only [violations, checks, parts, List.flatMap_append, failures_append, List.flatMap_assoc,
    List.flatMap_cons, List.flatMap_nil, List.append_nil, failures_flatMap (l := List.zipIdx _),
    ← IngressRule.violations_eq, ← EgressRule.violations_eq, ← spaceViolations_eq,
    ← nameViolations_eq]

/-- The parts of a policy are parts that it has: those of a rule bear its index. -/
theorem has_of_mem_parts {p : Policy} {x : Part} (hx : x ∈ p.parts) : p.Has x := by
  simp only [parts, List.mem_append, List.mem_cons, List.not_mem_nil, or_false, List.mem_flatMap,
    Prod.exists, List.mem_zipIdx_iff_getElem?] at hx
  rcases hx with ((rfl | rfl) | ⟨e, index, he, hx⟩) | ⟨e, index, he, hx⟩
  · rfl
  · rfl
  · simp only [IngressRule.parts, List.mem_append, List.mem_map] at hx
    rcases hx with ⟨b, hb, rfl⟩ | ⟨q, hq, rfl⟩
    · exact ⟨e, he, hb⟩
    · exact ⟨e, he, hq⟩
  · simp only [EgressRule.parts, List.mem_append, List.mem_map] at hx
    rcases hx with (⟨b, hb, rfl⟩ | ⟨s, hs, rfl⟩) | ⟨q, hq, rfl⟩
    · exact ⟨e, he, hb⟩
    · exact ⟨e, he, hs⟩
    · exact ⟨e, he, hq⟩

end Policy

/-- The checks of a part are in its field. -/
theorem Check.field_of_mem_checks {x : Part} {c : Check} (hc : c ∈ x.checks) :
    c.field = x.field := by
  cases x <;> simp only [Part.checks, List.mem_cons, List.mem_map, List.not_mem_nil, or_false] at hc
  case source | destination => obtain rfl | ⟨cidr, -, rfl⟩ := hc <;> rfl
  all_goals subst hc; rfl

/-! ## What comes after the part -/

/-- Two lists have an element at an index, and the same elements before it. -/
structure MeetAt {α : Type} (index : Nat) (xs ys : List α) (x y : α) : Prop where
  before : xs.take index = ys.take index
  left : xs[index]? = some x
  right : ys[index]? = some y

/-- Two policies are the same up to a part, which both have; what comes after it may be anything. -/
inductive Policy.SameUpTo (p p' : Policy) : Part → Prop where
  /-- Up to the namespace, with the name that is shown beside it. -/
  | space (hkey : p.key = p'.key) : SameUpTo p p' (.space p.key)
  /-- Up to the name. -/
  | name (hkey : p.key = p'.key) : SameUpTo p p' (.name p.name)
  /-- Up to a block of an ingress rule. -/
  | source {index k : Nat} {e e' : IngressRule} {b : IpBlock} (hkey : p.key = p'.key)
      (hrule : MeetAt index p.spec.ingress p'.spec.ingress e e')
      (hblock : MeetAt k e.sources e'.sources b b) : SameUpTo p p' (.source index b)
  /-- Up to a port of an ingress rule. -/
  | ingressPort {index k : Nat} {e e' : IngressRule} {q : PolicyPort} (hkey : p.key = p'.key)
      (hrule : MeetAt index p.spec.ingress p'.spec.ingress e e') (hsources : e.sources = e'.sources)
      (hport : MeetAt k e.ports e'.ports q q) : SameUpTo p p' (.ingressPort index q)
  /-- Up to a block of an egress rule. -/
  | destination {index k : Nat} {e e' : EgressRule} {b : IpBlock} (hkey : p.key = p'.key)
      (hingress : p.spec.ingress = p'.spec.ingress)
      (hrule : MeetAt index p.spec.egress p'.spec.egress e e')
      (hblock : MeetAt k e.destinations e'.destinations b b) : SameUpTo p p' (.destination index b)
  /-- Up to a selector. -/
  | selector {index k : Nat} {e e' : EgressRule} {s : Selector} (hkey : p.key = p'.key)
      (hingress : p.spec.ingress = p'.spec.ingress)
      (hrule : MeetAt index p.spec.egress p'.spec.egress e e')
      (hdestinations : e.destinations = e'.destinations)
      (hselector : MeetAt k e.selectors e'.selectors s s) : SameUpTo p p' (.selector index s)
  /-- Up to a port of an egress rule. -/
  | egressPort {index k : Nat} {e e' : EgressRule} {q : PolicyPort} (hkey : p.key = p'.key)
      (hingress : p.spec.ingress = p'.spec.ingress)
      (hrule : MeetAt index p.spec.egress p'.spec.egress e e')
      (hdestinations : e.destinations = e'.destinations) (hselectors : e.selectors = e'.selectors)
      (hport : MeetAt k e.ports e'.ports q q) : SameUpTo p p' (.egressPort index q)

/-- Two lists begin with the same elements, up to one that both have. -/
def Share {α : Type} (x : α) (xs ys : List α) : Prop :=
  ∃ before after after', xs = before ++ x :: after ∧ ys = before ++ x :: after'

section Share

variable {α β : Type} {x : α} {xs ys : List α}

theorem Share.append_left (h : Share x xs ys) (before : List α) :
    Share x (before ++ xs) (before ++ ys) := by
  obtain ⟨b, a, a', rfl, rfl⟩ := h
  exact ⟨before ++ b, a, a', by simp, by simp⟩

theorem Share.append_right (h : Share x xs ys) (after after' : List α) :
    Share x (xs ++ after) (ys ++ after') := by
  obtain ⟨b, a, a', rfl, rfl⟩ := h
  exact ⟨b, a ++ after, a' ++ after', by simp, by simp⟩

theorem MeetAt.exists_append {index : Nat} {y z : β} {l l' : List β} (h : MeetAt index l l' y z) :
    ∃ before after after', before.length = index ∧
      l = before ++ y :: after ∧ l' = before ++ z :: after' := by
  obtain ⟨hlt, hleft⟩ := List.getElem?_eq_some_iff.1 h.left
  obtain ⟨hlt', hright⟩ := List.getElem?_eq_some_iff.1 h.right
  refine ⟨l.take index, l.drop (index + 1), l'.drop (index + 1), by simp; omega, ?_, ?_⟩
  · rw [← hleft, List.getElem_cons_drop, List.take_append_drop]
  · rw [h.before, ← hright, List.getElem_cons_drop, List.take_append_drop]

theorem MeetAt.share_map {index : Nat} {y : β} {l l' : List β} (h : MeetAt index l l' y y)
    (f : β → α) : Share (f y) (l.map f) (l'.map f) := by
  obtain ⟨b, a, a', -, rfl, rfl⟩ := h.exists_append
  exact ⟨b.map f, a.map f, a'.map f, by simp, by simp⟩

/-- Lists made rule by rule share what is made of the rule where they meet. -/
theorem MeetAt.share_flatMap {index : Nat} {y z : β} {l l' : List β} (h : MeetAt index l l' y z)
    {f : Nat → β → List α} (hshare : Share x (f index y) (f index z)) :
    Share x (l.zipIdx.flatMap fun e => f e.2 e.1) (l'.zipIdx.flatMap fun e => f e.2 e.1) := by
  obtain ⟨b, a, a', rfl, rfl, rfl⟩ := h.exists_append
  simp only [List.zipIdx_append, List.zipIdx_cons, List.flatMap_append, List.flatMap_cons,
    Nat.zero_add]
  exact (hshare.append_right _ _).append_left _

end Share

/-- Policies that are the same up to a part have the same parts up to it. -/
theorem Policy.SameUpTo.share_parts {p p' : Policy} {x : Part} (h : p.SameUpTo p' x) :
    Share x p.parts p'.parts := by
  have hname : p.key = p'.key → p.name = p'.name := fun hkey => congrArg PolicyKey.name hkey
  cases h with
  | space hkey => exact ⟨[], _, _, rfl, by rw [hkey]; rfl⟩
  | name hkey => exact ⟨[.space p.key], _, _, rfl, by rw [hkey, hname hkey]; rfl⟩
  | source hkey hrule hblock =>
    rw [parts, parts, ← hkey, ← hname hkey]
    refine ((hrule.share_flatMap ?_).append_left _).append_right _ _
    exact (hblock.share_map _).append_right _ _
  | ingressPort hkey hrule hsources hport =>
    rw [parts, parts, ← hkey, ← hname hkey]
    refine ((hrule.share_flatMap ?_).append_left _).append_right _ _
    rw [IngressRule.parts, IngressRule.parts, hsources]
    exact (hport.share_map _).append_left _
  | destination hkey hingress hrule hblock =>
    rw [parts, parts, ← hkey, ← hname hkey, ← hingress]
    refine (hrule.share_flatMap ?_).append_left _
    exact ((hblock.share_map _).append_right _ _).append_right _ _
  | selector hkey hingress hrule hdestinations hselector =>
    rw [parts, parts, ← hkey, ← hname hkey, ← hingress]
    refine (hrule.share_flatMap ?_).append_left _
    rw [EgressRule.parts, EgressRule.parts, hdestinations]
    exact ((hselector.share_map _).append_left _).append_right _ _
  | egressPort hkey hingress hrule hdestinations hselectors hport =>
    rw [parts, parts, ← hkey, ← hname hkey, ← hingress]
    refine (hrule.share_flatMap ?_).append_left _
    rw [EgressRule.parts, EgressRule.parts, hdestinations, hselectors]
    exact (hport.share_map _).append_left _

/-- Nothing after a part in which something is wrong has a say in what is reported. -/
theorem Policy.SameUpTo.violation?_eq {p p' : Policy} {x : Part} (h : p.SameUpTo p' x)
    (hx : ¬ x.Passes) : p'.violation? = p.violation? := by
  obtain ⟨before, after, after', hparts, hparts'⟩ := h.share_parts
  have hfails : failures x.checks ≠ [] := mt failures_eq_nil_iff.1 hx
  obtain ⟨v, vs, hv⟩ := List.exists_cons_of_ne_nil hfails
  simp only [violation?, violations_eq, checks, hparts, hparts', List.flatMap_append,
    List.flatMap_cons, failures_append, hv, List.head?_append, List.cons_append, List.head?_cons,
    Option.or_some]

/-! ## The violation that is reported -/

/-- The violation that is reported is that of the first failing check of the policy. It is in the
field of a part of the policy, the first one in which something is wrong, and every policy that is
the same up to that part is reported with the same field and the same text. -/
theorem Policy.violation?_eq_some_iff_isFirst (p : Policy) (v : Violation) :
    (p.violation? = some v ↔
      ∃ c, IsFirst p.checks (fun c => ¬ c.Passes) c ∧ c.violation = v) ∧
    (p.violation? = some v → ∃ x, p.Has x ∧ v.field = x.field ∧
      IsFirst p.parts (fun x => ¬ x.Passes) x ∧
      (∃ c, IsFirst x.checks (fun c => ¬ c.Passes) c ∧ c.violation = v) ∧
      ∀ p', p.SameUpTo p' x → p'.violation? = some v) := by
  have hfirst : p.violation? = some v ↔
      ∃ c, IsFirst p.checks (fun c => ¬ c.Passes) c ∧ c.violation = v := by
    rw [violation?, violations_eq, head?_failures_eq_some_iff]
  refine ⟨hfirst, fun hv => ?_⟩
  obtain ⟨c, hc, rfl⟩ := hfirst.1 hv
  obtain ⟨x, hx, hcheck⟩ := isFirst_flatMap_iff.1 hc
  have hpart : IsFirst p.parts (fun x => ¬ x.Passes) x :=
    (isFirst_congr fun x => by simp [Part.Passes]).1 hx
  exact ⟨x, has_of_mem_parts hpart.mem, Check.field_of_mem_checks hcheck.mem, hpart,
    ⟨c, hcheck, rfl⟩, fun p' hsame => (hsame.violation?_eq hpart.prop).trans hv⟩

/-- A policy in which much is wrong: first, in the second ingress rule, a block that is cut out of
another one. -/
def Policy.careless : Policy := .named "web"
  ⟨[⟨[⟨"10.0.0.0/8", []⟩], []⟩,
    ⟨[⟨"10.0.0.0/8", ["10.1.0.0/16", "11.0.0.0/8", "none"]⟩, ⟨"all", []⟩], [⟨none, 0, none⟩]⟩],
   [⟨[], [⟨"", "", []⟩], [⟨none, 80, some 79⟩]⟩]⟩

/-- The same policy with that block as the last thing that is wrong. -/
def Policy.lessCareless : Policy := .named "web"
  ⟨[⟨[⟨"10.0.0.0/8", []⟩], []⟩, ⟨[⟨"10.0.0.0/8", ["10.1.0.0/16", "11.0.0.0/8", "none"]⟩], []⟩], []⟩

theorem Policy.violation?_lessCareless :
    careless.violation? =
      some ⟨"spec.ingress[1].from", "except 11.0.0.0/8 is not within 10.0.0.0/8"⟩ ∧
    lessCareless.violation? = careless.violation? := by
  have hviolation : careless.violation? =
      some ⟨"spec.ingress[1].from", "except 11.0.0.0/8 is not within 10.0.0.0/8"⟩ := by
    decide +kernel
  obtain ⟨x, -, -, hx, -, hsame⟩ := (violation?_eq_some_iff_isFirst careless _).2 hviolation
  -- The part is computed by a search.
  have hblock : some x = some
      (.source 1 ⟨"10.0.0.0/8", ["10.1.0.0/16", "11.0.0.0/8", "none"]⟩) := by
    rw [← isFirst_iff_find?.1 hx]
    decide +kernel
  cases hblock
  exact ⟨hviolation, (hsame lessCareless
    (.source (k := 0) rfl ⟨rfl, rfl, rfl⟩ ⟨rfl, rfl, rfl⟩)).trans hviolation.symm⟩

end ClusterFirewall
