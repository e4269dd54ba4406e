import ClusterFirewall.Proofs.Ruleset.Meaning
import ClusterFirewall.Proofs.Text.Rows
import ClusterFirewall.Ruleset.Basic

/-!
# What stands in the line of a rule

The line of a rule is its statement and a comment between quotes. The statement of a `Plain` rule
has no quote and no line break in it, whatever the blocks and the names of sets are. So the only
text in a policy's line that is not known to be harmless is the policy's own name, which stands in
the comment as it is.

Main statement: `Policy.line_contained_iff`, the lines of a valid policy have their two quotes and
no line break exactly if its name has neither, and each is one row of its chain if the name has no
line feed.
-/

namespace ClusterFirewall

/-! ## Characters -/

/-- A character that neither quotes nor breaks a line. -/
def isInline (c : Char) : Bool := c != '"' && !Text.isLineBreak c

def Inline (s : String) : Prop := ∀ c ∈ s.toList, isInline c

instance (s : String) : Decidable (Inline s) :=
  decidable_of_iff (s.toList.all isInline) List.all_eq_true

/-- The characters of addresses, prefixes and ports. -/
def isAddressChar (c : Char) : Bool :=
  isElementChar c || ('a' ≤ c && c ≤ 'f') || ('A' ≤ c && c ≤ 'F') || c == ':'

/-- The characters of names that need no quotes. -/
def isNameChar (c : Char) : Bool :=
  c.isAlphanum || c == '_' || c == '.' || c == '/' || c == '-'

/-- A text that is written like an address or a prefix. -/
def IsAddressText (s : String) : Prop := ∀ c ∈ s.toList, isAddressChar c

/-- A plain identifier. -/
structure IsName (s : String) : Prop where
  ne_empty : s ≠ ""
  chars : ∀ c ∈ s.toList, isNameChar c

instance (s : String) : Decidable (IsAddressText s) :=
  decidable_of_iff (s.toList.all isAddressChar) List.all_eq_true

instance (s : String) : Decidable (IsName s) :=
  decidable_of_iff (s ≠ "" ∧ s.toList.all isNameChar)
    ⟨fun h => ⟨h.1, List.all_eq_true.1 h.2⟩, fun h => ⟨h.ne_empty, List.all_eq_true.2 h.chars⟩⟩

theorem isInline_of_toNat {c : Char} (h : 35 ≤ c.toNat ∧ c.toNat < 128) : isInline c := by
  have hquote : c ≠ '"' := by
    rintro rfl
    exact absurd h.1 (by decide)
  have hbreak : Text.isLineBreak c = false := by
    simp only [Text.isLineBreak, Bool.or_eq_false_iff, Bool.and_eq_false_iff,
      decide_eq_false_iff_not, beq_eq_false_iff_ne]
    omega
  simp [isInline, hquote, hbreak]

theorem toNat_of_isAlphanum {c : Char} (h : c.isAlphanum) : 48 ≤ c.toNat ∧ c.toNat ≤ 122 := by
  have hspans : (decide (c.val ≥ 'A'.val ∧ c.val ≤ 'Z'.val) ||
      (decide (c.val ≥ 'a'.val) && decide (c.val ≤ 'z'.val)) || c.isDigit) = true := h
  simp only [Bool.or_eq_true, Bool.and_eq_true, decide_eq_true_eq, Char.isDigit_iff_toNat,
    UInt32.le_iff_toNat_le, ge_iff_le] at hspans
  have hval : c.val.toNat = c.toNat := rfl
  simp only [Char.reduceVal, Char.reduceToNat, hval, UInt32.reduceToNat] at hspans
  omega

theorem toNat_of_isNameChar {c : Char} (h : isNameChar c) : 45 ≤ c.toNat ∧ c.toNat ≤ 122 := by
  simp only [isNameChar, Bool.or_eq_true, beq_iff_eq] at h
  rcases h with (((h | rfl) | rfl) | rfl) | rfl
  · have hrange := toNat_of_isAlphanum h
    omega
  all_goals decide

theorem toNat_of_isAddressChar {c : Char} (h : isAddressChar c) :
    43 ≤ c.toNat ∧ c.toNat ≤ 102 := by
  simp only [isAddressChar, isElementChar, Bool.or_eq_true, Bool.and_eq_true, beq_iff_eq,
    decide_eq_true_eq, Char.isDigit_iff_toNat, Char.le_def, UInt32.le_iff_toNat_le] at h
  have hval : c.val.toNat = c.toNat := rfl
  simp only [Char.reduceVal, Char.reduceToNat, hval, UInt32.reduceToNat] at h
  rcases h with ((((((h | rfl) | rfl) | rfl) | rfl) | h) | h) | rfl
  all_goals first | omega | decide

theorem isInline_of_isNameChar {c : Char} (h : isNameChar c) : isInline c := by
  have hrange := toNat_of_isNameChar h
  exact isInline_of_toNat (by omega)

theorem isInline_of_isAddressChar {c : Char} (h : isAddressChar c) : isInline c := by
  have hrange := toNat_of_isAddressChar h
  exact isInline_of_toNat (by omega)

theorem isAddressChar_of_isElementChar {c : Char} (h : isElementChar c) : isAddressChar c := by
  simp [isAddressChar, h]

theorem IsAddressText.of_parse? {s : String} (h : (Network.parse? s).isSome) :
    IsAddressText s := by
  obtain ⟨n, hn⟩ := Option.isSome_iff_exists.1 h
  exact fun c hc => isAddressChar_of_isElementChar (Network.isElementChar_of_parse? hn c hc)

theorem PortSpan.isAddressText_text (s : PortSpan) : IsAddressText s.text :=
  fun c hc => isAddressChar_of_isElementChar (s.isElementChar_text c hc)

theorem isAddressText_of_mem_spans (spans : List PortSpan) :
    ∀ s ∈ spans.map PortSpan.text, IsAddressText s := by
  intro s hs
  obtain ⟨span, -, rfl⟩ := List.mem_map.1 hs
  exact span.isAddressText_text

/-! ## Texts without quotes and line breaks -/

theorem forall_mem_setText {p : Char → Bool} (hmarks : ['\x7b', ' ', ',', '\x7d'].all p)
    {items : List String} (h : ∀ s ∈ items, ∀ c ∈ s.toList, p c) :
    ∀ c ∈ (setText items).toList, p c := by
  have hmark : ∀ mark : String, mark.toList ⊆ ['\x7b', ' ', ',', '\x7d'] →
      ∀ c ∈ mark.toList, p c := fun mark hsub c hc => List.all_eq_true.1 hmarks c (hsub hc)
  apply Text.forall_mem_append (Text.forall_mem_append (hmark _ (by decide)) ?_)
    (hmark _ (by decide))
  exact Text.forall_mem_intercalate (hmark _ (by decide)) h

namespace Inline

theorem append {s t : String} (hs : Inline s) (ht : Inline t) : Inline (s ++ t) :=
  Text.forall_mem_append hs ht

theorem of_isName {s : String} (h : IsName s) : Inline s :=
  fun c hc => isInline_of_isNameChar (h.chars c hc)

theorem of_isAddressText {s : String} (h : IsAddressText s) : Inline s :=
  fun c hc => isInline_of_isAddressChar (h c hc)

theorem setText {items : List String} (h : ∀ s ∈ items, Inline s) : Inline (setText items) :=
  forall_mem_setText (by decide) h

/-- A character that quotes or breaks a line does not occur in it. -/
theorem not_mem {s : String} (h : Inline s) {c : Char} (hc : isInline c = false) :
    c ∉ s.toList := by
  intro hmem
  rw [h c hmem] at hc
  cases hc

theorem count_eq_zero {s : String} (h : Inline s) {c : Char} (hc : isInline c = false) :
    s.toList.count c = 0 :=
  List.count_eq_zero.2 (h.not_mem hc)

end Inline

/-! ## Rules -/

/-- A clause whose blocks are written like prefixes and whose set has a plain name. -/
def Clause.Plain : Clause → Prop
  | .sourceIn blocks => ∀ b ∈ blocks, IsAddressText b
  | .sourceNotIn blocks => ∀ b ∈ blocks, IsAddressText b
  | .sourceInCluster => True
  | .destinationIn blocks => ∀ b ∈ blocks, IsAddressText b
  | .destinationNotIn blocks => ∀ b ∈ blocks, IsAddressText b
  | .destinationInSet name => IsName name

theorem Clause.inline_text {c : Clause} (h : c.Plain) : Inline c.text := by
  have hblocks : ∀ {blocks : List String}, (∀ b ∈ blocks, IsAddressText b) →
      Inline (setText blocks) := fun h => Inline.setText fun b hb => .of_isAddressText (h b hb)
  cases c with
  | sourceIn blocks => exact Inline.append (by decide) (hblocks h)
  | sourceNotIn blocks => exact Inline.append (by decide) (hblocks h)
  | sourceInCluster => decide
  | destinationIn blocks => exact Inline.append (by decide) (hblocks h)
  | destinationNotIn blocks => exact Inline.append (by decide) (hblocks h)
  | destinationInSet name => exact Inline.append (by decide) (.of_isName h)

namespace PortRule

/-- All clauses of a rule are plain. -/
def Plain (r : PortRule) : Prop := ∀ c ∈ r.clauses, c.Plain

theorem text_cons (c : Clause) (clauses : List Clause) (protocol : Protocol)
    (ports : List PortSpan) (comment : String) :
    (PortRule.mk (c :: clauses) protocol ports comment).text =
      c.text ++ " " ++ (PortRule.mk clauses protocol ports comment).text := by
  obtain ⟨part, parts, hparts⟩ := List.exists_cons_of_ne_nil
    (show clauses.map Clause.text ++
      [protocol.text ++ " dport " ++ setText (ports.map PortSpan.text), "counter", "accept",
        "comment \"" ++ comment ++ "\""] ≠ [] by simp)
  simp only [text, List.map_cons, List.cons_append, hparts, String.intercalate_cons_cons]

/-- What is left of a rule's line after its clauses. -/
theorem text_nil (protocol : Protocol) (ports : List PortSpan) (comment : String) :
    (PortRule.mk [] protocol ports comment).text =
      protocol.text ++ " " ++ ("dport" ++ " " ++ (setText (ports.map PortSpan.text) ++ " " ++
        ("counter accept comment" ++ " " ++ ("\"" ++ comment ++ "\"")))) := by
  apply String.toList_inj.1
  simp [text]

/-- Of the characters that quote or break a line, the line has those of its comment and the two
quotes around it. -/
theorem count_text {r : PortRule} (h : r.Plain) {c : Char} (hc : isInline c = false) :
    r.text.toList.count c = r.comment.toList.count c + if c = '"' then 2 else 0 := by
  obtain ⟨clauses, protocol, ports, comment⟩ := r
  have hblank : c ≠ ' ' := by
    rintro rfl
    exact absurd hc (by decide)
  -- Clause by clause from the front: none of them is counted, nor is the blank after it.
  induction clauses with
  | nil =>
    have hprotocol : Inline protocol.text := by cases protocol <;> decide
    have hports : Inline (setText (ports.map PortSpan.text)) :=
      .setText fun s hs => .of_isAddressText (isAddressText_of_mem_spans ports s hs)
    have hdport : Inline "dport" := by decide
    have hverdict : Inline "counter accept comment" := by decide
    rw [text_nil]
    -- What is left are the quotes and what stands between them.
    simp only [String.toList_append, List.count_append, hprotocol.count_eq_zero hc,
      hports.count_eq_zero hc, hdport.count_eq_zero hc, hverdict.count_eq_zero hc]
    by_cases hquote : c = '"'
    · subst hquote
      simp
      omega
    · simp [Ne.symm hblank, hquote, Ne.symm hquote]
  | cons clause clauses ih =>
    obtain ⟨hclause, hclauses⟩ := List.forall_mem_cons.1 h
    have hnone := (Clause.inline_text hclause).count_eq_zero hc
    rw [text_cons]
    simpa [hnone, Ne.symm hblank] using ih hclauses

end PortRule

/-! ## Policies -/

/-- A clause on blocks that are networks is plain, on either side and in either sense. -/
theorem plain_clauseUnlessEmpty {clause : List String → Clause}
    (hclause : clause ∈ [.sourceIn, .sourceNotIn, .destinationIn, .destinationNotIn])
    {blocks : List String} (h : ∀ cidr ∈ blocks, (Network.parse? cidr).isSome) :
    ∀ c ∈ clauseUnlessEmpty clause blocks, c.Plain := by
  rw [forall_mem_clauseUnlessEmpty, or_iff_not_imp_left]
  intro _
  have hplain : ∀ b ∈ blocks, IsAddressText b := fun b hb => .of_parse? (h b hb)
  simp only [List.mem_cons, List.not_mem_nil, or_false] at hclause
  rcases hclause with rfl | rfl | rfl | rfl <;> exact hplain

theorem IngressRule.plain_clauses {e : IngressRule} (h : ∀ b ∈ e.sources, b.Parses) :
    ∀ c ∈ e.clauses, c.Plain := by
  intro c hc
  rcases List.mem_append.1 hc with hc | hc
  · exact plain_clauseUnlessEmpty (by simp) (isSome_exceptedBlocks h) c hc
  · exact plain_clauseUnlessEmpty (by simp) (isSome_allowedBlocks h) c hc

theorem plain_destinationClauses {destinations : List IpBlock}
    (h : ∀ b ∈ destinations, b.Parses) : ∀ c ∈ destinationClauses destinations, c.Plain := by
  have hallowed : ∀ cidr ∈ (if allowedBlocks destinations = [allAddresses] then []
      else allowedBlocks destinations), (Network.parse? cidr).isSome := by
    split
    · simp
    · exact isSome_allowedBlocks h
  intro c hc
  rcases List.mem_append.1 hc with hc | hc
  · rcases List.mem_append.1 hc with hc | hc
    · obtain rfl := List.mem_singleton.1 hc
      trivial
    · exact plain_clauseUnlessEmpty (by simp) (isSome_exceptedBlocks h) c hc
  · exact plain_clauseUnlessEmpty (by simp) hallowed c hc

theorem EgressRule.plain_clauseLists {e : EgressRule} (hblocks : ∀ b ∈ e.destinations, b.Parses)
    (hnames : e.destinations.isEmpty → ∀ s ∈ e.selectors, ∀ name ∈ s.sets, IsName name) :
    ∀ clauses ∈ e.clauseLists, ∀ c ∈ clauses, c.Plain := by
  intro clauses hclauses
  unfold clauseLists at hclauses
  split at hclauses
  · rename_i hempty
    obtain ⟨name, hname, rfl⟩ := List.mem_map.1 hclauses
    obtain ⟨s, hs, hmem⟩ := List.mem_flatMap.1 hname
    simp only [List.forall_mem_cons, List.not_mem_nil, false_implies, implies_true, and_true]
    exact ⟨trivial, hnames hempty s hs name hmem⟩
  · obtain rfl := List.mem_singleton.1 hclauses
    exact plain_destinationClauses hblocks

namespace Policy

/-- A comment that shows the name of a policy, with harmless text around it. -/
def Names (p : Policy) (comment : String) : Prop :=
  ∃ before after, comment = before ++ p.name ++ after ∧ Inline before ∧ Inline after

theorem names_comment (p : Policy) {before : String} (hbefore : Inline before)
    (protocol : Protocol) : p.Names (before ++ p.name ++ " " ++ protocol.text) := by
  refine ⟨before, " " ++ protocol.text, ?_, hbefore, ?_⟩
  · apply String.toList_inj.1
    simp
  · cases protocol <;> decide

/-- The rules for traffic that may enter are plain and show the policy's name. -/
theorem plain_of_mem_ingressRules {p : Policy} (hp : p.isValid) {rule : PortRule}
    (hrule : rule ∈ p.ingressRules) : rule.Plain ∧ p.Names rule.comment := by
  obtain ⟨e, he, hmem⟩ := List.mem_flatMap.1 hrule
  obtain ⟨protocol, -, -, rfl⟩ := mem_portRules.1 hmem
  exact ⟨IngressRule.plain_clauses (parses_sources hp he), p.names_comment (by decide) protocol⟩

theorem plain_of_mem_egressRules {p : Policy} (hp : p.isValid)
    (hnames : ∀ s ∈ p.spec.resolvedSelectors, ∀ name ∈ s.sets, IsName name) {rule : PortRule}
    (hrule : rule ∈ p.egressRules) : rule.Plain ∧ p.Names rule.comment := by
  obtain ⟨e, he, hlists⟩ := List.mem_flatMap.1 hrule
  obtain ⟨clauses, hclauses, hmem⟩ := List.mem_flatMap.1 hlists
  obtain ⟨protocol, -, -, rfl⟩ := mem_portRules.1 hmem
  refine ⟨EgressRule.plain_clauseLists (parses_destinations hp he) ?_ clauses hclauses,
    p.names_comment (by decide) protocol⟩
  intro hempty s hs
  exact hnames s (PolicySpec.mem_resolvedSelectors.2 ⟨e, he, hempty, hs⟩)

/-- Every line that a valid policy compiles to is that of a plain rule. -/
theorem exists_rule_of_mem_compile {σ : Type} {r : Resolver σ}
    (hr : ∀ s create st, ∀ name ∈ (r.answer s create st).1, IsName name) {p : Policy}
    (hp : p.isValid) (st : σ) {line : String}
    (hline : line ∈ (p.compile r st).1.ingress ++ (p.compile r st).1.egress) :
    ∃ rule : PortRule, line = rule.text ∧ rule.Plain ∧ p.Names rule.comment := by
  rcases List.mem_append.1 hline with hline | hline
  · obtain ⟨rule, hrule, rfl⟩ := List.mem_map.1 (mem_sortUnique.1 hline)
    exact ⟨rule, rfl, plain_of_mem_ingressRules hp hrule⟩
  · -- The egress lines are those of the resolved policy, which has the same name.
    have hsame := eq_of_withoutSets (p.withoutSets_resolve r st)
    have hname : (p.resolve r st).1.name = p.name := (PolicyKey.mk.inj hsame.1).2
    have hnames : ∀ s ∈ (p.resolve r st).1.spec.resolvedSelectors, ∀ name ∈ s.sets,
        IsName name := by
      intro s hs name hmem
      obtain ⟨s', st', hsets⟩ := exists_answer_of_resolve hs
      rw [hsets] at hmem
      exact hr s' false st' name hmem
    obtain ⟨rule, hrule, rfl⟩ := List.mem_map.1 (mem_sortUnique.1 hline)
    obtain ⟨hplain, hcomment⟩ := plain_of_mem_egressRules (hsame.2.trans hp) hnames hrule
    rw [Names, hname] at hcomment
    exact ⟨rule, rfl, hplain, hcomment⟩

/-- The line of a plain rule that shows a policy's name has the quotes and line breaks of the name,
and two quotes more. -/
theorem count_line {p : Policy} {rule : PortRule} (hplain : rule.Plain)
    (hcomment : p.Names rule.comment) {c : Char} (hc : isInline c = false) :
    rule.text.toList.count c = p.name.toList.count c + if c = '"' then 2 else 0 := by
  obtain ⟨before, after, heq, hbefore, hafter⟩ := hcomment
  rw [PortRule.count_text hplain hc, heq, String.toList_append, String.toList_append,
    List.count_append, List.count_append, hbefore.count_eq_zero hc, hafter.count_eq_zero hc,
    Nat.zero_add, Nat.add_zero]

end Policy

/-! ## Chains -/

namespace Ruleset

/-- In the text of a ruleset, a line of a chain has a row of its own: the rows of the other lines of
the chain stand above it and below it. -/
def HasOwnRow (r : Ruleset) (chain : String) (rules : List String) (line : String) : Prop :=
  ∀ above below, rules = above ++ line :: below → ∃ before after,
    Text.rows r.text = before ++
      (("    chain " ++ chain ++ " \x7b") :: above.flatMap (fun l => Text.rows (indented l)) ++
        indented line :: below.flatMap (fun l => Text.rows (indented l)) ++ ["    \x7d"]) ++ after

theorem rows_text (r : Ruleset) : Text.rows r.text = r.lines.flatMap Text.rows ++ [""] :=
  Text.rows_join r.lines

/-- A line without a line feed has a row of its own in whichever chain it stands. -/
theorem hasOwnRow_of_lines {r : Ruleset} {chain : String} (hchain : '\n' ∉ chain.toList)
    {rules front back : List String} (hlines : r.lines = front ++ chainLines chain rules ++ back)
    {line : String} (hline : '\n' ∉ line.toList) : r.HasOwnRow chain rules line := by
  rintro above below rfl
  refine ⟨front.flatMap Text.rows, "" :: back.flatMap Text.rows ++ [""], ?_⟩
  have hopen : Text.rows ("    chain " ++ chain ++ " \x7b") =
      ["    chain " ++ chain ++ " \x7b"] := by
    apply Text.rows_of_not_mem
    simpa using hchain
  have hown : Text.rows (indented line) = [indented line] := by
    apply Text.rows_of_not_mem
    simpa [indented] using hline
  have hclose : Text.rows "    \x7d" = ["    \x7d"] := by decide
  have hempty : Text.rows "" = [""] := by decide
  -- The rows of the chain are those of its lines one after the other, between header and brace.
  have hblock : (chainLines chain (above ++ line :: below)).flatMap Text.rows =
      ("    chain " ++ chain ++ " \x7b") :: above.flatMap (fun l => Text.rows (indented l)) ++
        indented line :: below.flatMap (fun l => Text.rows (indented l)) ++ ["    \x7d", ""] := by
    have hheader : "    " ++ ("chain " ++ chain) ++ " \x7b" = "    chain " ++ chain ++ " \x7b" := by
      apply String.toList_inj.1
      simp
    rw [chainLines, block, List.flatMap_append, List.flatMap_append, List.flatMap_singleton,
      hheader, hopen, List.map_append, List.map_cons, List.flatMap_append,
      List.flatMap_cons, hown, List.flatMap_map, List.flatMap_map]
    simp [hclose, hempty]
  rw [rows_text, hlines, List.flatMap_append, List.flatMap_append, hblock]
  simp

theorem hasOwnRow {line : String} (hline : '\n' ∉ line.toList) (r : Ruleset) :
    r.HasOwnRow "forward_ingress" r.ingress line ∧ r.HasOwnRow "forward_egress" r.egress line := by
  constructor
  · apply hasOwnRow_of_lines (by decide) _ hline
    · exact ["table inet firewall \x7b"] ++ r.prefixLines ++ r.sets.flatMap setLines ++
        r.forwardLines
    · exact chainLines "forward_egress" r.egress ++ r.postroutingLines ++ ["\x7d"]
    · simp only [lines, List.append_assoc]
  · apply hasOwnRow_of_lines (by decide) _ hline
    · exact ["table inet firewall \x7b"] ++ r.prefixLines ++ r.sets.flatMap setLines ++
        r.forwardLines ++ chainLines "forward_ingress" r.ingress
    · exact r.postroutingLines ++ ["\x7d"]
    · simp only [lines, List.append_assoc]

end Ruleset

/-! ## The name in the comment -/

namespace Policy

/-- The lines of a valid policy have no line break and only the two quotes around their comment
exactly if the policy's name has neither, and if the name has no line feed, each line has a row of
its own in any ruleset. -/
theorem line_contained_iff {σ : Type} {r : Resolver σ}
    (hr : ∀ s create st, ∀ name ∈ (r.answer s create st).1, IsName name) {p : Policy}
    (hp : p.isValid) (st : σ) :
    ∀ line ∈ (p.compile r st).1.ingress ++ (p.compile r st).1.egress,
      (((∀ c ∈ line.toList, ¬ Text.isLineBreak c) ∧ line.toList.count '"' = 2) ↔
        ∀ c ∈ p.name.toList, ¬ Text.isLineBreak c ∧ c ≠ '"') ∧
      ('\n' ∉ p.name.toList → ∀ ruleset : Ruleset,
        ruleset.HasOwnRow "forward_ingress" ruleset.ingress line ∧
          ruleset.HasOwnRow "forward_egress" ruleset.egress line) := by
  intro line hline
  obtain ⟨rule, rfl, hplain, hcomment⟩ := exists_rule_of_mem_compile hr hp st hline
  have hquotes := count_line hplain hcomment (c := '"') (by decide)
  -- A line break is no quote, so the line has it as often as the name.
  have hbreaks : ∀ c, Text.isLineBreak c → (c ∈ rule.text.toList ↔ c ∈ p.name.toList) := by
    intro c hc
    have hquote : c ≠ '"' := by
      rintro rfl
      exact absurd hc (by decide)
    have hcount := count_line hplain hcomment (c := c) (by simp [isInline, hc])
    rw [if_neg hquote, Nat.add_zero] at hcount
    rw [← List.count_pos_iff, ← List.count_pos_iff, hcount]
  refine ⟨?_, fun hname ruleset => ?_⟩
  · rw [if_pos rfl] at hquotes
    constructor
    · rintro ⟨hline, htwo⟩ c hc
      have hnone : p.name.toList.count '"' = 0 := by omega
      refine ⟨fun hbreak => hline c ((hbreaks c hbreak).2 hc) hbreak, ?_⟩
      rintro rfl
      exact List.count_eq_zero.1 hnone hc
    · intro hname
      have hnone : p.name.toList.count '"' = 0 :=
        List.count_eq_zero.2 fun hmem => (hname _ hmem).2 rfl
      exact ⟨fun c hc hbreak => (hname c ((hbreaks c hbreak).1 hc)).1 hbreak, by omega⟩
  · exact Ruleset.hasOwnRow (fun hmem => hname ((hbreaks '\n' (by decide)).1 hmem)) ruleset

/-- A policy with a plain name, blocks and a DNS name. -/
theorem line_contained_of_plain_name :
    let p : Policy := .named "web" ⟨[⟨[⟨"10.0.0.0/8", ["10.1.0.0/16"]⟩], [.single .tcp 443]⟩],
      [⟨[], [.ofName "example.com"], [.range .udp 8000 8080]⟩]⟩
    let r : Resolver Unit := .fixed (fun _ => ["example_v4"]) []
    p.isValid ∧ (p.compile r ()).1.ingress.length = 1 ∧ (p.compile r ()).1.egress.length = 1 ∧
      ∀ line ∈ (p.compile r ()).1.ingress ++ (p.compile r ()).1.egress,
        (∀ c ∈ line.toList, ¬ Text.isLineBreak c) ∧ line.toList.count '"' = 2 ∧
          ∀ ruleset : Ruleset, ruleset.HasOwnRow "forward_ingress" ruleset.ingress line ∧
            ruleset.HasOwnRow "forward_egress" ruleset.egress line := by
  intro p r
  have hr : ∀ s create st, ∀ name ∈ (r.answer s create st).1, IsName name := by
    intro s create st name hname
    obtain rfl := List.mem_singleton.1 hname
    decide
  have hp : p.isValid := by decide +kernel
  refine ⟨hp, by decide +kernel, by decide +kernel, fun line hline => ?_⟩
  obtain ⟨hiff, hrow⟩ := line_contained_iff hr hp () line hline
  have hname : ∀ c ∈ p.name.toList, ¬ Text.isLineBreak c ∧ c ≠ '"' := by
    intro c hc
    have hinline : isInline c := (show Inline p.name by decide) c hc
    simpa [isInline, and_comm] using hinline
  obtain ⟨hbreaks, hquotes⟩ := hiff.2 hname
  exact ⟨hbreaks, hquotes, hrow (by decide)⟩

/-- A name with quotes and a line feed is valid, and it ends the comment and the row. -/
theorem line_broken_by_name :
    let p : Policy := .named "a\"\n        accept comment \"b" ⟨[⟨[], [.single .tcp 80]⟩], []⟩
    let r : Resolver Unit := .fixed (fun _ => []) []
    p.isValid ∧ ∃ line ∈ (p.compile r ()).1.ingress ++ (p.compile r ()).1.egress,
      '\n' ∈ line.toList ∧ line.toList.count '"' = 4 := by
  intro p r
  have hp : p.isValid := by decide +kernel
  exact ⟨hp, by decide +kernel⟩

end Policy

end ClusterFirewall
