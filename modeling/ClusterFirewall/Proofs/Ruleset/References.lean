import ClusterFirewall.Proofs.Ruleset.Containment
import ClusterFirewall.Proofs.Text.Tokens
import ClusterFirewall.Ruleset.FirewallRules

/-!
# What the text of a ruleset declares and uses

The objects of a table that have a name are sets, chains and counters. A row that opens a block
declares one. All other rows use objects: sets after an `@`, chains after `jump` and counters after
`counter name`. The reader works on the tokens of a row and knows nothing of how rows are made.

Main statement: `Ruleset.mentions_text`, what the text of a ruleset mentions is what its lines
mention, one after the other, between the objects that it declares.
-/

namespace ClusterFirewall

/-! ## The reader -/

inductive ObjectKind where
  | set
  | chain
  | counter
  deriving DecidableEq, Repr

namespace ObjectKind

/-- The word that a declaration starts with. -/
def text : ObjectKind → String
  | .set => "set"
  | .chain => "chain"
  | .counter => "counter"

def ofText? : String → Option ObjectKind
  | "set" => some .set
  | "chain" => some .chain
  | "counter" => some .counter
  | _ => none

theorem ofText?_text (kind : ObjectKind) : ofText? kind.text = some kind := by
  cases kind <;> rfl

end ObjectKind

/-- An object of a table that has a name. -/
structure TableObject where
  kind : ObjectKind
  name : String
  deriving DecidableEq, Repr

/-- What a row says about an object. -/
inductive Mention where
  | declares (o : TableObject)
  | uses (o : TableObject)
  deriving DecidableEq, Repr

/-- The object whose block a row opens. -/
def declared? : List String → Option TableObject
  | kind :: name :: "\x7b" :: _ => (ObjectKind.ofText? kind).map (⟨·, name⟩)
  | _ => none

/-- The object that a keyword refers to, by the tokens after it. -/
def target? : String → List String → Option TableObject
  | "jump", name :: _ => some ⟨.chain, name⟩
  | "counter", "name" :: name :: _ => some ⟨.counter, name⟩
  | _, _ => none

def usedObjects : List String → List TableObject
  | [] => []
  | w :: rest =>
    ((setName? w).map (⟨.set, ·⟩)).toList ++ (target? w rest).toList ++ usedObjects rest

/-- A row that declares an object uses none. -/
def rowMentions (row : String) : List Mention :=
  match declared? (Text.tokens row) with
  | some o => [.declares o]
  | none => (usedObjects (Text.tokens row)).map .uses

/-- What the rows of a text mention, in their order. -/
def mentions (text : String) : List Mention := (Text.rows text).flatMap rowMentions

/-! ## Tokens that refer to nothing -/

/-- A token that is neither the name of a set nor a keyword before a name. -/
structure Idle (w : String) : Prop where
  no_set : setName? w = none
  ne_jump : w ≠ "jump"
  ne_counter : w ≠ "counter"

instance (w : String) : Decidable (Idle w) :=
  decidable_of_iff (setName? w = none ∧ w ≠ "jump" ∧ w ≠ "counter")
    ⟨fun h => ⟨h.1, h.2.1, h.2.2⟩, fun h => ⟨h.no_set, h.ne_jump, h.ne_counter⟩⟩

theorem target?_of_idle {w : String} (h : Idle w) (rest : List String) : target? w rest = none := by
  unfold target?
  split
  · exact absurd rfl h.ne_jump
  · exact absurd rfl h.ne_counter
  · rfl

theorem usedObjects_append_of_idle {ws : List String} (h : ∀ w ∈ ws, Idle w) (rest : List String) :
    usedObjects (ws ++ rest) = usedObjects rest := by
  induction ws with
  | nil => rfl
  | cons w ws ih =>
    obtain ⟨hw, hws⟩ := List.forall_mem_cons.1 h
    simp [usedObjects, hw.no_set, target?_of_idle hw, ih hws]

theorem idle_quoted (q : String) : Idle ("\"" ++ q ++ "\"") := by
  have hquote : ∀ w : String, w.toList.head? ≠ some '"' → "\"" ++ q ++ "\"" ≠ w := by
    rintro w hw rfl
    exact hw (by simp)
  exact ⟨by simp [setName?], hquote _ (by decide), hquote _ (by decide)⟩

theorem usedObjects_set (name : String) (rest : List String) :
    usedObjects (("@" ++ name) :: rest) = ⟨.set, name⟩ :: usedObjects rest := by
  -- A token that starts with the mark of a name is no keyword.
  have hmark : ∀ w : String, w.toList.head? ≠ some '@' → "@" ++ name ≠ w := by
    rintro w hw rfl
    exact hw (by simp)
  have htarget : target? ("@" ++ name) rest = none := by
    unfold target?
    split
    · rename_i heq
      exact absurd heq (hmark _ (by decide))
    · rename_i heq
      exact absurd heq (hmark _ (by decide))
    · rfl
  simp [usedObjects, htarget, setName?]

/-! ## Parts of a row -/

/-- A part of a row that refers to nothing and has no quotes. -/
structure Silent (s : String) : Prop where
  inline : Inline s
  idle : ∀ w ∈ Text.tokens s, Idle w

instance (s : String) : Decidable (Silent s) :=
  decidable_of_iff (Inline s ∧ ∀ w ∈ Text.tokens s, Idle w)
    ⟨fun h => ⟨h.1, h.2⟩, fun h => ⟨h.inline, h.idle⟩⟩

theorem Silent.append_blank {s t : String} (hs : Silent s) (ht : Silent t) :
    Silent (s ++ " " ++ t) where
  inline := (hs.inline.append (by decide)).append ht.inline
  idle := by
    rw [Text.tokens_append_blank (hs.inline.not_mem (by decide))]
    exact List.forall_mem_append.2 ⟨hs.idle, ht.idle⟩

/-- The end of a row that uses these objects, whatever tokens are added to it. -/
structure Uses (text : String) (os : List TableObject) : Prop where
  no_feed : '\n' ∉ text.toList
  used : ∀ rest, usedObjects (Text.tokens text ++ rest) = os ++ usedObjects rest

namespace Uses

variable {s t : String} {os ps : List TableObject}

theorem append_blank (hs : Uses s os) (hquote : '"' ∉ s.toList) (ht : Uses t ps) :
    Uses (s ++ " " ++ t) (os ++ ps) where
  no_feed := by simp [hs.no_feed, ht.no_feed]
  used rest := by
    rw [Text.tokens_append_blank hquote, List.append_assoc, hs.used, ht.used, List.append_assoc]

theorem of_silent (h : Silent s) : Uses s [] where
  no_feed := h.inline.not_mem (by decide)
  used := usedObjects_append_of_idle h.idle

/-- What stands in front and refers to nothing does not matter. -/
theorem after (hs : Silent s) (ht : Uses t os) : Uses (s ++ " " ++ t) os :=
  (of_silent hs).append_blank (hs.inline.not_mem (by decide)) ht

theorem quote {q : String} (hq : Inline q) (ht : Uses t os) :
    Uses ("\"" ++ q ++ "\"" ++ t) os where
  no_feed := by
    have hfeed : '\n' ∉ q.toList := hq.not_mem (by decide)
    simp [hfeed, ht.no_feed]
  used rest := by
    have hidle : ∀ w ∈ ["\"" ++ q ++ "\""], Idle w := by simpa using idle_quoted q
    rw [Text.tokens_quote (hq.not_mem (by decide)), ← List.singleton_append, List.append_assoc,
      usedObjects_append_of_idle hidle, ht.used]

theorem of_quote {q : String} (hq : Inline q) : Uses ("\"" ++ q ++ "\"") [] := by
  simpa using quote hq (of_silent (s := "") (by decide))

end Uses

/-! ### Lists of addresses -/

/-- The characters of lists of addresses. -/
def isListChar (c : Char) : Bool := isAddressChar c || c == ' ' || Text.isMark c

theorem idle_of_isListChar {w : String} (h : ∀ c ∈ w.toList, isListChar c) : Idle w := by
  -- Names of sets and keywords have characters that no list has.
  have hne : ∀ (v : String) (c : Char), c ∈ v.toList → isListChar c = false → w ≠ v := by
    rintro _ c hc hlist rfl
    rw [h c hc] at hlist
    cases hlist
  refine ⟨?_, hne _ 'j' (by decide) (by decide), hne _ 'o' (by decide) (by decide)⟩
  unfold setName?
  split
  · rename_i name heq
    exact absurd (h '@' (by simp [heq])) (by decide)
  · rfl

theorem isInline_of_isListChar {c : Char} (h : isListChar c) : isInline c := by
  simp only [isListChar, Text.isMark, Bool.or_eq_true, beq_iff_eq] at h
  rcases h with (h | rfl) | ((rfl | rfl) | rfl) | rfl
  · exact isInline_of_isAddressChar h
  all_goals decide

namespace Silent

theorem of_isListChar {s : String} (h : ∀ c ∈ s.toList, isListChar c) : Silent s where
  inline c hc := isInline_of_isListChar (h c hc)
  idle w hw := by
    have hquote : '"' ∉ s.toList := fun hmem => absurd (h _ hmem) (by decide)
    rw [Text.tokens_of_not_mem hquote] at hw
    exact idle_of_isListChar fun c hc => h c (Text.mem_of_mem_tokensOfChars hw hc)

theorem of_isAddressText {s : String} (h : IsAddressText s) : Silent s :=
  of_isListChar fun c hc => by simp [isListChar, h c hc]

theorem setText {items : List String} (h : ∀ s ∈ items, ∀ c ∈ s.toList, isListChar c) :
    Silent (setText items) :=
  of_isListChar (forall_mem_setText (by decide) h)

theorem setText_of_isAddressText {items : List String} (h : ∀ s ∈ items, IsAddressText s) :
    Silent (ClusterFirewall.setText items) :=
  setText fun s hs c hc => by simp [isListChar, h s hs c hc]

end Silent

theorem isAddressText_toString (n : Nat) : IsAddressText (toString n) := by
  intro c hc
  apply isAddressChar_of_isElementChar
  apply isElementChar_of_isDigit
  apply Nat.isDigit_of_mem_toDigits (b := 10) (n := n) (by decide) (by decide)
  simpa using hc

/-! ### Names -/

theorem isWord_of_isName {s : String} (h : IsName s) : Text.IsWord s := by
  refine ⟨h.ne_empty, fun c hc => ?_⟩
  have hrange := toNat_of_isNameChar (h.chars c hc)
  simp only [Text.isBlank, Bool.or_eq_false_iff, Bool.and_eq_false_iff, decide_eq_false_iff_not,
    beq_eq_false_iff_ne]
  omega

theorem hasNoMark_of_isName {s : String} (h : IsName s) : Text.HasNoMark s := by
  intro c hc
  have hname := h.chars c hc
  rw [Bool.eq_false_iff]
  intro hmark
  simp only [Text.isMark, Bool.or_eq_true, beq_iff_eq] at hmark
  rcases hmark with ((rfl | rfl) | rfl) | rfl <;> exact absurd hname (by decide)

theorem tokens_name {s : String} (h : IsName s) : Text.tokens s = [s] := by
  rw [Text.tokens_of_not_mem ((Inline.of_isName h).not_mem (by decide))]
  exact (isWord_of_isName h).tokensOfChars (hasNoMark_of_isName h)

theorem Uses.at_name {name : String} (h : IsName name) : Uses ("@" ++ name) [⟨.set, name⟩] := by
  have hinline : Inline ("@" ++ name) := Inline.append (by decide) (.of_isName h)
  have hword : Text.IsWord ("@" ++ name) :=
    ⟨by simp, Text.forall_mem_append (show Text.HasNoBlank "@" by decide)
      (isWord_of_isName h).no_blank⟩
  have htoken : Text.tokens ("@" ++ name) = ["@" ++ name] := by
    rw [Text.tokens_of_not_mem (hinline.not_mem (by decide))]
    exact hword.tokensOfChars (Text.forall_mem_append (show Text.HasNoMark "@" by decide)
      (hasNoMark_of_isName h))
  refine ⟨hinline.not_mem (by decide), fun rest => ?_⟩
  rw [htoken]
  exact usedObjects_set name rest

/-! ## Lines of a block -/

/-- The words that the lines of a block start with. -/
def lineWords : List String :=
  ["ct", "elements", "iifname", "ip", "meta", "oifname", "sctp", "tcp", "udp"]

theorem tokens_indented (line : String) :
    Text.tokens (Ruleset.indented line) = Text.tokens line := by
  have hindent : Ruleset.indented line = "       " ++ " " ++ line := by
    apply String.toList_inj.1
    simp [Ruleset.indented]
  rw [hindent, Text.tokens_append_blank (by decide)]
  rfl

theorem declared?_of_ofText? {w : String} (h : ObjectKind.ofText? w = none) (rest : List String) :
    declared? (w :: rest) = none := by
  unfold declared?
  split
  · rename_i heq
    obtain ⟨rfl, -⟩ := List.cons.inj heq
    rw [h]
    rfl
  · rfl

/-- What a line in a block uses is what it mentions. -/
theorem mentions_indented {line : String} {os : List TableObject} (huses : Uses line os)
    {w : String} (hw : w ∈ lineWords) {rest : String} (hline : line = w ++ " " ++ rest) :
    mentions (Ruleset.indented line) = os.map .uses := by
  have hrow : Text.rows (Ruleset.indented line) = [Ruleset.indented line] := by
    apply Text.rows_of_not_mem
    simpa [Ruleset.indented] using huses.no_feed
  have hdeclared : declared? (Text.tokens line) = none := by
    -- Each of the words is a token of its own and starts no declaration.
    have hwords : ∀ w ∈ lineWords, IsName w ∧ ObjectKind.ofText? w = none := by decide
    obtain ⟨hname, hkind⟩ := hwords w hw
    rw [hline, Text.tokens_append_blank ((Inline.of_isName hname).not_mem (by decide)),
      tokens_name hname]
    exact declared?_of_ofText? hkind _
  have hused : usedObjects (Text.tokens line) = os := by simpa [usedObjects] using huses.used []
  rw [mentions, hrow, List.flatMap_singleton, rowMentions, tokens_indented, hdeclared, hused]

/-- The line with a set's elements mentions nothing. -/
theorem mentions_elementLines {members : List String} (h : ∀ m ∈ members, IsAddressText m) :
    (Ruleset.elementLines members).flatMap mentions = [] := by
  unfold Ruleset.elementLines
  split
  · rfl
  · have hline : "elements = " ++ setText members =
        "elements" ++ " " ++ ("=" ++ " " ++ setText members) := by
      apply String.toList_inj.1
      simp
    have huses : Uses ("elements = " ++ setText members) [] := by
      rw [hline]
      apply Uses.after (by decide)
      apply Uses.after (by decide)
      exact .of_silent (.setText_of_isAddressText h)
    rw [List.flatMap_singleton]
    exact mentions_indented huses (by decide) hline

/-! ## Rules -/

/-- The names of the sets that a clause refers to. -/
def Clause.sets : Clause → List String
  | .sourceInCluster => [clusterPrefixes]
  | .destinationInSet name => [name]
  | _ => []

namespace Clause

/-- The side that a clause looks at and how it compares. -/
def keyword : Clause → String
  | .sourceIn _ => "saddr"
  | .sourceNotIn _ => "saddr !="
  | .sourceInCluster => "saddr =="
  | .destinationIn _ => "daddr"
  | .destinationNotIn _ => "daddr !="
  | .destinationInSet _ => "daddr"

/-- The addresses of a clause: a list, or the name of a set. -/
def operand : Clause → String
  | .sourceIn blocks => setText blocks
  | .sourceNotIn blocks => setText blocks
  | .sourceInCluster => "@" ++ clusterPrefixes
  | .destinationIn blocks => setText blocks
  | .destinationNotIn blocks => setText blocks
  | .destinationInSet name => "@" ++ name

theorem text_eq (c : Clause) : c.text = "ip" ++ " " ++ (c.keyword ++ " " ++ c.operand) := by
  apply String.toList_inj.1
  cases c <;> simp [text, keyword, operand]

theorem uses_operand {c : Clause} (h : c.Plain) : Uses c.operand (c.sets.map (⟨.set, ·⟩)) := by
  cases c with
  | sourceIn blocks => exact .of_silent (.setText_of_isAddressText h)
  | sourceNotIn blocks => exact .of_silent (.setText_of_isAddressText h)
  | sourceInCluster => exact .at_name (by decide)
  | destinationIn blocks => exact .of_silent (.setText_of_isAddressText h)
  | destinationNotIn blocks => exact .of_silent (.setText_of_isAddressText h)
  | destinationInSet name => exact .at_name h

theorem uses_text {c : Clause} (h : c.Plain) : Uses c.text (c.sets.map (⟨.set, ·⟩)) := by
  have hkeyword : Silent c.keyword := by cases c <;> simp only [keyword] <;> decide
  rw [text_eq]
  exact Uses.after (by decide) (Uses.after hkeyword (uses_operand h))

end Clause

namespace PortRule

def sets (r : PortRule) : List String := r.clauses.flatMap Clause.sets

theorem exists_text (r : PortRule) : ∃ w ∈ lineWords, ∃ rest, r.text = w ++ " " ++ rest := by
  obtain ⟨clauses, protocol, ports, comment⟩ := r
  cases clauses with
  | nil =>
    refine ⟨protocol.text, ?_, _, text_nil protocol ports comment⟩
    cases protocol <;> decide
  | cons c clauses =>
    refine ⟨"ip", by decide, c.keyword ++ " " ++ c.operand ++ " " ++
      (PortRule.mk clauses protocol ports comment).text, ?_⟩
    rw [text_cons, c.text_eq]
    simp only [String.append_assoc]

/-- The line of a rule uses the sets of its clauses. -/
theorem uses_text {r : PortRule} (h : r.Plain) (hcomment : Inline r.comment) :
    Uses r.text (r.sets.map (⟨.set, ·⟩)) := by
  obtain ⟨clauses, protocol, ports, comment⟩ := r
  induction clauses with
  | nil =>
    have hprotocol : Silent protocol.text := by cases protocol <;> decide
    -- No name comes after this `counter`.
    have hverdict : Uses "counter accept comment" [] := by
      refine ⟨by decide, fun rest => ?_⟩
      have htokens : Text.tokens "counter accept comment" = ["counter", "accept", "comment"] := by
        decide
      rw [htokens]
      rfl
    rw [text_nil]
    apply Uses.after hprotocol
    apply Uses.after (by decide)
    apply Uses.after (.setText_of_isAddressText (isAddressText_of_mem_spans ports))
    exact hverdict.append_blank (by decide) (.of_quote hcomment)
  | cons c clauses ih =>
    -- A clause has no quotes, so what comes after it is read as if it stood alone.
    obtain ⟨hc, hclauses⟩ := List.forall_mem_cons.1 h
    have hquote : '"' ∉ c.text.toList := (Clause.inline_text hc).not_mem (by decide)
    have huses := (Clause.uses_text hc).append_blank hquote (ih hclauses hcomment)
    rw [text_cons]
    simpa [sets] using huses

/-- In its chain, a rule mentions the sets of its clauses and nothing else. -/
theorem mentions_text {r : PortRule} (h : r.Plain) (hcomment : Inline r.comment) :
    mentions (Ruleset.indented r.text) = r.sets.map fun name => .uses ⟨.set, name⟩ := by
  obtain ⟨w, hw, rest, hline⟩ := r.exists_text
  rw [mentions_indented (uses_text h hcomment) hw hline, List.map_map]
  rfl

end PortRule

/-! ## Rate limits and source addresses -/

theorem silent_toString (n : Nat) : Silent (toString n) :=
  .of_isAddressText (isAddressText_toString n)

theorem mentions_rateLimitLine (vrf : UInt64) (rate : UInt32) :
    mentions (Ruleset.indented (rateLimitLine vrf rate)) =
      [.uses ⟨.counter, "drop_ratelimit"⟩] := by
  have hline : rateLimitLine vrf rate = "meta" ++ " " ++ ("iifname" ++ " " ++
      ("\"" ++ ("vrf" ++ toString vrf.toNat) ++ "\"" ++ (" limit rate over" ++ " " ++
        (toString rate.toNat ++ " " ++ "mbytes/second counter name drop_ratelimit drop")))) := by
    unfold rateLimitLine
    generalize toString vrf.toNat = v
    generalize toString rate.toNat = n
    apply String.toList_inj.1
    simp
  -- Here a name does come after the `counter`.
  have hdrop : Uses "mbytes/second counter name drop_ratelimit drop"
      [⟨.counter, "drop_ratelimit"⟩] := by
    refine ⟨by decide, fun rest => ?_⟩
    have htokens : Text.tokens "mbytes/second counter name drop_ratelimit drop" =
        ["mbytes/second", "counter", "name", "drop_ratelimit", "drop"] := by decide
    rw [htokens]
    rfl
  have huses : Uses (rateLimitLine vrf rate) [⟨.counter, "drop_ratelimit"⟩] := by
    rw [hline]
    apply Uses.after (by decide)
    apply Uses.after (by decide)
    apply Uses.quote (Inline.append (by decide) (silent_toString _).inline)
    apply Uses.after (by decide)
    exact Uses.after (silent_toString _) hdrop
  exact mentions_indented huses (by decide) hline

/-- What traffic takes as its source address refers to nothing. -/
theorem silent_snatTarget? {ips : List String} (h : ∀ ip ∈ ips, IsAddressText ip) {target : String}
    (htarget : snatTarget? ips = some target) : Silent target := by
  unfold snatTarget? at htarget
  split at htarget
  · cases htarget
  · obtain rfl := Option.some.inj htarget
    exact .of_isAddressText (h _ (by simp))
  · -- Traffic is spread over several addresses by a map from numbers to them.
    obtain rfl := Option.some.inj htarget
    have hmap : Silent (setText (addressMap ips)) := by
      apply Silent.setText
      intro s hs
      obtain ⟨e, he, rfl⟩ := List.mem_map.1 hs
      have hip : IsAddressText e.1 := h _ (List.fst_mem_of_mem_zipIdx he)
      have hchar : ∀ {t : String}, IsAddressText t → ∀ c ∈ t.toList, isListChar c :=
        fun ht c hc => by simp [isListChar, ht c hc]
      apply Text.forall_mem_append _ (hchar hip)
      apply Text.forall_mem_append (hchar (isAddressText_toString e.2))
      exact List.all_eq_true.1 (show " : ".toList.all isListChar by decide)
    have htext : "jhash ip daddr . ip saddr mod " ++ toString ips.length ++ " map " ++
        setText (addressMap ips) = "jhash ip daddr . ip saddr mod" ++ " " ++
          (toString ips.length ++ " " ++ ("map" ++ " " ++ setText (addressMap ips))) := by
      generalize setText (addressMap ips) = m
      apply String.toList_inj.1
      simp
    rw [htext]
    apply Silent.append_blank (by decide)
    apply Silent.append_blank (silent_toString _)
    exact Silent.append_blank (by decide) hmap

theorem mentions_snatLine (vrf : UInt64) {target networkId : String} (htarget : Silent target)
    (hid : Inline networkId) :
    mentions (Ruleset.indented (snatLine vrf target networkId)) =
      [.uses ⟨.set, clusterPrefixes⟩] := by
  have hline : snatLine vrf target networkId = "ip" ++ " " ++ ("saddr" ++ " " ++
      ("@" ++ clusterPrefixes ++ " " ++ ("oifname" ++ " " ++
        ("\"" ++ ("vlan" ++ toString vrf.toNat) ++ "\"" ++ (" counter snat to" ++ " " ++
          (target ++ " " ++ ("comment" ++ " " ++ ("\"" ++ ("snat for " ++ networkId) ++
            "\"")))))))) := by
    unfold snatLine
    generalize toString vrf.toNat = v
    apply String.toList_inj.1
    simp
  -- No name comes after this `counter`.
  have hsnat : Uses " counter snat to" [] := by
    refine ⟨by decide, fun rest => ?_⟩
    have htokens : Text.tokens " counter snat to" = ["counter", "snat", "to"] := by decide
    rw [htokens]
    rfl
  have huses : Uses (snatLine vrf target networkId) [⟨.set, clusterPrefixes⟩] := by
    rw [hline]
    apply Uses.after (by decide)
    apply Uses.after (by decide)
    apply Uses.append_blank (Uses.at_name (by decide)) (by decide)
    apply Uses.after (by decide)
    apply Uses.quote (Inline.append (by decide) (silent_toString _).inline)
    apply Uses.append_blank hsnat (by decide)
    apply Uses.after htarget
    apply Uses.after (by decide)
    exact Uses.of_quote (Inline.append (by decide) hid)
  exact mentions_indented huses (by decide) hline

/-! ## Blocks -/

/-- A set with a plain name whose elements are written like addresses. -/
structure IpSet.Plain (s : IpSet) : Prop where
  name : IsName s.name
  members : ∀ m ∈ s.members, IsAddressText m

namespace Ruleset

theorem mentions_jumpLine {side : String} (hside : side ∈ ["iifname", "oifname"]) (vrf : UInt64)
    {chain : String} (hchain : chain ∈ ["forward_egress", "forward_ingress"]) {comment : String}
    (hcomment : Inline comment) :
    mentions (indented (jumpLine side vrf chain comment)) = [.uses ⟨.chain, chain⟩] := by
  have hline : jumpLine side vrf chain comment = side ++ " " ++
      ("\"" ++ ("vrf" ++ toString vrf.toNat) ++ "\"" ++ ((" jump " ++ chain) ++ " " ++
        ("comment" ++ " " ++ ("\"" ++ comment ++ "\"")))) := by
    unfold jumpLine
    generalize toString vrf.toNat = v
    apply String.toList_inj.1
    simp
  have hsilent : ∀ s ∈ ["iifname", "oifname"], s ∈ lineWords ∧ Silent s := by decide
  obtain ⟨hword, hside⟩ := hsilent side hside
  have hinline : Inline (" jump " ++ chain) := by
    have hchains : ∀ c ∈ ["forward_egress", "forward_ingress"], Inline (" jump " ++ c) := by decide
    exact hchains chain hchain
  have hjump : Uses (" jump " ++ chain) [⟨.chain, chain⟩] := by
    refine ⟨hinline.not_mem (by decide), fun rest => ?_⟩
    have htokens : ∀ c ∈ ["forward_egress", "forward_ingress"],
        Text.tokens (" jump " ++ c) = ["jump", c] := by decide
    rw [htokens chain hchain]
    simp only [List.mem_cons, List.not_mem_nil, or_false] at hchain
    rcases hchain with rfl | rfl <;> rfl
  have huses : Uses (jumpLine side vrf chain comment) [⟨.chain, chain⟩] := by
    rw [hline]
    apply Uses.after hside
    apply Uses.quote (Inline.append (by decide) (silent_toString _).inline)
    apply Uses.append_blank hjump (hinline.not_mem (by decide))
    exact Uses.after (by decide) (Uses.of_quote hcomment)
  exact mentions_indented huses hword hline

/-- What is mentioned in a block: its own object, and what its lines mention. -/
theorem mentions_block (kind : ObjectKind) {name : String} (hname : IsName name)
    (body : List String) : (block (kind.text ++ " " ++ name) body).flatMap mentions =
      .declares ⟨kind, name⟩ :: body.flatMap mentions := by
  have hkind : IsName kind.text := by cases kind <;> decide
  have hinline : Inline ("    " ++ (kind.text ++ " " ++ name) ++ " \x7b") := by
    apply Inline.append _ (by decide)
    apply Inline.append (by decide)
    apply Inline.append _ (.of_isName hname)
    exact Inline.append (.of_isName hkind) (by decide)
  -- The reader sees a declaration in exactly these three tokens.
  have htokens : Text.tokens ("    " ++ (kind.text ++ " " ++ name) ++ " \x7b") =
      [kind.text, name, "\x7b"] := by
    have hcut : "    " ++ (kind.text ++ " " ++ name) ++ " \x7b" =
        "   " ++ " " ++ (kind.text ++ " " ++ (name ++ " " ++ "\x7b")) := by
      apply String.toList_inj.1
      simp
    have hquote : ∀ {s : String}, IsName s → '"' ∉ s.toList :=
      fun h => (Inline.of_isName h).not_mem (by decide)
    rw [hcut, Text.tokens_append_blank (by decide), Text.tokens_append_blank (hquote hkind),
      Text.tokens_append_blank (hquote hname), tokens_name hkind, tokens_name hname]
    rfl
  have hopen : mentions ("    " ++ (kind.text ++ " " ++ name) ++ " \x7b") =
      [.declares ⟨kind, name⟩] := by
    rw [mentions, Text.rows_of_not_mem (hinline.not_mem (by decide)), List.flatMap_singleton,
      rowMentions, htokens, declared?, ObjectKind.ofText?_text]
    rfl
  have hclose : ["    \x7d", ""].flatMap mentions = [] := by decide
  rw [block, List.flatMap_append, List.flatMap_append, List.flatMap_singleton, hopen, hclose,
    List.append_nil]
  rfl

theorem mentions_setBlock {name : String} (hname : IsName name) (body : List String) :
    (block ("set " ++ name) body).flatMap mentions =
      .declares ⟨.set, name⟩ :: body.flatMap mentions :=
  mentions_block .set hname body

theorem mentions_chainBlock {name : String} (hname : IsName name) (body : List String) :
    (block ("chain " ++ name) body).flatMap mentions =
      .declares ⟨.chain, name⟩ :: body.flatMap mentions :=
  mentions_block .chain hname body

theorem mentions_prefixLines {r : Ruleset} (h : ∀ p ∈ r.internalPrefixes, IsAddressText p) :
    r.prefixLines.flatMap mentions = [.declares ⟨.set, clusterPrefixes⟩] := by
  have htype : [indented "type ipv4_addr", indented "flags interval"].flatMap mentions = [] := by
    decide +kernel
  rw [prefixLines, mentions_setBlock (by decide), List.flatMap_append, htype,
    mentions_elementLines h]
  rfl

theorem mentions_setLines {s : IpSet} (h : s.Plain) :
    (setLines s).flatMap mentions = [.declares ⟨.set, s.name⟩] := by
  have htype : mentions (indented ("type " ++ s.family.text)) = [] := by
    cases s.family <;> decide +kernel
  rw [setLines, mentions_setBlock h.name, List.flatMap_cons, htype,
    mentions_elementLines h.members]
  rfl

theorem mentions_forwardLines (r : Ruleset) :
    r.forwardLines.flatMap mentions = .declares ⟨.chain, "forward"⟩ ::
      r.rateLimits.flatMap (fun line => mentions (indented line)) ++
        [.uses ⟨.chain, "forward_egress"⟩, .uses ⟨.chain, "forward_ingress"⟩] := by
  have hheader : "chain forward" = "chain " ++ "forward" := by decide
  have hhook : mentions (indented "type filter hook forward priority 0; policy drop;") = [] := by
    decide +kernel
  have hcount : mentions (indented "counter comment \"count dropped packets\"") = [] := by
    decide +kernel
  -- The two lines on the state of a connection differ in their words only.
  have hstate : ∀ {line state comment : String}, Silent state → Inline comment →
      line = "ct" ++ " " ++ (state ++ " " ++ ("\"" ++ comment ++ "\"")) →
      mentions (indented line) = [] := by
    intro line state comment hs hc hline
    have huses : Uses line [] := by
      rw [hline]
      apply Uses.after (by decide)
      exact Uses.after hs (Uses.of_quote hc)
    exact mentions_indented huses (by decide) hline
  have hinvalid : mentions (indented "ct state invalid drop comment \"drop invalid packets\"") =
      [] :=
    hstate (show Silent "state invalid drop comment" by decide)
      (show Inline "drop invalid packets" by decide) (by decide)
  have hestablished : mentions (indented
      "ct state established,related accept comment \"accept established connections\"") = [] :=
    hstate (show Silent "state established,related accept comment" by decide)
      (show Inline "accept established connections" by decide) (by decide)
  have hegress : ∀ comment, Inline comment → mentions (indented
      (jumpLine "iifname" r.privateVrf "forward_egress" comment)) =
        [.uses ⟨.chain, "forward_egress"⟩] :=
    fun _ h => mentions_jumpLine (by decide) r.privateVrf (by decide) h
  have hingress : ∀ comment, Inline comment → mentions (indented
      (jumpLine "oifname" r.privateVrf "forward_ingress" comment)) =
        [.uses ⟨.chain, "forward_ingress"⟩] :=
    fun _ h => mentions_jumpLine (by decide) r.privateVrf (by decide) h
  rw [forwardLines, hheader, mentions_chainBlock (by decide)]
  simp [List.flatMap_map, hhook, hinvalid, hestablished, hcount,
    hegress "traffic leaving the cluster" (by decide),
    hingress "traffic entering the cluster" (by decide)]

theorem mentions_chainLines {name : String} (hname : IsName name) (rules : List String) :
    (chainLines name rules).flatMap mentions =
      .declares ⟨.chain, name⟩ :: rules.flatMap fun line => mentions (indented line) := by
  rw [chainLines, mentions_chainBlock hname, List.flatMap_map]

theorem mentions_postroutingLines (r : Ruleset) :
    r.postroutingLines.flatMap mentions = .declares ⟨.chain, "postrouting"⟩ ::
      r.snat.flatMap fun line => mentions (indented line) := by
  have hhook : mentions (indented "type nat hook postrouting priority 100; policy accept;") = [] :=
    by decide +kernel
  have hopen : mentions "    chain postrouting \x7b" = [.declares ⟨.chain, "postrouting"⟩] := by
    decide +kernel
  have hclose : mentions "    \x7d" = [] := by decide
  simp [postroutingLines, hhook, hopen, hclose, List.flatMap_map]

/-- What the text of a ruleset mentions: its lines one after the other, between the objects that it
declares. -/
theorem mentions_text {r : Ruleset} (hprefixes : ∀ p ∈ r.internalPrefixes, IsAddressText p)
    (hsets : ∀ s ∈ r.sets, s.Plain) :
    mentions r.text =
      .declares ⟨.set, clusterPrefixes⟩ :: r.sets.map (fun s => .declares ⟨.set, s.name⟩) ++
      (.declares ⟨.chain, "forward"⟩ ::
        r.rateLimits.flatMap (fun line => mentions (indented line)) ++
        [.uses ⟨.chain, "forward_egress"⟩, .uses ⟨.chain, "forward_ingress"⟩]) ++
      (.declares ⟨.chain, "forward_ingress"⟩ ::
        r.ingress.flatMap fun line => mentions (indented line)) ++
      (.declares ⟨.chain, "forward_egress"⟩ ::
        r.egress.flatMap fun line => mentions (indented line)) ++
      (.declares ⟨.chain, "postrouting"⟩ ::
        r.snat.flatMap fun line => mentions (indented line)) := by
  have htext : mentions r.text = r.lines.flatMap mentions := by
    have hend : [""].flatMap rowMentions = [] := by decide
    rw [mentions, rows_text, List.flatMap_append, List.flatMap_assoc, hend, List.append_nil]
    rfl
  have hdeclared : (r.sets.flatMap setLines).flatMap mentions =
      r.sets.map fun s => .declares ⟨.set, s.name⟩ := by
    generalize r.sets = sets at hsets
    induction sets with
    | nil => rfl
    | cons s sets ih =>
      obtain ⟨hs, hrest⟩ := List.forall_mem_cons.1 hsets
      simp [mentions_setLines hs, ih hrest]
  have htable : ["table inet firewall \x7b"].flatMap mentions = [] := by decide
  have hend : ["\x7d"].flatMap mentions = [] := by decide
  rw [htext, lines]
  simp only [List.flatMap_append, htable, hend, hdeclared, mentions_prefixLines hprefixes,
    mentions_forwardLines, mentions_postroutingLines,
    mentions_chainLines (show IsName "forward_ingress" by decide),
    mentions_chainLines (show IsName "forward_egress" by decide)]
  simp

end Ruleset

end ClusterFirewall
