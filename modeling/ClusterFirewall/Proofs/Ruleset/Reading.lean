import ClusterFirewall.Address
import ClusterFirewall.Proofs.Text.Pieces
import ClusterFirewall.Ruleset.Rule

/-!
# Reading rules

What a rule lets pass is decided by its line alone, which is read here as the packet filter reads
it: conditions on the addresses, on the protocol and on the port, up to the verdict. The reader
knows nothing of how lines are made.

Main statement: `PortRule.readRule_text`, the line of a rule is read as the conditions that its
clauses and its ports stand for.
-/

namespace ClusterFirewall

/-! ## Packets and conditions -/

/-- The number of a transport protocol in a packet. -/
def Protocol.number : Protocol → UInt8
  | .tcp => 6
  | .udp => 17
  | .sctp => 132

/-- The side of a packet that a condition is about. -/
inductive Side where
  /-- Where the packet comes from. -/
  | source
  /-- Where it goes to. -/
  | destination
  deriving DecidableEq, Repr

/-- What rules look at in a packet. -/
structure Packet where
  /-- The address that it comes from. -/
  source : Address
  /-- The address that it goes to. -/
  destination : Address
  /-- The number of its transport protocol. -/
  protocol : UInt8
  /-- The port that it goes to. -/
  port : UInt16
  deriving DecidableEq

/-- The address at one side of a packet. -/
def Packet.address (p : Packet) : Side → Address
  | .source => p.source
  | .destination => p.destination

/-- Which addresses are in the named sets. -/
abbrev NamedSets := String → Address → Prop

/-- A condition of a rule. -/
inductive Condition where
  /-- An address lies in one of the networks. -/
  | within (side : Side) (networks : List Network)
  /-- An address lies in none of the networks. -/
  | outside (side : Side) (networks : List Network)
  /-- An address is in a named set. -/
  | member (side : Side) (name : String)
  /-- The protocol is this one and the port lies in one of the spans. -/
  | ports (protocol : Protocol) (spans : List PortSpan)
  deriving DecidableEq

/-- Whether a packet meets a condition. -/
def Condition.Holds (sets : NamedSets) (p : Packet) : Condition → Prop
  | .within side networks => ∃ n ∈ networks, n.contains (p.address side)
  | .outside side networks => ∀ n ∈ networks, ¬ n.contains (p.address side)
  | .member side name => sets name (p.address side)
  | .ports protocol spans =>
    p.protocol = protocol.number ∧ ∃ s ∈ spans, s.first ≤ p.port ∧ p.port ≤ s.last

/-! ## The reader -/

/-- What follows a closing brace. -/
def afterBrace? : List String → Option (List String)
  | "\x7d" :: rest => some rest
  | _ => none

/-- The elements of a set without a name, up to the closing brace. All but the last one are followed
by a comma. -/
def readElements : List String → Option (List String × List String)
  | [] => none
  | w :: rest =>
    if w.toList.getLast? = some ',' then
      (readElements rest).map fun r => (String.ofList w.toList.dropLast :: r.1, r.2)
    else (afterBrace? rest).map fun rest => ([w], rest)

/-- The values of the elements of a set without a name. -/
def readSet {α : Type} (element? : String → Option α) (words : List String) :
    Option (List α × List String) := do
  let (elements, rest) ← readElements words
  let values ← elements.mapM element?
  pure (values, rest)

/-- The name of a set after its mark. -/
def setName? (w : String) : Option String :=
  match w.toList with
  | '@' :: name => some (String.ofList name)
  | _ => none

/-- The condition on an address. -/
def readAddress (side : Side) : List String → Option (Condition × List String)
  | "!=" :: "\x7b" :: rest =>
    (readSet Network.parse? rest).map fun r => (.outside side r.1, r.2)
  | "\x7b" :: rest => (readSet Network.parse? rest).map fun r => (.within side r.1, r.2)
  | "==" :: w :: rest => (setName? w).map fun name => (.member side name, rest)
  | w :: rest => (setName? w).map fun name => (.member side name, rest)
  | [] => none

/-- The port that digits write. -/
def portOf? (cs : List Char) : Option UInt16 :=
  if cs.isEmpty || !cs.all Char.isDigit then none
  else
    let n := Nat.ofDigitChars 10 cs 0
    if n < UInt16.size then some (UInt16.ofNat n) else none

/-- One port, or two with a dash. -/
def PortSpan.parse? (s : String) : Option PortSpan :=
  match Text.splitAtEach (· == '-') s.toList with
  | [port] => (portOf? port).map fun n => ⟨n, n⟩
  | [first, last] => do
    let first ← portOf? first
    let last ← portOf? last
    pure ⟨first, last⟩
  | _ => none

/-- A condition at the front of a rule. -/
def readCondition : List String → Option (Condition × List String)
  | "ip" :: "saddr" :: rest => readAddress .source rest
  | "ip" :: "daddr" :: rest => readAddress .destination rest
  | w :: "dport" :: "\x7b" :: rest => do
    let protocol ← Protocol.ofText? w
    let (spans, rest) ← readSet PortSpan.parse? rest
    pure (.ports protocol spans, rest)
  | _ => none

/-- At most so many conditions up to the verdict, after which only a comment follows. -/
def readConditions : Nat → List String → Option (List Condition)
  | _, "counter" :: "accept" :: "comment" :: _ => some []
  | 0, _ => none
  | n + 1, words => do
    let (c, rest) ← readCondition words
    let more ← readConditions n rest
    pure (c :: more)

/-- The conditions of a line that accepts what meets them. A line has no more conditions than
words. -/
def readRule (line : String) : Option (List Condition) :=
  readConditions (Text.words line).length (Text.words line)

/-- Whether a packet meets all conditions of a line. -/
def Packet.Matches (p : Packet) (sets : NamedSets) (line : String) : Prop :=
  ∃ conditions, readRule line = some conditions ∧ ∀ c ∈ conditions, c.Holds sets p

/-! ## Elements of sets -/

/-- A word that can be told from its neighbours in a set. -/
structure IsElement (s : String) : Prop extends Text.IsWord s where
  no_comma : ∀ c ∈ s.toList, c ≠ ','

/-- The characters of networks and ports. -/
def isElementChar (c : Char) : Bool := c.isDigit || c == '.' || c == '/' || c == '+' || c == '-'

theorem isElement_of_forall {s : String} (hne : s ≠ "")
    (h : ∀ c ∈ s.toList, isElementChar c) : IsElement s where
  ne_empty := hne
  no_blank := by
    intro c hc
    have hchar := h c hc
    simp only [isElementChar, Bool.or_eq_true, beq_iff_eq, Char.isDigit_iff_toNat] at hchar
    rcases hchar with (((hdigit | rfl) | rfl) | rfl) | rfl
    · have hrange : 48 ≤ c.toNat ∧ c.toNat ≤ 57 := hdigit
      simp [Text.isBlank]
      omega
    all_goals decide
  no_comma := by
    rintro c hc rfl
    exact absurd (h ',' hc) (by decide)

theorem readElements_intercalate {items : List String} (hne : items ≠ [])
    (hitems : ∀ s ∈ items, IsElement s) (rest : List String) :
    readElements (Text.words (", ".intercalate items) ++ "\x7d" :: rest) = some (items, rest) := by
  -- All words but the last one end in the comma after their element.
  induction items with
  | nil => exact absurd rfl hne
  | cons s items ih =>
    obtain ⟨hs, hitems⟩ := List.forall_mem_cons.1 hitems
    cases items with
    | nil =>
      have hlast : s.toList.getLast? ≠ some ',' := by
        intro hlast
        exact hs.no_comma ',' (List.mem_of_getLast? hlast) rfl
      rw [String.intercalate_singleton, hs.words, List.singleton_append, readElements,
        if_neg hlast, afterBrace?, Option.map_some]
    | cons t items =>
      have hcomma : Text.IsWord "," := ⟨by decide, by decide⟩
      have htext : ", ".intercalate (s :: t :: items) =
          (s ++ ",") ++ " " ++ ", ".intercalate (t :: items) := by
        rw [String.intercalate_cons_cons]
        apply String.toList_inj.1
        simp
      have hread := ih (List.cons_ne_nil _ _) hitems
      rw [htext, Text.words_append_blank, (hs.append hcomma).words, List.append_assoc,
        List.singleton_append, readElements, if_pos (by simp), hread]
      simp

theorem readSet_setText {α : Type} {element? : String → Option α} {items : List String}
    {values : List α} (hne : items ≠ []) (hitems : ∀ s ∈ items, IsElement s)
    (hvalues : items.mapM element? = some values) (rest : List String) :
    ∃ words, Text.words (setText items) = "\x7b" :: words ∧
      readSet element? (words ++ rest) = some (values, rest) := by
  have hopen : Text.IsWord "\x7b" := ⟨by decide, by decide⟩
  have hclose : Text.IsWord "\x7d" := ⟨by decide, by decide⟩
  have htext : setText items =
      ("\x7b" ++ " " ++ ", ".intercalate items) ++ " " ++ "\x7d" := by
    apply String.toList_inj.1
    simp [setText]
  refine ⟨Text.words (", ".intercalate items) ++ ["\x7d"], ?_, ?_⟩
  · rw [htext, Text.words_append_blank, Text.words_append_blank, hopen.words, hclose.words]
    rfl
  · rw [readSet, List.append_assoc, List.singleton_append,
      readElements_intercalate hne hitems rest]
    simp [hvalues]

/-! ## Networks -/

/-- The characters of a text are those that it is cut at and those of its pieces. -/
theorem isElementChar_of_pieces {mark : Char} (hmark : isElementChar mark) {cs : List Char}
    (h : ∀ piece ∈ Text.splitAtEach (· == mark) cs, ∀ c ∈ piece, isElementChar c) :
    ∀ c ∈ cs, isElementChar c := by
  intro c hc
  by_cases hcut : c = mark
  · subst hcut
    exact hmark
  · obtain ⟨piece, hpiece, hmem⟩ :=
      Text.exists_mem_splitAtEach (· == mark) hc (by simpa using hcut)
    exact h piece hpiece c hmem

theorem isElementChar_of_isDigit {c : Char} (h : c.isDigit) : isElementChar c := by
  simp [isElementChar, h]

namespace Address

theorem isElementChar_of_octet? {cs : List Char} {n : Nat} (h : octet? cs = some n) :
    ∀ c ∈ cs, isElementChar c := by
  unfold octet? at h
  split at h
  · cases h
  · rename_i hdigits
    simp only [Bool.or_eq_true, not_or, Bool.not_eq_true', Bool.not_eq_false] at hdigits
    intro c hc
    exact isElementChar_of_isDigit (List.all_eq_true.1 hdigits.2 c hc)

theorem isElementChar_of_ofChars? {cs : List Char} {a : Address} (h : ofChars? cs = some a) :
    ∀ c ∈ cs, isElementChar c := by
  apply isElementChar_of_pieces (show isElementChar '.' by decide)
  unfold ofChars? at h
  split at h
  · rename_i p q r t hpieces
    simp only [Option.bind_eq_bind, Option.bind_eq_some_iff] at h
    obtain ⟨_, hp, _, hq, _, hr, _, ht, -⟩ := h
    rw [hpieces]
    simp only [List.forall_mem_cons, List.not_mem_nil, false_implies, implies_true, and_true]
    exact ⟨isElementChar_of_octet? hp, isElementChar_of_octet? hq, isElementChar_of_octet? hr,
      isElementChar_of_octet? ht⟩
  · cases h

end Address

namespace Network

theorem isElementChar_of_lengthOfChars? {cs : List Char} {n : Nat}
    (h : lengthOfChars? cs = some n) : ∀ c ∈ cs, isElementChar c := by
  unfold lengthOfChars? at h
  split at h
  · -- The length is written as a mask.
    rename_i m hm
    exact Address.isElementChar_of_ofChars? hm
  · -- The length is written in digits, which may have a sign in front.
    have hdigits : ∀ ds : List Char, (ds.isEmpty || !ds.all Char.isDigit) = false →
        ∀ c ∈ ds, isElementChar c := by
      intro ds hds c hc
      simp only [Bool.or_eq_false_iff, Bool.not_eq_false'] at hds
      exact isElementChar_of_isDigit (List.all_eq_true.1 hds.2 c hc)
    unfold lengthOfDigits? at h
    split at h
    · rename_i rest _
      dsimp only at h
      split at h
      · cases h
      · rename_i hrest
        exact List.forall_mem_cons.2 ⟨by decide, hdigits rest (Bool.eq_false_iff.2 hrest)⟩
    · dsimp only at h
      split at h
      · cases h
      · rename_i hcs
        exact hdigits cs (Bool.eq_false_iff.2 hcs)

theorem isElementChar_of_parse? {s : String} {n : Network} (h : parse? s = some n) :
    ∀ c ∈ s.toList, isElementChar c := by
  unfold parse? ofChars? at h
  apply isElementChar_of_pieces (show isElementChar '/' by decide)
  split at h
  · rename_i a hpieces
    obtain ⟨_, ha, -⟩ := Option.bind_eq_some_iff.1 h
    rw [hpieces]
    simpa using Address.isElementChar_of_ofChars? ha
  · rename_i a l hpieces
    simp only [Option.bind_eq_bind, Option.bind_eq_some_iff] at h
    obtain ⟨_, ha, _, hl, -⟩ := h
    rw [hpieces]
    simp only [List.forall_mem_cons, List.not_mem_nil, false_implies, implies_true, and_true]
    exact ⟨Address.isElementChar_of_ofChars? ha, isElementChar_of_lengthOfChars? hl⟩
  · cases h

/-- The text of a network can be told from its neighbours in a set. -/
theorem isElement_of_parse? {s : String} {n : Network} (h : parse? s = some n) : IsElement s := by
  have hne : s ≠ "" := by
    rintro rfl
    have hnone : parse? "" = none := by decide
    rw [hnone] at h
    cases h
  exact isElement_of_forall hne (isElementChar_of_parse? h)

end Network

/-! ## Ports -/

theorem portOf?_toDigits (n : UInt16) : portOf? (Nat.toDigits 10 n.toNat) = some n := by
  have hall : (Nat.toDigits 10 n.toNat).all Char.isDigit :=
    List.all_eq_true.2 fun _ hc => Nat.isDigit_of_mem_toDigits (by decide) (by decide) hc
  have hlt : n.toNat < UInt16.size := n.toNat_lt
  simp [portOf?, hall, Nat.toDigits_ne_nil, Nat.ofDigitChars_ten_toDigits, hlt]

namespace PortSpan

theorem toList_text (s : PortSpan) : s.text.toList = if s.first = s.last then
    Nat.toDigits 10 s.first.toNat
    else Nat.toDigits 10 s.first.toNat ++ '-' :: Nat.toDigits 10 s.last.toNat := by
  unfold text
  split <;> simp

theorem isElementChar_text (s : PortSpan) : ∀ c ∈ s.text.toList, isElementChar c := by
  have hdigits : ∀ n, ∀ c ∈ Nat.toDigits 10 n, isElementChar c := fun n c hc =>
    isElementChar_of_isDigit (Nat.isDigit_of_mem_toDigits (by decide) (by decide) hc)
  rw [toList_text]
  split
  · exact hdigits _
  · intro c hc
    rcases List.mem_append.1 hc with hc | hc
    · exact hdigits _ c hc
    · rcases List.mem_cons.1 hc with rfl | hc
      · decide
      · exact hdigits _ c hc

theorem isElement_text (s : PortSpan) : IsElement s.text := by
  apply isElement_of_forall
  · intro hempty
    have hchars := congrArg String.toList hempty
    rw [toList_text] at hchars
    split at hchars <;> simp [Nat.toDigits_ne_nil] at hchars
  · exact s.isElementChar_text

/-- A span is read back from its text. -/
theorem parse?_text (s : PortSpan) : parse? s.text = some s := by
  have hpiece : ∀ n, Text.splitAtEach (· == '-') (Nat.toDigits 10 n) = [Nat.toDigits 10 n] := by
    intro n
    apply Text.splitAtEach_of_not_mem
    intro hsign
    exact absurd (Nat.isDigit_of_mem_toDigits (by decide) (by decide) hsign) (by decide)
  obtain ⟨first, last⟩ := s
  unfold parse?
  rw [toList_text]
  by_cases h : first = last
  · subst h
    simp [hpiece, portOf?_toDigits]
  · rw [if_neg h, Text.splitAtEach_append_cons (by decide), hpiece, hpiece]
    simp [portOf?_toDigits]

theorem mapM_parse?_text (spans : List PortSpan) :
    (spans.map text).mapM parse? = some spans := by
  induction spans with
  | nil => rfl
  | cons s spans ih => simp [parse?_text, ih]

end PortSpan

/-! ## Clauses -/

/-- If every element has a value, then the values of a list are those of its elements. -/
theorem exists_mapM {α β : Type} {f : α → Option β} {xs : List α} (h : ∀ x ∈ xs, (f x).isSome) :
    ∃ ys, xs.mapM f = some ys ∧ ∀ y, y ∈ ys ↔ ∃ x ∈ xs, f x = some y := by
  induction xs with
  | nil => exact ⟨[], rfl, by simp⟩
  | cons x xs ih =>
    obtain ⟨hx, hxs⟩ := List.forall_mem_cons.1 h
    obtain ⟨y, hy⟩ := Option.isSome_iff_exists.1 hx
    obtain ⟨ys, hys, hmem⟩ := ih hxs
    refine ⟨y :: ys, by simp [hy, hys], ?_⟩
    intro z
    simp [hmem, hy, eq_comm]

theorem isSome_of_mapM {α β : Type} {f : α → Option β} {xs : List α} {ys : List β}
    (h : xs.mapM f = some ys) : ∀ x ∈ xs, (f x).isSome := by
  induction xs generalizing ys with
  | nil => simp
  | cons x xs ih =>
    simp only [List.mapM_cons, Option.bind_eq_bind, Option.bind_eq_some_iff] at h
    obtain ⟨y, hy, ys', hys, -⟩ := h
    exact List.forall_mem_cons.2 ⟨by simp [hy], ih hys⟩

namespace Clause

/-- The condition that a clause states, if its blocks are networks. -/
def condition? : Clause → Option Condition
  | .sourceIn blocks => (blocks.mapM Network.parse?).map (.within .source)
  | .sourceNotIn blocks => (blocks.mapM Network.parse?).map (.outside .source)
  | .sourceInCluster => some (.member .source clusterPrefixes)
  | .destinationIn blocks => (blocks.mapM Network.parse?).map (.within .destination)
  | .destinationNotIn blocks => (blocks.mapM Network.parse?).map (.outside .destination)
  | .destinationInSet name => some (.member .destination name)

/-- A clause that can be told from its text: there are blocks, and a name is one word. -/
def Legible : Clause → Prop
  | .sourceIn blocks => blocks ≠ []
  | .sourceNotIn blocks => blocks ≠ []
  | .sourceInCluster => True
  | .destinationIn blocks => blocks ≠ []
  | .destinationNotIn blocks => blocks ≠ []
  | .destinationInSet name => Text.HasNoBlank name

theorem words_sourceIn (blocks : List String) :
    Text.words (sourceIn blocks).text = "ip" :: "saddr" :: Text.words (setText blocks) :=
  Text.words_append_blank "ip saddr" (setText blocks)

theorem words_sourceNotIn (blocks : List String) :
    Text.words (sourceNotIn blocks).text =
      "ip" :: "saddr" :: "!=" :: Text.words (setText blocks) :=
  Text.words_append_blank "ip saddr !=" (setText blocks)

theorem words_sourceInCluster :
    Text.words sourceInCluster.text = ["ip", "saddr", "==", "@cluster_prefixes"] := by
  decide

theorem words_destinationIn (blocks : List String) :
    Text.words (destinationIn blocks).text = "ip" :: "daddr" :: Text.words (setText blocks) :=
  Text.words_append_blank "ip daddr" (setText blocks)

theorem words_destinationNotIn (blocks : List String) :
    Text.words (destinationNotIn blocks).text =
      "ip" :: "daddr" :: "!=" :: Text.words (setText blocks) :=
  Text.words_append_blank "ip daddr !=" (setText blocks)

theorem words_destinationInSet {name : String} (h : Text.HasNoBlank name) :
    Text.words (destinationInSet name).text = ["ip", "daddr", "@" ++ name] := by
  have hword : Text.IsWord ("@" ++ name) :=
    ⟨by simp, Text.forall_mem_append (show Text.HasNoBlank "@" by decide) h⟩
  have htext : (destinationInSet name).text = "ip daddr" ++ " " ++ ("@" ++ name) := by
    show "ip daddr @" ++ name = _
    apply String.toList_inj.1
    simp
  rw [htext, Text.words_append_blank, hword.words]
  rfl

/-! ### Conditions on an address -/

theorem readSet_blocks {blocks : List String} (hne : blocks ≠ []) {networks : List Network}
    (hnetworks : blocks.mapM Network.parse? = some networks) (rest : List String) :
    ∃ words, Text.words (setText blocks) = "\x7b" :: words ∧
      readSet Network.parse? (words ++ rest) = some (networks, rest) := by
  refine readSet_setText hne ?_ hnetworks rest
  intro s hs
  obtain ⟨n, hn⟩ := Option.isSome_iff_exists.1 (isSome_of_mapM hnetworks s hs)
  exact Network.isElement_of_parse? hn

theorem readAddress_within (side : Side) {blocks : List String} (hne : blocks ≠ [])
    {networks : List Network} (hnetworks : blocks.mapM Network.parse? = some networks)
    (rest : List String) :
    readAddress side (Text.words (setText blocks) ++ rest) =
      some (.within side networks, rest) := by
  obtain ⟨words, hwords, hread⟩ := readSet_blocks hne hnetworks rest
  have hopen : readAddress side ("\x7b" :: (words ++ rest)) =
      (readSet Network.parse? (words ++ rest)).map fun r => (.within side r.1, r.2) := rfl
  rw [hwords, List.cons_append, hopen, hread, Option.map_some]

theorem readAddress_outside (side : Side) {blocks : List String} (hne : blocks ≠ [])
    {networks : List Network} (hnetworks : blocks.mapM Network.parse? = some networks)
    (rest : List String) :
    readAddress side ("!=" :: (Text.words (setText blocks) ++ rest)) =
      some (.outside side networks, rest) := by
  obtain ⟨words, hwords, hread⟩ := readSet_blocks hne hnetworks rest
  have hopen : readAddress side ("!=" :: "\x7b" :: (words ++ rest)) =
      (readSet Network.parse? (words ++ rest)).map fun r => (.outside side r.1, r.2) := rfl
  rw [hwords, List.cons_append, hopen, hread, Option.map_some]

theorem readAddress_member (side : Side) (name : String) (rest : List String) :
    readAddress side (("@" ++ name) :: rest) = some (.member side name, rest) := by
  -- A word that starts with the mark of a name is none of the others.
  have hmark : ∀ w : String, w.toList.head? ≠ some '@' → "@" ++ name ≠ w := by
    rintro w hw rfl
    exact hw (by simp)
  rw [readAddress.eq_def]
  split
  case h_1 heq => exact absurd (List.cons.inj heq).1 (hmark _ (by decide))
  case h_2 heq => exact absurd (List.cons.inj heq).1 (hmark _ (by decide))
  case h_3 heq => exact absurd (List.cons.inj heq).1 (hmark _ (by decide))
  case h_4 heq =>
    obtain ⟨rfl, rfl⟩ := List.cons.inj heq
    simp [setName?]
  case h_5 heq => cases heq

/-! ### Clauses by their words -/

/-- The text of a clause starts like no verdict. -/
theorem exists_words {c : Clause} (hc : c.Legible) : ∃ ws, Text.words c.text = "ip" :: ws := by
  cases c with
  | sourceIn blocks => exact ⟨_, words_sourceIn _⟩
  | sourceNotIn blocks => exact ⟨_, words_sourceNotIn _⟩
  | sourceInCluster => exact ⟨_, words_sourceInCluster⟩
  | destinationIn blocks => exact ⟨_, words_destinationIn _⟩
  | destinationNotIn blocks => exact ⟨_, words_destinationNotIn _⟩
  | destinationInSet name => exact ⟨_, words_destinationInSet hc⟩

/-- A clause is read as the condition that it states. -/
theorem readCondition_text {c : Clause} (hc : c.Legible) {condition : Condition}
    (hcondition : c.condition? = some condition) (rest : List String) :
    readCondition (Text.words c.text ++ rest) = some (condition, rest) := by
  cases c with
  | sourceIn blocks =>
    obtain ⟨networks, hnetworks, rfl⟩ := Option.map_eq_some_iff.1 hcondition
    rw [words_sourceIn]
    exact readAddress_within .source hc hnetworks rest
  | sourceNotIn blocks =>
    obtain ⟨networks, hnetworks, rfl⟩ := Option.map_eq_some_iff.1 hcondition
    rw [words_sourceNotIn]
    exact readAddress_outside .source hc hnetworks rest
  | sourceInCluster =>
    obtain rfl := Option.some.inj hcondition
    rw [words_sourceInCluster]
    rfl
  | destinationIn blocks =>
    obtain ⟨networks, hnetworks, rfl⟩ := Option.map_eq_some_iff.1 hcondition
    rw [words_destinationIn]
    exact readAddress_within .destination hc hnetworks rest
  | destinationNotIn blocks =>
    obtain ⟨networks, hnetworks, rfl⟩ := Option.map_eq_some_iff.1 hcondition
    rw [words_destinationNotIn]
    exact readAddress_outside .destination hc hnetworks rest
  | destinationInSet name =>
    obtain rfl := Option.some.inj hcondition
    rw [words_destinationInSet hc]
    exact readAddress_member .destination name rest

end Clause

/-! ## Rules -/

namespace PortRule

/-- A rule that can be told from its line. -/
structure Legible (r : PortRule) : Prop where
  clauses : ∀ c ∈ r.clauses, c.Legible
  ports : r.ports ≠ []

/-- The condition on protocol and port. -/
def portCondition (r : PortRule) : Condition := .ports r.protocol r.ports

/-- The words of a line: those of the clauses, those of the ports, the verdict and the comment. -/
theorem exists_words_text (r : PortRule) (hports : r.ports ≠ []) : ∃ ws comment,
    Text.words r.text = r.clauses.flatMap (fun c => Text.words c.text) ++
        (r.protocol.text :: "dport" :: "\x7b" :: ws) ∧
      readSet PortSpan.parse? ws =
        some (r.ports, "counter" :: "accept" :: "comment" :: comment) := by
  have hcounter : Text.IsWord "counter" := ⟨by decide, by decide⟩
  have haccept : Text.IsWord "accept" := ⟨by decide, by decide⟩
  have hprotocol : Text.IsWord r.protocol.text := by
    cases r.protocol <;> exact ⟨by decide, by decide⟩
  have hdport : Text.IsWord "dport" := ⟨by decide, by decide⟩
  have hcomment : Text.words ("comment \"" ++ r.comment ++ "\"") =
      "comment" :: Text.words ("\"" ++ r.comment ++ "\"") := by
    have htext : "comment \"" ++ r.comment ++ "\"" =
        "comment" ++ " " ++ ("\"" ++ r.comment ++ "\"") := by
      apply String.toList_inj.1
      simp
    rw [htext, Text.words_append_blank]
    rfl
  have hspans : ∀ s ∈ r.ports.map PortSpan.text, IsElement s := by
    intro s hs
    obtain ⟨span, -, rfl⟩ := List.mem_map.1 hs
    exact span.isElement_text
  obtain ⟨ws, hws, hread⟩ := readSet_setText (by simpa using hports) hspans
    (PortSpan.mapM_parse?_text r.ports)
    ("counter" :: "accept" :: "comment" :: Text.words ("\"" ++ r.comment ++ "\""))
  have hport : Text.words (r.protocol.text ++ " dport " ++ setText (r.ports.map PortSpan.text)) =
      r.protocol.text :: "dport" :: "\x7b" :: ws := by
    have htext : r.protocol.text ++ " dport " ++ setText (r.ports.map PortSpan.text) =
        r.protocol.text ++ " " ++ "dport" ++ " " ++ setText (r.ports.map PortSpan.text) := by
      apply String.toList_inj.1
      simp
    rw [htext, Text.words_append_blank, Text.words_append_blank, hprotocol.words, hdport.words, hws]
    rfl
  -- Whatever blanks the comment has in it, its words come after the verdict.
  refine ⟨ws ++ ("counter" :: "accept" :: "comment" :: Text.words ("\"" ++ r.comment ++ "\"")), _,
    ?_, hread⟩
  rw [text, Text.words_intercalate, List.flatMap_append, List.flatMap_map]
  simp [hport, hcounter.words, haccept.words, hcomment]

/-- Where no verdict stands, a condition is read. -/
theorem readConditions_succ (n : Nat) {words : List String} (h : words.head? ≠ some "counter") :
    readConditions (n + 1) words = (readCondition words).bind fun r =>
      (readConditions n r.2).map (r.1 :: ·) := by
  rw [readConditions]
  · cases readCondition words with
    | none => rfl
    | some r => cases hmore : readConditions n r.2 <;> simp [hmore]
  · rintro comment rfl
    exact h rfl

theorem readCondition_ports (protocol : Protocol) (words : List String) :
    readCondition (protocol.text :: "dport" :: "\x7b" :: words) =
      (readSet PortSpan.parse? words).map fun r => (.ports protocol r.1, r.2) := by
  cases protocol <;> cases hread : readSet PortSpan.parse? words <;>
    simp [readCondition, Protocol.text, Protocol.ofText?, hread]

/-- Clauses are read one after the other. -/
theorem readConditions_clauses {clauses : List Clause} {conditions : List Condition}
    (hlegible : ∀ c ∈ clauses, c.Legible)
    (hconditions : clauses.mapM Clause.condition? = some conditions) (n : Nat)
    (rest : List String) :
    readConditions (clauses.length + n) (clauses.flatMap (fun c => Text.words c.text) ++ rest) =
      (readConditions n rest).map (conditions ++ ·) := by
  induction clauses generalizing conditions with
  | nil =>
    obtain rfl := Option.some.inj hconditions
    simp
  | cons c clauses ih =>
    simp only [List.mapM_cons, Option.bind_eq_bind, Option.bind_eq_some_iff] at hconditions
    obtain ⟨condition, hc, more, hmore, hconditions⟩ := hconditions
    obtain rfl := Option.some.inj hconditions
    obtain ⟨hlc, hlrest⟩ := List.forall_mem_cons.1 hlegible
    obtain ⟨ws, hws⟩ := Clause.exists_words hlc
    have hread := Clause.readCondition_text hlc hc
      (clauses.flatMap (fun c => Text.words c.text) ++ rest)
    have hsteps : (c :: clauses).length + n = (clauses.length + n) + 1 := by
      rw [List.length_cons]
      omega
    -- A clause does not start like the verdict, so that its condition is read.
    have hverdict : (Text.words c.text ++
        (clauses.flatMap (fun c => Text.words c.text) ++ rest)).head? ≠ some "counter" := by
      rw [hws]
      simp
    rw [hsteps, List.flatMap_cons, List.append_assoc, readConditions_succ _ hverdict, hread]
    simp only [Option.bind_some, ih hlrest hmore]
    cases readConditions n rest <;> rfl

/-- The line of a rule is read as the conditions of its clauses and its ports. -/
theorem readRule_text {r : PortRule} (hr : r.Legible) {conditions : List Condition}
    (hconditions : r.clauses.mapM Clause.condition? = some conditions) :
    readRule r.text = some (conditions ++ [r.portCondition]) := by
  obtain ⟨ws, comment, hwords, hread⟩ := r.exists_words_text hr.ports
  -- Every clause has a word, and the ports have more than one.
  obtain ⟨n, hn⟩ : ∃ n, (Text.words r.text).length = r.clauses.length + (n + 1) := by
    have hclauses : r.clauses.length ≤
        (r.clauses.flatMap (fun c => Text.words c.text)).length := by
      have hlegible := hr.clauses
      generalize r.clauses = clauses at hlegible
      induction clauses with
      | nil => simp
      | cons c clauses ih =>
        obtain ⟨hc, hclauses⟩ := List.forall_mem_cons.1 hlegible
        obtain ⟨ws, hws⟩ := Clause.exists_words hc
        have hrest := ih hclauses
        rw [List.flatMap_cons, List.length_append, List.length_cons, hws, List.length_cons]
        omega
    have hlength := congrArg List.length hwords
    rw [List.length_append, List.length_cons] at hlength
    exact ⟨(Text.words r.text).length - r.clauses.length - 1, by omega⟩
  have hport : readCondition (r.protocol.text :: "dport" :: "\x7b" :: ws) =
      some (r.portCondition, "counter" :: "accept" :: "comment" :: comment) := by
    rw [readCondition_ports, hread]
    rfl
  have hverdict : (r.protocol.text :: "dport" :: "\x7b" :: ws).head? ≠ some "counter" := by
    cases r.protocol <;> simp [Protocol.text]
  rw [readRule, hn, hwords, readConditions_clauses hr.clauses hconditions,
    readConditions_succ _ hverdict, hport]
  simp [readConditions]

end PortRule

end ClusterFirewall
