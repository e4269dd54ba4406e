import ClusterFirewall.Proofs.First
import ClusterFirewall.Proofs.Ruleset.Contents
import ClusterFirewall.Proofs.Ruleset.Reading

/-!
# Spreading traffic over source addresses

Traffic that leaves through a network takes one of the addresses that are given for it. What a line
does with the hash of a packet is a `Translation`, which can be read off the line as the packet
filter reads it. A map from hash values to addresses is complete if its keys are the numbers below
the modulus, each once: a missing key would leave the packets of some hash values without an
address.

- **Translations**: `Translation`, the address that a hash value gets, and the text.
- **Reading**: `readSourceRule?_snatLine`, a line is read as the translation that it was written
  for, as long as the addresses are words without commas.
- **Rules**: `FirewallSpec.snatLines_spread`.
-/

namespace ClusterFirewall

/-! ## Translations -/

/-- How the source address of a packet is chosen. -/
inductive Translation where
  /-- Every packet gets the same address. -/
  | fixed (address : String)
  /-- The hash of a packet modulo a number is looked up in a map. -/
  | spread (modulus : Nat) (entries : List (Nat × String))
  deriving DecidableEq, Repr

namespace Translation

/-- The address that a packet with a hash value gets. -/
def address? (t : Translation) (hash : Nat) : Option String :=
  match t with
  | fixed address => some address
  | spread modulus entries => entries.lookup (hash % modulus)

/-- An entry of a map. -/
def entryText (e : Nat × String) : String := toString e.1 ++ " : " ++ e.2

/-- The text of a translation. -/
def text : Translation → String
  | fixed address => address
  | spread modulus entries =>
    "jhash ip daddr . ip saddr mod " ++ toString modulus ++ " map " ++
      setText (entries.map entryText)

/-- Numbers from a first one on as keys of addresses. -/
def numbered (first : Nat) (ips : List String) : List (Nat × String) :=
  (ips.zipIdx first).map Prod.swap

/-- The translation to some addresses, if there are any. -/
def ofAddresses? : List String → Option Translation
  | [] => none
  | [ip] => some (fixed ip)
  | ips => some (spread ips.length (numbered 0 ips))

theorem text_spread (modulus : Nat) (entries : List (Nat × String)) :
    text (spread modulus entries) =
      "jhash ip daddr . ip saddr mod " ++ toString modulus ++ " map " ++
        setText (entries.map entryText) := rfl

theorem map_entryText_numbered (ips : List String) :
    (numbered 0 ips).map entryText = addressMap ips := by
  rw [numbered, List.map_map]
  rfl

theorem snatTarget?_eq (ips : List String) : snatTarget? ips = (ofAddresses? ips).map text := by
  rcases ips with _ | ⟨ip, _ | ⟨ip', rest⟩⟩
  · rfl
  · rfl
  · have htext := text_spread (ip :: ip' :: rest).length (numbered 0 (ip :: ip' :: rest))
    rw [map_entryText_numbered] at htext
    exact congrArg some htext.symm

theorem ofAddresses?_eq_none_iff {ips : List String} : ofAddresses? ips = none ↔ ips = [] := by
  rcases ips with _ | ⟨ip, _ | ⟨ip', rest⟩⟩ <;> simp [ofAddresses?]

theorem keys_numbered (first : Nat) (ips : List String) :
    (numbered first ips).map Prod.fst = List.range' first ips.length := by
  rw [numbered, List.map_map, ← List.zipIdx_map_snd]
  rfl

theorem values_numbered (first : Nat) (ips : List String) :
    (numbered first ips).map Prod.snd = ips := by
  conv => rhs; rw [← List.zipIdx_map_fst first ips]
  rw [numbered, List.map_map]
  rfl

theorem lookup_numbered (first : Nat) (ips : List String) (i : Nat) :
    (numbered first ips).lookup (first + i) = ips[i]? := by
  induction ips generalizing first i with
  | nil => rfl
  | cons ip ips ih =>
    cases i with
    | zero => simp [numbered]
    | succ i =>
      have hne : (first + (i + 1) == first) = false := by simp
      have hrest := ih (first + 1) i
      rw [Nat.add_assoc, Nat.add_comm 1 i] at hrest
      simpa [numbered, List.lookup_cons, hne] using hrest

/-- Every hash value gets the address at its place. -/
theorem address?_of_ofAddresses? {ips : List String} {t : Translation}
    (h : ofAddresses? ips = some t) (hash : Nat) :
    t.address? hash = ips[hash % ips.length]? := by
  match ips with
  | [] => cases h
  | [ip] =>
    obtain rfl := Option.some.inj h
    simp [address?, Nat.mod_one]
  | ip :: ip' :: rest =>
    obtain rfl := Option.some.inj h
    have hlookup := lookup_numbered 0 (ip :: ip' :: rest) (hash % (ip :: ip' :: rest).length)
    rwa [Nat.zero_add] at hlookup

end Translation

/-! ## Reading -/

/-- What a line of source addresses does. -/
structure SourceRule where
  /-- The number in the name of the interface that traffic leaves through. -/
  vlan : Nat
  /-- How the address is chosen. -/
  translation : Translation
  deriving DecidableEq, Repr

/-- The number that digits write. -/
def number? (cs : List Char) : Option Nat :=
  if cs.isEmpty || !cs.all Char.isDigit then none else some (Nat.ofDigitChars 10 cs 0)

/-- The number in the name of an interface between quotes. -/
def vlan? (w : String) : Option Nat :=
  match w.toList with
  | '"' :: 'v' :: 'l' :: 'a' :: 'n' :: rest =>
    if rest.getLast? = some '"' then number? rest.dropLast else none
  | _ => none

/-- The entries of a map up to the closing brace. All but the last one are followed by a comma. -/
def readMap : List String → Option (List (Nat × String) × List String)
  | key :: ":" :: w :: rest => do
    let n ← number? key.toList
    if w.toList.getLast? = some ',' then
      let (entries, rest) ← readMap rest
      pure ((n, String.ofList w.toList.dropLast) :: entries, rest)
    else
      let rest ← afterBrace? rest
      pure ([(n, w)], rest)
  | _ => none

/-- The words that a translation by hash values starts with. -/
def spreadFront : List String := ["jhash", "ip", "daddr", ".", "ip", "saddr", "mod"]

/-- A translation by hash values, from the modulus on. -/
def readSpread : List String → Option (Translation × List String)
  | n :: "map" :: "\x7b" :: rest => do
    let modulus ← number? n.toList
    let (entries, rest) ← readMap rest
    pure (.spread modulus entries, rest)
  | _ => none

/-- A translation. -/
def readTranslation (words : List String) : Option (Translation × List String) :=
  if spreadFront.isPrefixOf words then readSpread (words.drop spreadFront.length)
  else
    match words with
    | w :: rest => some (.fixed w, rest)
    | [] => none

/-- A line that gives traffic of the cluster a source address; a comment follows. -/
def readSourceRule? (line : String) : Option SourceRule :=
  match Text.words line with
  | "ip" :: "saddr" :: w :: "oifname" :: name :: "counter" :: "snat" :: "to" :: rest => do
    let source ← setName? w
    let vlan ← vlan? name
    let (translation, rest) ← readTranslation rest
    if source = clusterPrefixes ∧ rest.head? = some "comment" then pure ⟨vlan, translation⟩
    else none
  | _ => none

theorem number?_toDigits (n : Nat) : number? (Nat.toDigits 10 n) = some n := by
  have hall : (Nat.toDigits 10 n).all Char.isDigit :=
    List.all_eq_true.2 fun _ hc => Nat.isDigit_of_mem_toDigits (by decide) (by decide) hc
  simp [number?, hall, Nat.toDigits_ne_nil, Nat.ofDigitChars_ten_toDigits]

theorem vlan?_text (n : Nat) : vlan? ("\"vlan" ++ toString n ++ "\"") = some n := by
  have hchars : ("\"vlan" ++ toString n ++ "\"").toList =
      '"' :: 'v' :: 'l' :: 'a' :: 'n' :: (Nat.toDigits 10 n ++ ['"']) := by simp
  simp only [vlan?, hchars, List.getLast?_append, List.getLast?_singleton, Option.some_or,
    List.dropLast_concat, if_pos, number?_toDigits]

theorem isElement_toString (n : Nat) : IsElement (toString n) := by
  have hne : toString n ≠ "" := by
    intro h
    have hdigits := congrArg String.toList h
    simp [Nat.toDigits_ne_nil] at hdigits
  refine isElement_of_forall hne fun c hc => isElementChar_of_isDigit ?_
  have hc' : c ∈ Nat.toDigits 10 n := by simpa using hc
  exact Nat.isDigit_of_mem_toDigits (by decide) (by decide) hc'

theorem words_entryText {n : Nat} {ip : String} (h : Text.IsWord ip) :
    Text.words (Translation.entryText (n, ip)) = [toString n, ":", ip] := by
  have hcolon : Text.IsWord ":" := ⟨by decide, by decide⟩
  have htext : Translation.entryText (n, ip) = toString n ++ " " ++ ":" ++ " " ++ ip := by
    apply String.toList_inj.1
    simp [Translation.entryText]
  rw [htext, Text.words_append_blank, Text.words_append_blank, (isElement_toString n).words,
    hcolon.words, h.words]
  rfl

theorem readMap_intercalate {entries : List (Nat × String)} (hne : entries ≠ [])
    (h : ∀ e ∈ entries, IsElement e.2) (rest : List String) :
    readMap (Text.words (", ".intercalate (entries.map Translation.entryText)) ++
      "\x7d" :: rest) = some (entries, rest) := by
  -- All addresses but the last one end in the comma after their entry.
  induction entries with
  | nil => exact absurd rfl hne
  | cons e entries ih =>
    obtain ⟨n, ip⟩ := e
    obtain ⟨hip, hentries⟩ := List.forall_mem_cons.1 h
    cases entries with
    | nil =>
      have hlast : ip.toList.getLast? ≠ some ',' := by
        intro hlast
        exact hip.no_comma ',' (List.mem_of_getLast? hlast) rfl
      rw [List.map_singleton, String.intercalate_singleton, words_entryText hip.toIsWord]
      simp [readMap, number?_toDigits, hlast, afterBrace?]
    | cons e' entries =>
      -- The comma goes to the address in front of it, where the reader takes it off.
      have hcomma : Text.IsWord "," := ⟨by decide, by decide⟩
      have htext : ", ".intercalate (((n, ip) :: e' :: entries).map Translation.entryText) =
          Translation.entryText (n, ip ++ ",") ++ " " ++
            ", ".intercalate ((e' :: entries).map Translation.entryText) := by
        rw [List.map_cons, List.map_cons, String.intercalate_cons_cons]
        apply String.toList_inj.1
        simp [Translation.entryText]
      have hread := ih (List.cons_ne_nil _ _) hentries
      rw [List.map_cons] at hread
      rw [htext, Text.words_append_blank, words_entryText (hip.append hcomma), List.append_assoc]
      simp [readMap, number?_toDigits, hread]

/-- A translation is read back from its text, up to the comment that follows. -/
theorem readTranslation_text {ips : List String} {t : Translation}
    (ht : Translation.ofAddresses? ips = some t) (h : ∀ ip ∈ ips, IsElement ip)
    (rest : List String) :
    readTranslation (Text.words t.text ++ "comment" :: rest) = some (t, "comment" :: rest) := by
  rcases ips with _ | ⟨ip, _ | ⟨ip', more⟩⟩
  · cases ht
  · obtain rfl := Option.some.inj ht
    have hip : Text.words (Translation.fixed ip).text = [ip] := (h ip (by simp)).words
    rw [hip]
    simp [readTranslation, spreadFront]
  · obtain rfl := Option.some.inj ht
    generalize hall : ip :: ip' :: more = ips at h ⊢
    have hne : Translation.numbered 0 ips ≠ [] := by simp [← hall, Translation.numbered]
    have hentries : ∀ e ∈ Translation.numbered 0 ips, IsElement e.2 := by
      intro e he
      have hvalue := List.mem_map_of_mem (f := Prod.snd) he
      rw [Translation.values_numbered] at hvalue
      exact h e.2 hvalue
    have hread := readMap_intercalate hne hentries ("comment" :: rest)
    -- The text is cut at its blanks, first around the modulus and then around the map.
    have htext : (Translation.spread ips.length (Translation.numbered 0 ips)).text =
        "jhash ip daddr . ip saddr mod" ++ " " ++ toString ips.length ++ " " ++ "map \x7b" ++ " " ++
          ", ".intercalate ((Translation.numbered 0 ips).map Translation.entryText) ++ " " ++
            "\x7d" := by
      rw [Translation.text_spread, setText]
      generalize ", ".intercalate ((Translation.numbered 0 ips).map Translation.entryText) = m
      apply String.toList_inj.1
      simp
    have hfront : Text.words "jhash ip daddr . ip saddr mod" = spreadFront := by decide
    have hmap : Text.words "map \x7b" = ["map", "\x7b"] := by decide
    have hclose : Text.words "\x7d" = ["\x7d"] := by decide
    rw [htext]
    simp only [Text.words_append_blank, hfront, hmap, hclose, (isElement_toString _).words]
    simp [readTranslation, spreadFront, readSpread, number?_toDigits, hread]

/-- A line of source addresses is read as what it was written for. -/
theorem readSourceRule?_snatLine {ips : List String} {t : Translation}
    (ht : Translation.ofAddresses? ips = some t) (h : ∀ ip ∈ ips, IsElement ip) (vrf : UInt64)
    (networkId : String) :
    readSourceRule? (snatLine vrf t.text networkId) = some ⟨vrf.toNat, t⟩ := by
  have hline : snatLine vrf t.text networkId =
      "ip saddr @cluster_prefixes oifname" ++ " " ++ ("\"vlan" ++ toString vrf.toNat ++ "\"") ++
        " " ++ "counter snat to" ++ " " ++ t.text ++ " " ++ "comment" ++ " " ++
          ("\"snat for " ++ networkId ++ "\"") := by
    unfold snatLine
    generalize t.text = target
    generalize toString vrf.toNat = v
    apply String.toList_inj.1
    simp [clusterPrefixes]
  have hfront : Text.words "ip saddr @cluster_prefixes oifname" =
      ["ip", "saddr", "@cluster_prefixes", "oifname"] := by decide
  have hquote : Text.IsWord "\"" := ⟨by decide, by decide⟩
  have hvlan : Text.IsWord "\"vlan" := ⟨by decide, by decide⟩
  -- The name of the interface is one word with its quotes.
  have hname := (hvlan.append (isElement_toString vrf.toNat).toIsWord).append hquote
  have hverdict : Text.words "counter snat to" = ["counter", "snat", "to"] := by decide
  have hcomment : Text.words "comment" = ["comment"] := by decide
  have hset : setName? "@cluster_prefixes" = some clusterPrefixes := by decide
  have hnumber := vlan?_text vrf.toNat
  unfold readSourceRule?
  rw [hline]
  generalize "\"vlan" ++ toString vrf.toNat ++ "\"" = w at hname hnumber ⊢
  simp only [Text.words_append_blank, hfront, hname.words, hverdict, hcomment]
  simp [readTranslation_text ht h, hset, hnumber]

/-! ## Rules -/

/-- Traffic that leaves through the network of an entry is translated to the entry's addresses. -/
structure Translation.Serves (t : Translation) (f : FirewallSpec) (s : EgressSnat)
    (vrf : UInt64) : Prop where
  /-- The traffic leaves through the first network of the entry's id. -/
  network : ∃ n, IsFirst f.networks (·.networkId = s.networkId) n ∧ n.vrf = some vrf
  /-- The only address is taken as it is. -/
  single : ∀ ip, s.ips = [ip] → t = .fixed ip
  /-- The keys of the map are the numbers below the modulus in their order, each once, and they
  stand for the addresses in their order. -/
  several : 2 ≤ s.ips.length → ∃ entries, t = .spread s.ips.length entries ∧
    entries.map Prod.fst = List.range s.ips.length ∧ entries.map Prod.snd = s.ips
  /-- Every hash value gets one of the addresses. -/
  total : ∀ hash, ∃ ip, s.ips[hash % s.ips.length]? = some ip ∧ t.address? hash = some ip
  /-- Every address is got by some hash value below the modulus. -/
  onto : ∀ ip ∈ s.ips, ∃ residue < s.ips.length, t.address? residue = some ip

namespace FirewallSpec

variable {f : FirewallSpec} {s : EgressSnat} {vrf : UInt64}

theorem serves_of_vrf? (hvrf : f.vrf? s.networkId = some vrf) {t : Translation}
    (ht : Translation.ofAddresses? s.ips = some t) : t.Serves f s vrf := by
  have haddress := Translation.address?_of_ofAddresses? ht
  have hpos : 0 < s.ips.length := by
    refine List.length_pos_iff.2 ?_
    rintro hnil
    rw [hnil] at ht
    cases ht
  constructor
  case network =>
    obtain ⟨n, hn, hv⟩ := Option.bind_eq_some_iff.1 hvrf
    exact ⟨n, (find?_eq_some_iff_isFirst fun _ => beq_iff_eq).1 hn, hv⟩
  case single =>
    intro ip hip
    rw [hip] at ht
    exact (Option.some.inj ht).symm
  case several =>
    intro hlength
    refine ⟨Translation.numbered 0 s.ips, ?_, ?_, Translation.values_numbered 0 s.ips⟩
    · generalize s.ips = ips at ht hlength
      match ips with
      | _ :: _ :: _ => exact (Option.some.inj ht).symm
    · rw [Translation.keys_numbered, List.range_eq_range']
  case total =>
    intro hash
    have hlt : hash % s.ips.length < s.ips.length := Nat.mod_lt _ hpos
    exact ⟨s.ips[hash % s.ips.length], List.getElem?_eq_getElem hlt,
      (haddress hash).trans (List.getElem?_eq_getElem hlt)⟩
  case onto =>
    intro ip hip
    obtain ⟨i, hi, rfl⟩ := List.getElem_of_mem hip
    refine ⟨i, hi, ?_⟩
    rw [haddress, Nat.mod_eq_of_lt hi, List.getElem?_eq_getElem hi]

/-- A line gives the traffic of an entry its addresses, and it is read so. -/
theorem spread_of_vrf? (hvrf : f.vrf? s.networkId = some vrf) {target : String}
    (htarget : snatTarget? s.ips = some target) :
    ∃ t : Translation, t.Serves f s vrf ∧ target = t.text ∧
      ((∀ ip ∈ s.ips, IsElement ip) →
        readSourceRule? (snatLine vrf target s.networkId) = some ⟨vrf.toNat, t⟩) := by
  rw [Translation.snatTarget?_eq] at htarget
  obtain ⟨t, ht, rfl⟩ := Option.map_eq_some_iff.1 htarget
  exact ⟨t, serves_of_vrf? hvrf ht, rfl, fun h => readSourceRule?_snatLine ht h vrf s.networkId⟩

/-- Every entry that has addresses gives one line, in the order of the entries, and the line spreads
the traffic of its network over just these addresses. -/
theorem snatLines_spread {lines : List String} (h : f.snatLines = .ok lines) :
    List.Forall₂ (fun s line => ∃ vrf t, t.Serves f s vrf ∧
        line = snatLine vrf t.text s.networkId ∧
        ((∀ ip ∈ s.ips, IsElement ip) → readSourceRule? line = some ⟨vrf.toNat, t⟩))
      (f.egressSnat.filter fun s => !s.ips.isEmpty) lines := by
  unfold snatLines at h
  generalize f.egressSnat = entries at h ⊢
  induction entries generalizing lines with
  | nil =>
    obtain rfl := Except.ok.inj h
    exact .nil
  | cons s rest ih =>
    obtain ⟨vrf, more, hvrf, hmore, rfl⟩ := exists_of_snatLinesOf_cons h
    cases htarget : snatTarget? s.ips with
    | none =>
      -- The entry was looked up like the others, but it gives no line.
      have hempty : s.ips = [] := by
        rw [Translation.snatTarget?_eq, Option.map_eq_none_iff] at htarget
        exact Translation.ofAddresses?_eq_none_iff.1 htarget
      rw [List.filter_cons_of_neg (by simp [hempty])]
      exact ih hmore
    | some target =>
      have hne : s.ips ≠ [] := by
        intro hnil
        rw [hnil] at htarget
        cases htarget
      obtain ⟨t, hserves, rfl, hread⟩ := spread_of_vrf? hvrf htarget
      rw [List.filter_cons_of_pos (by simpa using hne)]
      exact .cons ⟨vrf, t, hserves, rfl, hread⟩ (ih hmore)

/-- The first network of an id counts, an entry without addresses gives no line, and an entry with
three addresses gives a map with three keys. -/
theorem snatLines_spread_of_three :
    let networks := [⟨"internet", .external, some 6, []⟩, ⟨"internet", .external, some 9, []⟩,
      ⟨"mpls", .external, some 7, []⟩]
    let spread := ⟨"internet", ["192.0.2.1", "192.0.2.2", "192.0.2.3"]⟩
    let entries := [spread, ⟨"mpls", []⟩, ⟨"mpls", ["192.0.2.4"]⟩]
    let f : FirewallSpec := ⟨[], networks, [], entries⟩
    ∃ first second, f.snatLines = .ok [first, second] ∧
      ∃ vrf t, Translation.Serves t f spread vrf ∧
        readSourceRule? first = some ⟨vrf.toNat, t⟩ := by
  intro networks spread entries f
  have hlines : ∃ first second, f.snatLines = .ok [first, second] := ⟨_, _, rfl⟩
  obtain ⟨first, second, h⟩ := hlines
  refine ⟨first, second, h, ?_⟩
  have hspread := snatLines_spread h
  obtain ⟨⟨vrf, t, hserves, -, hread⟩, -⟩ := List.forall₂_cons.1 hspread
  refine ⟨vrf, t, hserves, hread ?_⟩
  have haddresses : ∀ ip ∈ spread.ips, ip ≠ "" ∧ ip.toList.all isElementChar := by decide
  intro ip hip
  obtain ⟨hne, hchars⟩ := haddresses ip hip
  exact isElement_of_forall hne (List.all_eq_true.1 hchars)

end FirewallSpec

end ClusterFirewall
