import ClusterFirewall.Proofs.Controller.Loading
import ClusterFirewall.Proofs.Text.Rows

/-!
# A text stands for one ruleset

The text of a ruleset writes lists of unknown length between fixed lines and says nowhere how long
they are; their lines are any texts, which may look like the fixed ones. What tells them apart is
the indentation: the lines of a block start with eight blanks and the brace that closes it with
four. So as long as no text breaks its line, a block is known from the lines of the whole
(`block_append_inj`), and the fields are known from the blocks.

Main statement: `text_eq_iff_and_unchanged_iff`.
-/

namespace ClusterFirewall

/-! ## Elements of a set -/

/-- Texts without commas are the pieces of what is joined from them, all but the first one behind
the blank after the comma. -/
theorem splitAtEach_intercalate_comma {text : String} {texts : List String}
    (h : ∀ t ∈ text :: texts, ',' ∉ t.toList) :
    Text.splitAtEach (· == ',') (", ".intercalate (text :: texts)).toList =
      text.toList :: texts.map fun t => ' ' :: t.toList := by
  induction texts generalizing text with
  | nil =>
    rw [String.intercalate_singleton]
    exact Text.splitAtEach_of_not_mem (h text List.mem_cons_self)
  | cons t texts ih =>
    obtain ⟨htext, hrest⟩ := List.forall_mem_cons.1 h
    -- The blank after a comma belongs to the piece that follows.
    have hjoin : (", ".intercalate (text :: t :: texts)).toList =
        text.toList ++ ',' :: (", ".intercalate ((" " ++ t) :: texts)).toList := by
      cases texts <;> simp [String.intercalate_cons_cons]
    have hblank : ∀ u ∈ (" " ++ t) :: texts, ',' ∉ u.toList := by
      refine List.forall_mem_cons.2 ⟨?_, (List.forall_mem_cons.1 hrest).2⟩
      simpa using (List.forall_mem_cons.1 hrest).1
    rw [hjoin, Text.splitAtEach_append_cons rfl, Text.splitAtEach_of_not_mem htext, ih hblank]
    simp

/-- The elements of a set are known from its text, unless there are none. -/
theorem setText_inj {items items' : List String} (h : ∀ s ∈ items, ',' ∉ s.toList)
    (h' : ∀ s ∈ items', ',' ∉ s.toList) (hne : items ≠ []) (hne' : items' ≠ [])
    (heq : setText items = setText items') : items = items' := by
  obtain ⟨s, rest, rfl⟩ := List.exists_cons_of_ne_nil hne
  obtain ⟨s', rest', rfl⟩ := List.exists_cons_of_ne_nil hne'
  have hjoined : ", ".intercalate (s :: rest) = ", ".intercalate (s' :: rest') :=
    (String.append_right_inj _).1 ((String.append_left_inj _).1 heq)
  have hpieces := splitAtEach_intercalate_comma h
  rw [hjoined, splitAtEach_intercalate_comma h'] at hpieces
  obtain ⟨hfirst, hmap⟩ := List.cons.inj hpieces
  have hrest : rest' = rest := by
    refine (List.map_inj_right ?_).1 hmap
    intro t u htu
    exact String.toList_inj.1 (List.cons.inj htu).2
  rw [String.toList_inj.1 hfirst, hrest]

namespace Ruleset

/-! ## Blocks -/

theorem indented_inj {line line' : String} : indented line = indented line' ↔ line = line' :=
  String.append_right_inj _

theorem map_indented_inj {lines lines' : List String} :
    lines.map indented = lines'.map indented ↔ lines = lines' :=
  List.map_inj_right fun _ _ => indented_inj.1

/-- An indented line closes no block. -/
theorem brace_not_mem_indented (lines : List String) : "    \x7d" ∉ lines.map indented := by
  intro hmem
  obtain ⟨line, -, hline⟩ := List.mem_map.1 hmem
  have hchars := congrArg String.toList hline
  simp [indented] at hchars

/-- The element line of a set says what its elements are, and a set without one has none. -/
theorem elementLines_inj {members members' : List String} (h : ∀ s ∈ members, ',' ∉ s.toList)
    (h' : ∀ s ∈ members', ',' ∉ s.toList) (heq : elementLines members = elementLines members') :
    members = members' := by
  unfold elementLines at heq
  cases members with
  | nil =>
    cases members' with
    | nil => rfl
    | cons s' rest' => cases heq
  | cons s rest =>
    cases members' with
    | nil => cases heq
    | cons s' rest' =>
      have hline := indented_inj.1 (List.cons.inj heq).1
      exact setText_inj h h' (List.cons_ne_nil _ _) (List.cons_ne_nil _ _)
        ((String.append_right_inj _).1 hline)

/-- The elements of a set, indented in its block. -/
theorem exists_elementLines (members : List String) :
    ∃ lines, elementLines members = List.map indented lines := by
  unfold elementLines
  split
  · exact ⟨[], rfl⟩
  · exact ⟨[_], rfl⟩

/-- A list is known up to a mark that it does not hold. -/
theorem append_cons_inj {mark : String} {lines lines' rest rest' : List String}
    (h : mark ∉ lines) (h' : mark ∉ lines')
    (heq : lines ++ mark :: rest = lines' ++ mark :: rest') : lines = lines' ∧ rest = rest' := by
  induction lines generalizing lines' with
  | nil =>
    cases lines' with
    | nil => exact ⟨rfl, (List.cons.inj heq).2⟩
    | cons line' lines' => exact absurd ((List.cons.inj heq).1 ▸ List.mem_cons_self) h'
  | cons line lines ih =>
    cases lines' with
    | nil => exact absurd ((List.cons.inj heq).1 ▸ List.mem_cons_self) h
    | cons line' lines' =>
      obtain ⟨rfl, htail⟩ := List.cons.inj heq
      obtain ⟨rfl, hrest⟩ := ih (List.not_mem_of_not_mem_cons h)
        (List.not_mem_of_not_mem_cons h') htail
      exact ⟨rfl, hrest⟩

/-- A block at the front is known from the lines of the whole: it ends at the first line that is not
indented, whatever its own lines are. -/
theorem block_append_inj {header header' : String} {body body' rest rest' : List String}
    (heq : block header (body.map indented) ++ rest = block header' (body'.map indented) ++ rest') :
    header = header' ∧ body = body' ∧ rest = rest' := by
  simp only [block, List.append_assoc, List.cons_append, List.nil_append, List.cons.injEq] at heq
  obtain ⟨hheader, hlines⟩ := heq
  obtain ⟨hbody, hrest⟩ :=
    append_cons_inj (brace_not_mem_indented body) (brace_not_mem_indented body') hlines
  refine ⟨?_, map_indented_inj.1 hbody, (List.cons.inj hrest).2⟩
  exact (String.append_right_inj _).1 ((String.append_left_inj _).1 hheader)

/-! ## Sets and chains -/

/-- The lines of the prefixes at the front are known from the lines of the whole. -/
theorem prefixLines_append_inj {r r' : Ruleset} {rest rest' : List String}
    (h : ∀ s ∈ r.internalPrefixes, ',' ∉ s.toList) (h' : ∀ s ∈ r'.internalPrefixes, ',' ∉ s.toList)
    (heq : r.prefixLines ++ rest = r'.prefixLines ++ rest') :
    r.internalPrefixes = r'.internalPrefixes ∧ rest = rest' := by
  obtain ⟨elements, helements⟩ := exists_elementLines r.internalPrefixes
  obtain ⟨elements', helements'⟩ := exists_elementLines r'.internalPrefixes
  have hbody : ∀ lines : List String, [indented "type ipv4_addr", indented "flags interval"] ++
      lines.map indented = List.map indented ("type ipv4_addr" :: "flags interval" :: lines) :=
    fun _ => rfl
  unfold prefixLines at heq
  rw [helements, helements', hbody, hbody] at heq
  obtain ⟨-, hlines, hrest⟩ := block_append_inj heq
  have hsame : elements = elements' := by simpa using hlines
  rw [← map_indented_inj, ← helements, ← helements'] at hsame
  exact ⟨elementLines_inj h h' hsame, hrest⟩

theorem family_text_inj {family family' : SetFamily} (h : family.text = family'.text) :
    family = family' := by
  cases family <;> cases family' <;> first | rfl | exact absurd h (by decide)

/-- A set at the front is known from the lines of the whole. -/
theorem setLines_append_inj {s s' : IpSet} {rest rest' : List String}
    (h : ∀ m ∈ s.members, ',' ∉ m.toList) (h' : ∀ m ∈ s'.members, ',' ∉ m.toList)
    (heq : setLines s ++ rest = setLines s' ++ rest') : s = s' ∧ rest = rest' := by
  obtain ⟨name, family, members⟩ := s
  obtain ⟨name', family', members'⟩ := s'
  obtain ⟨elements, helements⟩ := exists_elementLines members
  obtain ⟨elements', helements'⟩ := exists_elementLines members'
  have hbody : ∀ (line : String) (lines : List String),
      indented line :: lines.map indented = List.map indented (line :: lines) := fun _ _ => rfl
  simp only [setLines, helements, helements', hbody] at heq
  obtain ⟨hheader, hlines, hrest⟩ := block_append_inj heq
  obtain ⟨htype, hsame⟩ := List.cons.inj hlines
  have hname : name = name' := (String.append_right_inj _).1 hheader
  have hfamily : family = family' := family_text_inj ((String.append_right_inj _).1 htype)
  rw [← map_indented_inj, ← helements, ← helements'] at hsame
  have hmembers : members = members' := elementLines_inj h h' hsame
  rw [hname, hfamily, hmembers]
  exact ⟨rfl, hrest⟩

/-- The forward chain does not start like a set. -/
theorem forwardLines_append_ne (r : Ruleset) (s : IpSet) (rest rest' : List String) :
    r.forwardLines ++ rest ≠ setLines s ++ rest' := by
  intro heq
  have hchars := congrArg String.toList (List.cons.inj heq).1
  simp at hchars

/-- The sets at the front are known from the lines of the whole, as far as what is no set. -/
theorem sets_append_inj {sets sets' : List IpSet} {rest rest' : List String}
    (h : ∀ s ∈ sets, ∀ m ∈ s.members, ',' ∉ m.toList)
    (h' : ∀ s ∈ sets', ∀ m ∈ s.members, ',' ∉ m.toList)
    (hend : ∀ s more, rest ≠ setLines s ++ more) (hend' : ∀ s more, rest' ≠ setLines s ++ more)
    (heq : sets.flatMap setLines ++ rest = sets'.flatMap setLines ++ rest') :
    sets = sets' ∧ rest = rest' := by
  induction sets generalizing sets' with
  | nil =>
    cases sets' with
    | nil => exact ⟨rfl, heq⟩
    | cons s' sets' =>
      rw [List.flatMap_cons, List.append_assoc] at heq
      exact (hend _ _ heq).elim
  | cons s sets ih =>
    obtain ⟨hs, hsets⟩ := List.forall_mem_cons.1 h
    cases sets' with
    | nil =>
      rw [List.flatMap_cons, List.append_assoc] at heq
      exact (hend' _ _ heq.symm).elim
    | cons s' sets' =>
      obtain ⟨hs', hsets'⟩ := List.forall_mem_cons.1 h'
      rw [List.flatMap_cons, List.flatMap_cons, List.append_assoc, List.append_assoc] at heq
      obtain ⟨rfl, htail⟩ := setLines_append_inj hs hs' heq
      obtain ⟨rfl, hrest⟩ := ih hsets hsets' htail
      exact ⟨rfl, hrest⟩

theorem jumpLine_inj {side chain comment : String} {vrf vrf' : UInt64}
    (h : jumpLine side vrf chain comment = jumpLine side vrf' chain comment) : vrf = vrf' := by
  simp only [jumpLine, String.append_left_inj, String.append_right_inj] at h
  have hdigits : Nat.toDigits 10 vrf.toNat = Nat.toDigits 10 vrf'.toNat := by
    simpa using congrArg String.toList h
  apply UInt64.toNat_inj.1
  rw [← Nat.ofDigitChars_ten_toDigits (n := vrf.toNat), hdigits, Nat.ofDigitChars_ten_toDigits]

/-- The lines of the forward chain after the rate limits. -/
def trafficLines (r : Ruleset) : List String :=
  ["ct state invalid drop comment \"drop invalid packets\"",
    "ct state established,related accept comment \"accept established connections\"",
    jumpLine "iifname" r.privateVrf "forward_egress" "traffic leaving the cluster",
    jumpLine "oifname" r.privateVrf "forward_ingress" "traffic entering the cluster",
    "counter comment \"count dropped packets\""]

theorem forwardLines_eq (r : Ruleset) : r.forwardLines = block "chain forward" (List.map indented
    ("type filter hook forward priority 0; policy drop;" :: r.rateLimits ++ r.trafficLines)) := by
  simp [forwardLines, trafficLines]

theorem length_trafficLines (r : Ruleset) : r.trafficLines.length = 5 := rfl

/-- The forward chain at the front is known from the lines of the whole. The lines of the rate
limits are those between the first line and the last five. -/
theorem forwardLines_append_inj {r r' : Ruleset} {rest rest' : List String}
    (heq : r.forwardLines ++ rest = r'.forwardLines ++ rest') :
    r.rateLimits = r'.rateLimits ∧ r.privateVrf = r'.privateVrf ∧ rest = rest' := by
  rw [forwardLines_eq, forwardLines_eq] at heq
  obtain ⟨-, hlines, hrest⟩ := block_append_inj heq
  have hlength : r.trafficLines.length = r'.trafficLines.length := by
    rw [length_trafficLines, length_trafficLines]
  obtain ⟨hlimits, htraffic⟩ := List.append_inj' (List.cons.inj hlines).2 hlength
  have hvrf : r.privateVrf = r'.privateVrf := by
    simp only [trafficLines, List.cons.injEq] at htraffic
    exact jumpLine_inj htraffic.2.2.1
  exact ⟨hlimits, hvrf, hrest⟩

theorem chainLines_append_inj {name : String} {rules rules' rest rest' : List String}
    (heq : chainLines name rules ++ rest = chainLines name rules' ++ rest') :
    rules = rules' ∧ rest = rest' :=
  (block_append_inj heq).2

theorem postroutingLines_append_inj {r r' : Ruleset} {rest rest' : List String}
    (heq : r.postroutingLines ++ rest = r'.postroutingLines ++ rest') : r.snat = r'.snat := by
  simp only [postroutingLines, List.append_assoc, List.cons_append, List.nil_append,
    List.cons.injEq, true_and] at heq
  obtain ⟨hrules, -⟩ :=
    append_cons_inj (brace_not_mem_indented r.snat) (brace_not_mem_indented r'.snat) heq
  exact map_indented_inj.1 hrules

/-! ## Rows -/

/-- The elements of all sets. -/
def elements (r : Ruleset) : List String := r.sets.flatMap IpSet.members ++ r.internalPrefixes

/-- All texts of a ruleset. -/
def texts (r : Ruleset) : List String :=
  r.ingress ++ r.egress ++ r.rateLimits ++ r.snat ++ r.sets.map IpSet.name ++ r.elements

/-- No text breaks its line, and no element of a set looks like two. -/
structure Separable (r : Ruleset) : Prop where
  no_feed : ∀ s ∈ r.texts, '\n' ∉ s.toList
  no_comma : ∀ s ∈ r.elements, ',' ∉ s.toList

instance (r : Ruleset) : Decidable r.Separable :=
  decidable_of_iff ((∀ s ∈ r.texts, '\n' ∉ s.toList) ∧ ∀ s ∈ r.elements, ',' ∉ s.toList)
    ⟨fun ⟨hfeed, hcomma⟩ => ⟨hfeed, hcomma⟩, fun h => ⟨h.no_feed, h.no_comma⟩⟩

/-- A text that is one row. -/
def IsRow (s : String) : Prop := '\n' ∉ s.toList

instance (s : String) : Decidable (IsRow s) := inferInstanceAs (Decidable (_ ∉ _))

theorem IsRow.append {s t : String} (hs : IsRow s) (ht : IsRow t) : IsRow (s ++ t) := by
  unfold IsRow at hs ht ⊢
  rw [String.toList_append, List.mem_append]
  exact not_or.2 ⟨hs, ht⟩

theorem isRow_toString (n : Nat) : IsRow (toString n) := by
  intro hmem
  have hdigit : '\n' ∈ Nat.toDigits 10 n := by simpa using hmem
  exact absurd (Nat.isDigit_of_mem_toDigits (by decide) (by decide) hdigit) (by decide)

theorem isRow_setText {items : List String} (h : ∀ s ∈ items, IsRow s) : IsRow (setText items) := by
  have hitems : IsRow (", ".intercalate items) := by
    intro hmem
    refine Text.forall_mem_intercalate (P := (· ≠ '\n')) (by simp) ?_ _ hmem rfl
    intro t ht c hc hfeed
    exact h t ht (hfeed ▸ hc)
  exact (IsRow.append (by decide) hitems).append (by decide)

theorem isRow_indented {line : String} (h : IsRow line) : IsRow (indented line) :=
  IsRow.append (by decide) h

theorem isRow_map_indented {lines : List String} (h : ∀ l ∈ lines, IsRow l) :
    ∀ l ∈ lines.map indented, IsRow l := by
  intro l hl
  obtain ⟨line, hline, rfl⟩ := List.mem_map.1 hl
  exact isRow_indented (h line hline)

theorem isRow_elementLines {members : List String} (h : ∀ s ∈ members, IsRow s) :
    ∀ l ∈ elementLines members, IsRow l := by
  intro l hl
  unfold elementLines at hl
  split at hl
  · cases hl
  · obtain rfl := List.mem_singleton.1 hl
    exact isRow_indented (IsRow.append (by decide) (isRow_setText h))

theorem isRow_block {header : String} {body : List String} (hheader : IsRow header)
    (hbody : ∀ l ∈ body, IsRow l) : ∀ l ∈ block header body, IsRow l := by
  have hends : ∀ l ∈ ["    \x7d", ""], IsRow l := by decide
  have hopen : IsRow ("    " ++ header ++ " \x7b") :=
    (IsRow.append (by decide) hheader).append (by decide)
  exact List.forall_mem_append.2
    ⟨List.forall_mem_append.2 ⟨List.forall_mem_singleton.2 hopen, hbody⟩, hends⟩

theorem isRow_prefixLines {r : Ruleset} (h : ∀ s ∈ r.internalPrefixes, IsRow s) :
    ∀ l ∈ r.prefixLines, IsRow l := by
  refine isRow_block (by decide) (List.forall_mem_append.2 ⟨by decide, isRow_elementLines h⟩)

theorem isRow_setLines {s : IpSet} (hname : IsRow s.name) (h : ∀ m ∈ s.members, IsRow m) :
    ∀ l ∈ setLines s, IsRow l := by
  have htype : IsRow (indented ("type " ++ s.family.text)) := by
    cases s.family <;> decide
  exact isRow_block (IsRow.append (by decide) hname)
    (List.forall_mem_cons.2 ⟨htype, isRow_elementLines h⟩)

theorem isRow_trafficLines (r : Ruleset) : ∀ l ∈ r.trafficLines, IsRow l := by
  have hjump : ∀ side chain comment, IsRow side → IsRow chain → IsRow comment →
      IsRow (jumpLine side r.privateVrf chain comment) := by
    intro side chain comment hside hchain hcomment
    have hvrf := isRow_toString r.privateVrf.toNat
    exact (((((hside.append (by decide)).append hvrf).append (by decide)).append hchain).append
      (by decide)).append hcomment |>.append (by decide)
  have hegress := hjump "iifname" "forward_egress" "traffic leaving the cluster"
    (by decide) (by decide) (by decide)
  have hingress := hjump "oifname" "forward_ingress" "traffic entering the cluster"
    (by decide) (by decide) (by decide)
  simp only [trafficLines, List.forall_mem_cons]
  exact ⟨by decide, by decide, hegress, hingress, by decide, List.forall_mem_nil _⟩

/-- The lines of a ruleset whose texts are rows are rows. -/
theorem Separable.isRow {r : Ruleset} (h : r.Separable) : ∀ line ∈ r.lines, IsRow line := by
  have htexts : ∀ s ∈ r.texts, IsRow s := h.no_feed
  simp only [texts, elements, List.forall_mem_append] at htexts
  obtain ⟨⟨⟨⟨⟨hingress, hegress⟩, hlimits⟩, hsnat⟩, hnames⟩, hmembers, hprefixes⟩ := htexts
  have hsets : ∀ line ∈ r.sets.flatMap setLines, IsRow line := by
    intro line hline
    obtain ⟨s, hs, hmem⟩ := List.mem_flatMap.1 hline
    refine isRow_setLines (hnames _ (List.mem_map_of_mem hs)) ?_ line hmem
    exact fun m hm => hmembers m (List.mem_flatMap_of_mem hs hm)
  have hforward : ∀ line ∈ r.forwardLines, IsRow line := by
    rw [forwardLines_eq]
    refine isRow_block (by decide) (isRow_map_indented ?_)
    exact List.forall_mem_append.2
      ⟨List.forall_mem_cons.2 ⟨by decide, hlimits⟩, isRow_trafficLines r⟩
  have hchain : ∀ name rules, IsRow ("chain " ++ name) → (∀ line ∈ rules, IsRow line) →
      ∀ line ∈ chainLines name rules, IsRow line :=
    fun _ _ hname hrules => isRow_block hname (isRow_map_indented hrules)
  have hpostrouting : ∀ line ∈ r.postroutingLines, IsRow line := by
    simp only [postroutingLines, List.forall_mem_append]
    exact ⟨⟨by decide, isRow_map_indented hsnat⟩, by decide⟩
  simp only [lines, List.forall_mem_append]
  exact ⟨⟨⟨⟨⟨⟨⟨by decide, isRow_prefixLines hprefixes⟩, hsets⟩, hforward⟩,
    hchain _ _ (by decide) hingress⟩, hchain _ _ (by decide) hegress⟩, hpostrouting⟩, by decide⟩

/-! ## Rulesets -/

/-- The fields of a ruleset are known from its lines, one block after the other. -/
theorem lines_inj {r r' : Ruleset} (h : r.Separable) (h' : r'.Separable)
    (heq : r.lines = r'.lines) : r = r' := by
  obtain ⟨hsets, hprefixes⟩ := List.forall_mem_append.1 h.no_comma
  obtain ⟨hsets', hprefixes'⟩ := List.forall_mem_append.1 h'.no_comma
  have hmembers : ∀ {sets : List IpSet}, (∀ m ∈ sets.flatMap IpSet.members, ',' ∉ m.toList) →
      ∀ s ∈ sets, ∀ m ∈ s.members, ',' ∉ m.toList :=
    fun hall s hs m hm => hall m (List.mem_flatMap_of_mem hs hm)
  simp only [lines, List.append_assoc] at heq
  obtain ⟨hfront, hrest⟩ :=
    prefixLines_append_inj hprefixes hprefixes' (List.append_cancel_left heq)
  -- The forward chain ends the list of the sets.
  obtain ⟨hset, hrest⟩ := sets_append_inj (hmembers hsets) (hmembers hsets')
    (fun s more => r.forwardLines_append_ne s _ more)
    (fun s more => r'.forwardLines_append_ne s _ more) hrest
  obtain ⟨hlimits, hvrf, hrest⟩ := forwardLines_append_inj hrest
  obtain ⟨hingress, hrest⟩ := chainLines_append_inj hrest
  obtain ⟨hegress, hrest⟩ := chainLines_append_inj hrest
  have hsnat := postroutingLines_append_inj hrest
  cases r
  cases r'
  simp_all

/-- Rulesets whose texts are rows, and whose elements have no commas, have the same text only if
they are the same: whatever the rules look like, none is taken for a fixed line, another field or
two rules. So a loader that finds one of them in its target takes another one for it, and leaves it
out as unchanged, only if it is the same ruleset. -/
theorem text_eq_iff_and_unchanged_iff {r r' : Ruleset} (h : r.Separable) (h' : r'.Separable) :
    (r.text = r'.text ↔ r = r') ∧
      ∀ (l : Loader) (launcher : Launcher) (d : Disk),
        d.bytes? l.target = some r.text.toUTF8 →
          ((∃ sum, (l.apply launcher d r'.text).result = .ok (.unchanged sum)) ↔ r = r') := by
  have htext : r.text = r'.text ↔ r = r' := by
    refine ⟨fun heq => ?_, fun heq => heq ▸ rfl⟩
    exact lines_inj h h' (Text.join_inj h.isRow h'.isRow heq)
  refine ⟨htext, ?_⟩
  intro l launcher d htarget
  rw [l.apply_unchanged_iff, htarget, ← htext]
  constructor
  · intro hbytes
    exact String.toByteArray_inj.1 (Option.some.inj hbytes)
  · rintro heq
    rw [heq]

/-- A ruleset with these lines, a rate limit that looks like a fixed line and a set whose name looks
like a block. -/
def imitating (ingress egress : List String) : Ruleset :=
  { ingress := ingress
    egress := egress
    rateLimits := ["counter comment \"count dropped packets\""]
    snat := []
    sets := [⟨"a \x7b \x7d set b", .ipv4, [""]⟩, ⟨"b", .ipv6, []⟩]
    internalPrefixes := ["10.0.0.0/8"]
    privateVrf := 42 }

/-- Rules that look like the end of a chain and the start of the next one do not make a text that
another ruleset has, and the loader sees the difference. -/
theorem text_ne_of_imitating_rules :
    let r := imitating ["    \x7d", "", "    chain forward_egress \x7b", "accept"] []
    let r' := imitating ["    \x7d", ""] ["accept"]
    let d : Disk := ⟨[(["ruleset"], .file r.text.toUTF8 0o644)], []⟩
    let l : Loader := ⟨"nft", [], "ruleset", false⟩
    r.Separable ∧ r'.Separable ∧ d.bytes? "ruleset" = some r.text.toUTF8 ∧ r.text ≠ r'.text ∧
      ∀ launcher, ¬ ∃ sum, (l.apply launcher d r'.text).result = .ok (.unchanged sum) := by
  intro r r' d l
  have h : r.Separable := by decide
  have h' : r'.Separable := by decide
  have hne : r ≠ r' := by decide
  have htarget : d.bytes? "ruleset" = some r.text.toUTF8 := by
    apply Disk.bytes?_of_find
    rfl
  obtain ⟨htext, hunchanged⟩ := text_eq_iff_and_unchanged_iff h h'
  refine ⟨h, h', htarget, fun heq => hne (htext.1 heq), ?_⟩
  intro launcher hsame
  exact hne ((hunchanged l launcher d htarget).1 hsame)

/-- Without these conditions one text stands for several rulesets: a line feed makes two rules of
one, a comma two elements. -/
example :
    (imitating ["a\n        b"] []).text = (imitating ["a", "b"] []).text ∧
      setText ["1.1.1.1, 2.2.2.2"] = setText ["1.1.1.1", "2.2.2.2"] := by
  decide +kernel

end Ruleset

end ClusterFirewall
