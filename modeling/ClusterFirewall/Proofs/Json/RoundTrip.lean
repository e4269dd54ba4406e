import ClusterFirewall.Proofs.Json.Grammar

/-!
# Reading what was written

Both layouts are one, up to the blanks that they put between the parts of a document
(`Json.Layout`). What a layout writes for a document writes it in the grammar, too, and so the
reader gets back the document that was written, whichever layout was used. Main statements:
`parse_compact` and `parse_wide`, for every document.
-/

namespace ClusterFirewall.Json

/-! ## Layouts -/

/-- The blanks between the parts of a document. -/
structure Layout where
  /-- What stands before an item or a member of a level, and before what closes the level above. -/
  before : Nat → List Char
  /-- What stands between a name and its value. -/
  gap : List Char
  /-- These are blanks. -/
  blank_before : ∀ level, ∀ c ∈ before level, isSpace c
  /-- These are blanks. -/
  blank_gap : ∀ c ∈ gap, isSpace c

namespace Layout

mutual

/-- The text of a document that stands at a level. -/
def chars (l : Layout) (level : Nat) : Json → List Char
  | .null => ['n', 'u', 'l', 'l']
  | .bool true => ['t', 'r', 'u', 'e']
  | .bool false => ['f', 'a', 'l', 's', 'e']
  | .number n => n.chars
  | .string s => stringChars s
  | .array [] => ['[', ']']
  | .array (j :: rest) => '[' :: l.itemChars (level + 1) (j :: rest) ++ l.before level ++ [']']
  | .object [] => ['{', '}']
  | .object (m :: rest) => '{' :: l.memberChars (level + 1) (m :: rest) ++ l.before level ++ ['}']

/-- The texts of items, commas between them. -/
def itemChars (l : Layout) (level : Nat) : List Json → List Char
  | [] => []
  | [j] => l.before level ++ l.chars level j
  | j :: j' :: rest => l.before level ++ l.chars level j ++ ',' :: l.itemChars level (j' :: rest)

/-- The texts of members, commas between them. -/
def memberChars (l : Layout) (level : Nat) : List (Option String × Json) → List Char
  | [] => []
  | [(k, j)] => l.before level ++ stringChars k ++ ':' :: l.gap ++ l.chars level j
  | (k, j) :: m :: rest =>
    l.before level ++ stringChars k ++ ':' :: l.gap ++ l.chars level j ++
      ',' :: l.memberChars level (m :: rest)

end

/-- No blanks. -/
def compact : Layout := ⟨fun _ => [], [], by simp, by simp⟩

/-- Every member and item on a line of its own. -/
def wide : Layout where
  before := newLine
  gap := [' ']
  blank_before := by
    intro level c hc
    rcases List.mem_cons.1 hc with rfl | hc
    · decide
    · rw [List.eq_of_mem_replicate hc]
      decide
  blank_gap := List.forall_mem_singleton.2 (by decide)

@[simp] theorem before_compact (level : Nat) : compact.before level = [] := rfl

@[simp] theorem gap_compact : compact.gap = [] := rfl

@[simp] theorem before_wide (level : Nat) : wide.before level = newLine level := rfl

@[simp] theorem gap_wide : wide.gap = [' '] := rfl

mutual

theorem compact_chars (level : Nat) : ∀ j, compact.chars level j = compactChars j
  | .null => rfl
  | .bool true => rfl
  | .bool false => rfl
  | .number n => rfl
  | .string s => rfl
  | .array [] => rfl
  | .array (j :: rest) => by
    simp [chars, compactChars, compact_itemChars (level + 1) (j :: rest)]
  | .object [] => rfl
  | .object (m :: rest) => by
    simp [chars, compactChars, compact_memberChars (level + 1) (m :: rest)]

theorem compact_itemChars (level : Nat) :
    ∀ items, compact.itemChars level items = compactItems items
  | [] => rfl
  | [j] => compact_chars level j
  | j :: j' :: rest => by
    simp [itemChars, compactItems, compact_chars level j, compact_itemChars level (j' :: rest)]

theorem compact_memberChars (level : Nat) :
    ∀ members, compact.memberChars level members = compactMembers members
  | [] => rfl
  | [(k, j)] => by
    simp [memberChars, compactMembers, compact_chars level j]
  | (k, j) :: m :: rest => by
    simp [memberChars, compactMembers, compact_chars level j,
      compact_memberChars level (m :: rest)]

end

mutual

theorem wide_chars (level : Nat) : ∀ j, wide.chars level j = wideChars level j
  | .null => rfl
  | .bool true => rfl
  | .bool false => rfl
  | .number n => rfl
  | .string s => rfl
  | .array [] => rfl
  | .array (j :: rest) => by
    simp [chars, wideChars, wide_itemChars (level + 1) (j :: rest)]
  | .object [] => rfl
  | .object (m :: rest) => by
    simp [chars, wideChars, wide_memberChars (level + 1) (m :: rest)]

theorem wide_itemChars (level : Nat) : ∀ items, wide.itemChars level items = wideItems level items
  | [] => rfl
  | [j] => by
    simp [itemChars, wideItems, wide_chars level j]
  | j :: j' :: rest => by
    simp [itemChars, wideItems, wide_chars level j, wide_itemChars level (j' :: rest)]

theorem wide_memberChars (level : Nat) :
    ∀ members, wide.memberChars level members = wideMembers level members
  | [] => rfl
  | [(k, j)] => by
    simp [memberChars, wideMembers, wide_chars level j]
  | (k, j) :: m :: rest => by
    simp [memberChars, wideMembers, wide_chars level j, wide_memberChars level (m :: rest)]

end

/-! ## Documents -/

mutual

theorem writes_chars (l : Layout) (level : Nat) : ∀ j, Writes (.value j) (l.chars level j)
  | .null => .null
  | .bool true => .yes
  | .bool false => .no
  | .number n => by
    have hread := readNumeral_chars n endsNumber_nil
    rw [List.append_nil] at hread
    exact .number hread
  | .string s => by
    obtain ⟨body, hbody, hread⟩ := exists_stringChars s
    rw [chars, hbody]
    exact .string (by simpa using hread [])
  | .array [] => .noItems blank_nil
  | .array (j :: rest) => by
    have hitems := writes_itemChars l (level + 1) (j :: rest) (List.cons_ne_nil _ _)
      (l.blank_before level)
    simpa [chars] using Writes.array hitems
  | .object [] => .noMembers blank_nil
  | .object (m :: rest) => by
    have hmembers := writes_memberChars l (level + 1) (m :: rest) (List.cons_ne_nil _ _)
      (l.blank_before level)
    simpa [chars] using Writes.object hmembers

/-- Items are written with any blanks behind them. -/
theorem writes_itemChars (l : Layout) (level : Nat) : ∀ items, items ≠ [] →
    ∀ {blanks}, Blank blanks → Writes (.items items) (l.itemChars level items ++ blanks)
  | [], hne, _, _ => absurd rfl hne
  | [j], _, _, hblank => by
    simpa [itemChars] using Writes.item (l.blank_before level) (writes_chars l level j) hblank
  | j :: j' :: rest, _, _, hblank => by
    have hmore := writes_itemChars l level (j' :: rest) (List.cons_ne_nil _ _) hblank
    simpa [itemChars] using Writes.items (l.blank_before level) (writes_chars l level j) blank_nil
      hmore

/-- Members are written with any blanks behind them. -/
theorem writes_memberChars (l : Layout) (level : Nat) : ∀ members, members ≠ [] →
    ∀ {blanks}, Blank blanks → Writes (.members members) (l.memberChars level members ++ blanks)
  | [], hne, _, _ => absurd rfl hne
  | [(k, j)], _, _, hblank => by
    obtain ⟨body, hbody, hread⟩ := exists_stringChars k
    have hname : readText body = some (k, []) := by simpa using hread []
    simpa [memberChars, hbody] using Writes.member (l.blank_before level) hname blank_nil
      l.blank_gap (writes_chars l level j) hblank
  | (k, j) :: m :: rest, _, _, hblank => by
    obtain ⟨body, hbody, hread⟩ := exists_stringChars k
    have hname : readText body = some (k, []) := by simpa using hread []
    have hmore := writes_memberChars l level (m :: rest) (List.cons_ne_nil _ _) hblank
    simpa [memberChars, hbody] using Writes.members (l.blank_before level) hname
      blank_nil l.blank_gap (writes_chars l level j) blank_nil hmore

end

/-- What a layout writes is read back. -/
theorem parseChars_chars (l : Layout) (j : Json) : parseChars (l.chars 0 j) = some j :=
  parseChars_eq_some_iff.2 ⟨[], _, [], by simp, blank_nil, l.writes_chars 0 j, blank_nil⟩

end Layout

theorem parse_compact (j : Json) : parse j.compact = some j := by
  rw [parse, compact, String.toList_ofList, ← Layout.compact_chars 0 j]
  exact Layout.compact.parseChars_chars j

theorem parse_wide (j : Json) : parse j.wide = some j := by
  rw [parse, wide, String.toList_ofList, ← Layout.wide_chars 0 j]
  exact Layout.wide.parseChars_chars j

end ClusterFirewall.Json
