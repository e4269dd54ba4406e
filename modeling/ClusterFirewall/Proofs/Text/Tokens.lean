import ClusterFirewall.Proofs.Text.Pieces

/-!
# Tokens of a row

A row of a ruleset is read token by token. What stands between two quotes is one token, a brace, a
comma and a semicolon are tokens of their own, and the rest is cut at blanks.

Main statements: `tokens_of_not_mem`, `tokens_append_blank` and `tokens_quote`, by which a row is
read from its front on.
-/

namespace ClusterFirewall.Text

/-- A character that is a token of its own. -/
def isMark (c : Char) : Bool := c == '\x7b' || c == '\x7d' || c == ',' || c == ';'

def HasNoMark (s : String) : Prop := ∀ c ∈ s.toList, isMark c = false

instance (s : String) : Decidable (HasNoMark s) :=
  decidable_of_iff (s.toList.all fun c => !isMark c) (by simp [HasNoMark])

/-- A text with blanks around its marks. -/
def spread (cs : List Char) : List Char :=
  cs.flatMap fun c => if isMark c then [' ', c, ' '] else [c]

/-- The tokens of a text without quotes. -/
def tokensOfChars (cs : List Char) : List String :=
  ((splitAtEach isBlank (spread cs)).filter fun piece => !piece.isEmpty).map String.ofList

/-- The tokens of pieces that were cut at the quotes: every other piece stood between two. -/
def tokensOfPieces : List (List Char) → List String
  | [] => []
  | [plain] => tokensOfChars plain
  | plain :: quoted :: rest =>
    tokensOfChars plain ++ ("\"" ++ String.ofList quoted ++ "\"") :: tokensOfPieces rest

def tokens (row : String) : List String := tokensOfPieces (splitAtEach (· == '"') row.toList)

/-! ## Without quotes -/

theorem tokensOfChars_append_blank (cs ds : List Char) :
    tokensOfChars (cs ++ ' ' :: ds) = tokensOfChars cs ++ tokensOfChars ds := by
  have hspread : spread (cs ++ ' ' :: ds) = spread cs ++ ' ' :: spread ds := by
    simp [spread, isMark]
  rw [tokensOfChars, hspread, splitAtEach_append_cons (by decide), List.filter_append,
    List.map_append]
  rfl

/-- A word without marks is one token. -/
theorem IsWord.tokensOfChars {s : String} (h : IsWord s) (hmark : HasNoMark s) :
    tokensOfChars s.toList = [s] := by
  have hspread : spread s.toList = s.toList := by
    have hsame : (s.toList.map fun c => if isMark c then [' ', c, ' '] else [c]) =
        s.toList.map fun c => [c] := by
      apply List.map_congr_left
      intro c hc
      rw [hmark c hc]
      rfl
    rw [spread, List.flatMap_def, hsame, ← List.flatMap_def, List.flatMap_singleton']
  rw [Text.tokensOfChars, hspread, splitAtEach_of_forall h.no_blank]
  simp [h.ne_empty]

/-- A token has no other characters than the text. -/
theorem mem_of_mem_tokensOfChars {cs : List Char} {w : String} (hw : w ∈ tokensOfChars cs)
    {c : Char} (hc : c ∈ w.toList) : c ∈ cs := by
  obtain ⟨piece, hpiece, rfl⟩ := List.mem_map.1 hw
  rw [String.toList_ofList] at hc
  have hkept : c ∈ (splitAtEach isBlank (spread cs)).flatten :=
    List.mem_flatten.2 ⟨piece, (List.mem_filter.1 hpiece).1, hc⟩
  rw [flatten_splitAtEach, List.mem_filter] at hkept
  obtain ⟨hspread, hblank⟩ := hkept
  obtain ⟨d, hd, hmem⟩ := List.mem_flatMap.1 hspread
  -- The blanks around marks are in no token.
  have hne : c ≠ ' ' := by
    rintro rfl
    exact absurd hblank (by decide)
  split at hmem
  · obtain rfl : c = d := by simpa [hne] using hmem
    exact hd
  · obtain rfl := List.mem_singleton.1 hmem
    exact hd

/-! ## With quotes -/

theorem splitAtEach_append_of_forall {cut : Char → Bool} {before : List Char}
    (h : ∀ c ∈ before, cut c = false) (after : List Char) {piece : List Char}
    {pieces : List (List Char)} (hpieces : splitAtEach cut after = piece :: pieces) :
    splitAtEach cut (before ++ after) = (before ++ piece) :: pieces := by
  induction before with
  | nil => exact hpieces
  | cons c before ih =>
    obtain ⟨hc, hbefore⟩ := List.forall_mem_cons.1 h
    simp [splitAtEach, hc, ih hbefore]

theorem tokens_of_not_mem {s : String} (h : '"' ∉ s.toList) :
    tokens s = tokensOfChars s.toList := by
  rw [tokens, splitAtEach_of_not_mem h, tokensOfPieces]

theorem tokens_append_blank {s : String} (h : '"' ∉ s.toList) (t : String) :
    tokens (s ++ " " ++ t) = tokens s ++ tokens t := by
  obtain ⟨piece, pieces, hpieces⟩ :=
    List.exists_cons_of_ne_nil (splitAtEach_ne_nil (· == '"') t.toList)
  have hfront : ∀ c ∈ s.toList ++ [' '], (c == '"') = false := by
    apply cut_eq_false_of_not_mem
    simpa using h
  -- What stands in front of `t` goes to the first piece of `t`.
  have hsplit : splitAtEach (· == '"') (s ++ " " ++ t).toList =
      (s.toList ++ ' ' :: piece) :: pieces := by
    have happend := splitAtEach_append_of_forall hfront t.toList hpieces
    simpa using happend
  rw [tokens_of_not_mem h, tokens, tokens, hsplit, hpieces]
  cases pieces with
  | nil => rw [tokensOfPieces, tokensOfPieces, tokensOfChars_append_blank]
  | cons quoted rest =>
    rw [tokensOfPieces, tokensOfPieces, tokensOfChars_append_blank, List.append_assoc]

/-- A text between quotes at the front of a row is one token. -/
theorem tokens_quote {q : String} (h : '"' ∉ q.toList) (t : String) :
    tokens ("\"" ++ q ++ "\"" ++ t) = ("\"" ++ q ++ "\"") :: tokens t := by
  have hsplit : splitAtEach (· == '"') ("\"" ++ q ++ "\"" ++ t).toList =
      [] :: q.toList :: splitAtEach (· == '"') t.toList := by
    have hclosed : splitAtEach (· == '"') (q.toList ++ '"' :: t.toList) =
        q.toList :: splitAtEach (· == '"') t.toList := by
      rw [splitAtEach_append_cons rfl, splitAtEach_of_not_mem h]
      rfl
    simpa [splitAtEach] using hclosed
  rw [tokens, hsplit, tokensOfPieces, String.ofList_toList]
  rfl

end ClusterFirewall.Text
