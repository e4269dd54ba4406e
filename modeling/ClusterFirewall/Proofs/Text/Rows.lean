import ClusterFirewall.Proofs.Text.Pieces

/-!
# Rows of texts

The rows of a text are what stands between its line feeds. A text that is put together from lines,
each with a line feed after it, has the rows of these lines (`rows_join`), one for each line that
has no line feed in it.
-/

namespace ClusterFirewall.Text

def rows (s : String) : List String := split (· == '\n') s

/-- Whether a line of text ends at a character: the line feed and the other characters at which
Unicode breaks a line. -/
def isLineBreak (c : Char) : Bool :=
  let n := c.toNat
  (0x0A ≤ n && n ≤ 0x0D) || n == 0x85 || n == 0x2028 || n == 0x2029

theorem rows_of_not_mem {s : String} (h : '\n' ∉ s.toList) : rows s = [s] := by
  simp [rows, split, splitAtEach_of_not_mem h]

theorem rows_append_feed (s t : String) : rows (s ++ "\n" ++ t) = rows s ++ rows t := by
  have hpieces : splitAtEach (· == '\n') (s ++ "\n" ++ t).toList =
      splitAtEach (· == '\n') s.toList ++ splitAtEach (· == '\n') t.toList := by
    rw [String.toList_append, String.toList_append, List.append_assoc]
    exact splitAtEach_append_cons (by decide) s.toList t.toList
  rw [rows, split, hpieces, List.map_append]
  rfl

/-- The last row stands after the last line feed and is empty. -/
theorem rows_join (lines : List String) :
    rows (String.join (lines.map (· ++ "\n"))) = lines.flatMap rows ++ [""] := by
  induction lines with
  | nil => decide
  | cons line rest ih =>
    have hjoin : String.join ((line :: rest).map (· ++ "\n")) =
        line ++ "\n" ++ String.join (rest.map (· ++ "\n")) := by
      apply String.toList_inj.1
      simp
    rw [hjoin, rows_append_feed, ih, List.flatMap_cons, List.append_assoc]

/-- Lines without line feeds are known from the text that is put together from them. -/
theorem join_inj {lines lines' : List String} (h : ∀ line ∈ lines, '\n' ∉ line.toList)
    (h' : ∀ line ∈ lines', '\n' ∉ line.toList)
    (heq : String.join (lines.map (· ++ "\n")) = String.join (lines'.map (· ++ "\n"))) :
    lines = lines' := by
  have hrows : ∀ {ls : List String}, (∀ line ∈ ls, '\n' ∉ line.toList) → ls.flatMap rows = ls := by
    intro ls hls
    induction ls with
    | nil => rfl
    | cons line rest ih =>
      obtain ⟨hline, hrest⟩ := List.forall_mem_cons.1 hls
      rw [List.flatMap_cons, rows_of_not_mem hline, ih hrest, List.singleton_append]
  have hjoined := congrArg rows heq
  rw [rows_join, rows_join, hrows h, hrows h'] at hjoined
  exact List.append_cancel_right hjoined

/-! ## Texts of whole lines -/

/-- Every line of the text is ended by a line feed. -/
def IsWhole (s : String) : Prop := s = "" ∨ ∃ body, s = body ++ "\n"

theorem lineChars_append_feed (cs : List Char) :
    lineChars (cs ++ ['\n']) = (splitAtEach (· == '\n') cs).map dropFinalReturn := by
  have hpieces : splitAtEach (· == '\n') (cs ++ ['\n']) =
      splitAtEach (· == '\n') cs ++ [[]] := splitAtEach_append_cons (by decide) cs []
  rw [lineChars, hpieces, List.dropLast_concat, List.getLastD_concat]
  simp

/-- A line that is added to a text of whole lines is its last line, and the others stay. -/
theorem lines_append_line {text line : String} (htext : IsWhole text)
    (hfeed : '\n' ∉ line.toList) (hreturn : '\r' ∉ line.toList) :
    lines (text ++ line ++ "\n") = lines text ++ [line] := by
  have hline := splitAtEach_of_not_mem hfeed
  have hkept : dropFinalReturn line.toList = line.toList := by
    rw [dropFinalReturn, if_neg]
    exact fun hlast => hreturn (List.mem_of_getLast? hlast)
  have hfeeds : "\n".toList = ['\n'] := rfl
  rw [lines, lines, String.toList_append, String.toList_append, hfeeds, lineChars_append_feed]
  obtain rfl | ⟨body, rfl⟩ := htext
  · rw [String.toList_empty, List.nil_append, hline, List.map_singleton, hkept]
    simp [lineChars, splitAtEach]
  · have hpieces : splitAtEach (· == '\n') (body.toList ++ ['\n'] ++ line.toList) =
        splitAtEach (· == '\n') body.toList ++ [line.toList] := by
      rw [List.append_assoc, ← hline]
      exact splitAtEach_append_cons (by decide) body.toList line.toList
    rw [String.toList_append, hfeeds, hpieces, lineChars_append_feed, List.map_append,
      List.map_append, List.map_singleton, hkept, List.map_singleton, String.ofList_toList]

end ClusterFirewall.Text
