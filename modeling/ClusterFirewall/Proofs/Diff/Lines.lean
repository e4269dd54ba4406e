import ClusterFirewall.Diff.Report

/-!
# Where lines end

A line of a text ends at the first line feed or carriage return, and a carriage return with a line
feed after it is one ending. `AreLines` says this of a list of lines without reference to how they
are cut, and the lines that are cut are the only ones of which it holds.

Main statements: `cutLines_eq_iff`, and `areLines_flatten` for a text that is put together from
lines.
-/

namespace ClusterFirewall.Diff

/-! ## Lines -/

/-- No line ends within these characters. -/
structure Plain (cs : List Char) : Prop where
  feed : '\n' ∉ cs
  carriageReturn : '\r' ∉ cs

/-- A line with its ending. -/
inductive IsEnded : List Char → Prop where
  | feed {body : List Char} (h : Plain body) : IsEnded (body ++ ['\n'])
  | returnFeed {body : List Char} (h : Plain body) : IsEnded (body ++ ['\r', '\n'])
  | carriageReturn {body : List Char} (h : Plain body) : IsEnded (body ++ ['\r'])

/-- The lines of a text. Only the last one may be without an ending, and it is not empty. -/
inductive AreLines : List (List Char) → List Char → Prop where
  | nil : AreLines [] []
  | last {body : List Char} (hne : body ≠ []) (h : Plain body) : AreLines [body] body
  /-- A line feed after a carriage return belongs to the same ending. -/
  | cons {line rest : List Char} {lines : List (List Char)} (h : IsEnded line)
      (hpair : line.getLast? = some '\r' → rest.head? ≠ some '\n') (hlines : AreLines lines rest) :
      AreLines (line :: lines) (line ++ rest)

section Plainness

variable {cs ds : List Char} {c : Char}

theorem plain_nil : Plain [] := ⟨by simp, by simp⟩

theorem Plain.append (h : Plain cs) (h' : Plain ds) : Plain (cs ++ ds) :=
  ⟨by simp [h.feed, h'.feed], by simp [h.carriageReturn, h'.carriageReturn]⟩

theorem plain_cons_iff : Plain (c :: cs) ↔ (c ≠ '\n' ∧ c ≠ '\r') ∧ Plain cs := by
  constructor
  · rintro ⟨hfeed, hreturn⟩
    simp only [List.mem_cons, not_or] at hfeed hreturn
    exact ⟨⟨Ne.symm hfeed.1, Ne.symm hreturn.1⟩, hfeed.2, hreturn.2⟩
  · rintro ⟨⟨hfeed, hreturn⟩, h⟩
    exact ⟨by simp [Ne.symm hfeed, h.feed], by simp [Ne.symm hreturn, h.carriageReturn]⟩

theorem Plain.reverse (h : Plain cs) : Plain cs.reverse :=
  ⟨by simpa using h.feed, by simpa using h.carriageReturn⟩

/-- A start without endings can be put in front of a line. -/
theorem IsEnded.prepend (hstart : Plain ds) (h : IsEnded cs) : IsEnded (ds ++ cs) := by
  cases h with
  | feed h => simpa using IsEnded.feed (hstart.append h)
  | returnFeed h => simpa using IsEnded.returnFeed (hstart.append h)
  | carriageReturn h => simpa using IsEnded.carriageReturn (hstart.append h)

end Plainness

/-! ## Cutting -/

/-- What is cut are lines, where the line that was begun goes on with the text. -/
theorem areLines_cutLinesFrom {line : List Char} (hline : Plain line) (cs : List Char) :
    AreLines (cutLinesFrom line cs) (line.reverse ++ cs) := by
  fun_induction cutLinesFrom line cs with
  | case1 line hempty =>
    obtain rfl : line = [] := by simpa using hempty
    exact .nil
  | case2 line hne =>
    have hne' : line.reverse ≠ [] := by simpa using hne
    simpa using AreLines.last hne' hline.reverse
  | case3 line rest ih =>
    have hended := IsEnded.returnFeed hline.reverse
    simpa using AreLines.cons hended (by simp) (ih plain_nil)
  | case4 line c rest hnext hc ih =>
    obtain rfl | rfl := hc
    · have hended := IsEnded.feed hline.reverse
      simpa using AreLines.cons hended (by simp) (ih plain_nil)
    · -- The case of a line feed after the carriage return came before.
      have hended := IsEnded.carriageReturn hline.reverse
      have hhead : rest.head? ≠ some '\n' := by
        intro hhead
        obtain ⟨rest', rfl⟩ := List.head?_eq_some_iff.1 hhead
        exact hnext rest' rfl rfl
      simpa using AreLines.cons hended (fun _ => hhead) (ih plain_nil)
  | case5 line c rest hnext hc ih =>
    simpa using ih (plain_cons_iff.2 ⟨not_or.1 hc, hline⟩)

/-- A start without endings goes on the line that was begun. -/
theorem cutLinesFrom_append {body : List Char} (h : Plain body) (line cs : List Char) :
    cutLinesFrom line (body ++ cs) = cutLinesFrom (body.reverse ++ line) cs := by
  induction body generalizing line with
  | nil => rfl
  | cons c body ih =>
    obtain ⟨⟨hfeed, hreturn⟩, hbody⟩ := plain_cons_iff.1 h
    have hstep : cutLinesFrom line (c :: (body ++ cs)) = cutLinesFrom (c :: line) (body ++ cs) := by
      simp [cutLinesFrom, hfeed, hreturn]
    rw [List.cons_append, hstep, ih hbody, List.reverse_cons, List.append_assoc,
      List.singleton_append]

theorem cutLines_append {line rest : List Char} (h : IsEnded line)
    (hpair : line.getLast? = some '\r' → rest.head? ≠ some '\n') :
    cutLines (line ++ rest) = line :: cutLines rest := by
  unfold cutLines
  cases h with
  | feed h =>
    rw [List.append_assoc, cutLinesFrom_append h, List.singleton_append]
    simp [cutLinesFrom]
  | returnFeed h =>
    rw [List.append_assoc, cutLinesFrom_append h, List.cons_append, List.singleton_append]
    simp [cutLinesFrom]
  | carriageReturn h =>
    rw [List.append_assoc, cutLinesFrom_append h, List.singleton_append]
    cases rest with
    | nil => simp [cutLinesFrom]
    | cons c rest =>
      have hc : c ≠ '\n' := by simpa using hpair
      simp [cutLinesFrom, hc]

theorem cutLines_of_plain {body : List Char} (hne : body ≠ []) (h : Plain body) :
    cutLines body = [body] := by
  have happend := cutLinesFrom_append h [] []
  simpa [cutLines, cutLinesFrom, hne] using happend

/-- The lines that are cut are the lines of the text, and there are no others. -/
theorem cutLines_eq_iff {cs : List Char} {lines : List (List Char)} :
    cutLines cs = lines ↔ AreLines lines cs := by
  constructor
  · rintro rfl
    exact areLines_cutLinesFrom plain_nil cs
  · intro h
    induction h with
    | nil => rfl
    | last hne h => exact cutLines_of_plain hne h
    | cons h hpair _ ih => rw [cutLines_append h hpair, ih]

/-! ## Endings -/

/-- A line of a text has an ending or is plain. -/
theorem AreLines.isEnded_or_plain {lines : List (List Char)} {cs line : List Char}
    (h : AreLines lines cs) (hline : line ∈ lines) : IsEnded line ∨ Plain line := by
  induction h with
  | nil => cases hline
  | last hne h =>
    obtain rfl := List.mem_singleton.1 hline
    exact .inr h
  | cons h _ _ ih =>
    obtain rfl | hline := List.mem_cons.1 hline
    · exact .inl h
    · exact ih hline

theorem hasEnding_of_isEnded {line : String} (h : IsEnded line.toList) : hasEnding line := by
  unfold hasEnding
  generalize line.toList = cs at h
  cases h <;> simp

theorem hasEnding_of_plain {line : String} (h : Plain line.toList) : hasEnding line = false := by
  unfold hasEnding
  cases hlast : line.toList.getLast? with
  | none => rfl
  | some c =>
    have hmem := List.mem_of_getLast? hlast
    have hfeed : c ≠ '\n' := fun hc => h.feed (hc ▸ hmem)
    have hreturn : c ≠ '\r' := fun hc => h.carriageReturn (hc ▸ hmem)
    simp [hfeed, hreturn]

/-- Lines with endings, none of which starts with a line feed, are the lines of the text that they
make up. -/
theorem areLines_flatten {lines : List (List Char)}
    (h : ∀ line ∈ lines, IsEnded line ∧ ∃ c rest, c ≠ '\n' ∧ line = c :: rest) :
    AreLines lines lines.flatten := by
  induction lines with
  | nil => exact .nil
  | cons line lines ih =>
    obtain ⟨⟨hline, -⟩, hlines⟩ := List.forall_mem_cons.1 h
    refine .cons hline (fun _ => ?_) (ih hlines)
    cases lines with
    | nil => simp
    | cons next lines =>
      obtain ⟨-, c, rest, hc, rfl⟩ := hlines next List.mem_cons_self
      simpa using hc

end ClusterFirewall.Diff
