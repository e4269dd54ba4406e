import ClusterFirewall.Diff.Report
import ClusterFirewall.Proofs.Diff.Compaction
import ClusterFirewall.Proofs.Diff.Lines
import Mathlib.Data.List.Forall2

/-!
# Reports are faithful

The report of a difference marks lines as deleted and inserted. Taken in their order these are an
edit script: with the lines that are not marked, which both texts share, they give the lines of
both texts. No line is lost, shown twice or out of its order.

- **Edit scripts**: `Turns` for marked lines that turn one list of lines into another one, `Leaves`
  for taking lines out of a list.
- **Hunks**: `turns_changes`, the marked lines of two lists turn the one into the other. What a hunk
  marks are all lines between two kept blocks.
- **Reports**: `report?_faithful`.
-/

namespace ClusterFirewall.Diff

/-! ## Edit scripts -/

/-- Changes turn a list of lines into another one. Lines that are in both lists and have no mark
stand anywhere between them. -/
inductive Turns : List Change → List String → List String → Prop where
  | nil : Turns [] [] []
  | keep {cs : List Change} {old new : List String} (line : String) (h : Turns cs old new) :
      Turns cs (line :: old) (line :: new)
  | delete {cs : List Change} {old new : List String} (line : String) (h : Turns cs old new) :
      Turns (.deleted line :: cs) (line :: old) new
  | insert {cs : List Change} {old new : List String} (line : String) (h : Turns cs old new) :
      Turns (.inserted line :: cs) old (line :: new)

/-- Taking lines out of a list, at places in the order of the lines, leaves another list. -/
inductive Leaves : List String → List String → List String → Prop where
  | nil : Leaves [] [] []
  | keep {lines taken left : List String} (line : String) (h : Leaves lines taken left) :
      Leaves (line :: lines) taken (line :: left)
  | take {lines taken left : List String} (line : String) (h : Leaves lines taken left) :
      Leaves (line :: lines) (line :: taken) left

/-- The lines that are marked as deleted. -/
def deletedLines (cs : List Change) : List String :=
  cs.filterMap fun
    | .deleted line => some line
    | .inserted _ => none

/-- The lines that are marked as inserted. -/
def insertedLines (cs : List Change) : List String :=
  cs.filterMap fun
    | .deleted _ => none
    | .inserted line => some line

namespace Turns

variable {cs : List Change} {old new : List String}

theorem eq_of_nil (h : Turns [] old new) : old = new := by
  generalize hcs : [] = cs at h
  induction h with
  | nil => rfl
  | keep line _ ih => rw [ih hcs]
  | delete => cases hcs
  | insert => cases hcs

/-- Without the deleted lines the one list is what the other one is without the inserted lines. -/
theorem exists_leaves (h : Turns cs old new) :
    ∃ kept, Leaves old (deletedLines cs) kept ∧ Leaves new (insertedLines cs) kept := by
  induction h with
  | nil => exact ⟨[], .nil, .nil⟩
  | keep line _ ih =>
    obtain ⟨kept, hold, hnew⟩ := ih
    exact ⟨line :: kept, .keep line hold, .keep line hnew⟩
  | delete line _ ih =>
    obtain ⟨kept, hold, hnew⟩ := ih
    exact ⟨kept, .take line hold, hnew⟩
  | insert line _ ih =>
    obtain ⟨kept, hold, hnew⟩ := ih
    exact ⟨kept, hold, .take line hnew⟩

/-- Every marked line comes from the list that it is marked for. -/
theorem mem_of_mem (h : Turns cs old new) {c : Change} (hc : c ∈ cs) :
    (∃ line ∈ old, c = .deleted line) ∨ ∃ line ∈ new, c = .inserted line := by
  induction h with
  | nil => cases hc
  | keep _ _ ih =>
    refine (ih hc).imp ?_ ?_ <;> exact fun ⟨line, hline, heq⟩ => ⟨line, .tail _ hline, heq⟩
  | delete line _ ih =>
    obtain rfl | hc := List.mem_cons.1 hc
    · exact .inl ⟨line, List.mem_cons_self, rfl⟩
    · exact (ih hc).imp_left fun ⟨line, hline, heq⟩ => ⟨line, .tail _ hline, heq⟩
  | insert line _ ih =>
    obtain rfl | hc := List.mem_cons.1 hc
    · exact .inr ⟨line, List.mem_cons_self, rfl⟩
    · exact (ih hc).imp_right fun ⟨line, hline, heq⟩ => ⟨line, .tail _ hline, heq⟩

theorem keepAll (h : Turns cs old new) (lines : List String) :
    Turns cs (lines ++ old) (lines ++ new) := by
  induction lines with
  | nil => exact h
  | cons line lines ih => exact .keep line ih

theorem deleteAll (h : Turns cs old new) (lines : List String) :
    Turns (lines.map .deleted ++ cs) (lines ++ old) new := by
  induction lines with
  | nil => exact h
  | cons line lines ih => exact .delete line ih

theorem insertAll (h : Turns cs old new) (lines : List String) :
    Turns (lines.map .inserted ++ cs) old (lines ++ new) := by
  induction lines with
  | nil => exact h
  | cons line lines ih => exact .insert line ih

end Turns

/-! ## Hunks -/

/-- Some lines of a list are those between two places, or there are none between them. -/
def Extent.Spans (e : Option Extent) (i j : Nat) : Prop :=
  match e with
  | none => i = j
  | some e => e.start = i ∧ e.start + e.length = j

/-- A hunk changes all that is between two places. -/
structure Hunk.Spans (h : Hunk) (p q : Place) : Prop where
  old : Extent.Spans h.deleted p.old q.old
  new : Extent.Spans h.inserted p.new q.new

section Hunks

variable {t : Texts} {s : Script} {hunk : Hunk} {e : Edit} {p q r : Place} {i j n : Nat}

theorem Extent.Spans.le {e : Option Extent} (h : Extent.Spans e i j) : i ≤ j := by
  cases e with
  | none => exact Nat.le_of_eq h
  | some e =>
    obtain ⟨hstart, hstop⟩ := h
    omega

theorem Extent.Spans.join {e : Option Extent} (h : Extent.Spans e i j) :
    Extent.Spans (some (Extent.join e j n)) i (j + n) := by
  cases e with
  | none =>
    obtain rfl : i = j := h
    exact ⟨rfl, rfl⟩
  | some e =>
    obtain ⟨hstart, hstop⟩ := h
    exact ⟨hstart, by simp only [Extent.join]; omega⟩

theorem Extent.linesOf_of_spans (xs : Array String) {e : Option Extent} (h : Extent.Spans e i j) :
    Extent.linesOf xs e = (xs.extract i j).toList := by
  cases e with
  | none =>
    obtain rfl : i = j := h
    simp [Extent.linesOf]
  | some e =>
    obtain ⟨rfl, rfl⟩ := h
    rfl

theorem Hunk.spans_none (p : Place) : Hunk.none.Spans p p := ⟨rfl, rfl⟩

/-- A hunk grows with the block that follows it. -/
theorem Hunk.Spans.add (h : hunk.Spans p q) (he : e.Leads t q r) (hkind : e.kind ≠ .keep) :
    (hunk.add e).Spans p r := by
  obtain ⟨hold, hnew⟩ := h
  cases he with
  | keep kind => exact absurd kind hkind
  | delete kind oldStart old new =>
    simp only [Hunk.add, kind, oldStart]
    exact ⟨old ▸ hold.join, new ▸ hnew⟩
  | insert kind newStart old new =>
    simp only [Hunk.add, kind, newStart]
    exact ⟨old ▸ hold, new ▸ hnew.join⟩

theorem Leads.le (h : Leads t s p q) : p.old ≤ q.old ∧ p.new ≤ q.new := by
  induction h with
  | nil => exact ⟨Nat.le_refl _, Nat.le_refl _⟩
  | cons head _ ih => cases head <;> omega

/-! ### Lines between two places -/

theorem toList_extract_append (xs : Array String) {k : Nat} (hij : i ≤ j) (hjk : j ≤ k) :
    (xs.extract i j).toList ++ (xs.extract j k).toList = (xs.extract i k).toList := by
  rw [← Array.toList_append, Array.extract_append_extract, Nat.min_eq_left hij,
    Nat.max_eq_right hjk]

theorem Common.extract_eq {xs ys : Array String} (h : Common xs i ys j n) :
    xs.extract i (i + n) = ys.extract j (j + n) := by
  by_cases hn : n = 0
  · rw [hn, Array.extract_eq_empty_of_le (by omega), Array.extract_eq_empty_of_le (by omega)]
  · have hold := h.oldBound hn
    have hnew := h.newBound hn
    apply Array.ext_getElem?
    intro k
    rw [Array.getElem?_extract, Array.getElem?_extract, Nat.min_eq_left hold,
      Nat.min_eq_left hnew, Nat.add_sub_cancel_left, Nat.add_sub_cancel_left]
    split
    · rename_i hk
      obtain ⟨line, hx, hy⟩ := h k hk
      rw [hx, hy]
    · rfl

/-- What a hunk marks turns the old lines between its places into the new ones. -/
theorem Hunk.Spans.turns (h : hunk.Spans p q) {cs : List Change} {old new : List String}
    (hrest : Turns cs old new) :
    Turns (hunk.changes t ++ cs) ((t.old.extract p.old q.old).toList ++ old)
      ((t.new.extract p.new q.new).toList ++ new) := by
  rw [Hunk.changes, Extent.linesOf_of_spans t.old h.old, Extent.linesOf_of_spans t.new h.new,
    List.append_assoc]
  exact (hrest.insertAll _).deleteAll _

/-- The hunks of a script turn the old lines between its places into the new ones. The induction is
on the script, with the hunk that was begun since the last kept block. -/
theorem turns_hunks (h : hunk.Spans p q) (hs : Leads t s q r) :
    Turns ((hunks hunk s).flatMap (Hunk.changes t)) (t.old.extract p.old r.old).toList
      (t.new.extract p.new r.new).toList := by
  induction hs generalizing hunk p with
  | nil q => simpa [hunks] using h.turns (t := t) .nil
  | @cons e s q q' r he hs ih =>
    by_cases hkind : e.kind = .keep
    · cases he with
      | delete kind => simp [hkind] at kind
      | insert kind => simp [hkind] at kind
      | keep _ oldStart newStart old new common =>
        have hspan := h.old.le
        have hspan' := h.new.le
        have hrest := hs.le
        have hsame : (t.old.extract q.old q'.old).toList = (t.new.extract q.new q'.new).toList := by
          rw [old, new, common.extract_eq]
        -- The hunk, the kept lines and the rest lie one after the other in both lists.
        have hturns := h.turns (t := t) ((ih (Hunk.spans_none q')).keepAll
          (t.old.extract q.old q'.old).toList)
        rw [toList_extract_append t.old (by omega) hrest.1,
          toList_extract_append t.old hspan (by omega), hsame,
          toList_extract_append t.new (by omega) hrest.2,
          toList_extract_append t.new hspan' (by omega)] at hturns
        rwa [hunks, if_pos hkind, List.flatMap_cons]
    · rw [hunks, if_neg hkind]
      exact ih (h.add he hkind)

end Hunks

/-- The changes between two lists turn the one into the other. -/
theorem turns_changes (t : Texts) : Turns (changes t) t.old.toList t.new.toList := by
  have hleads := t.leads_compact (leads_shortestScript t.old t.new)
  simpa [changes] using turns_hunks (Hunk.spans_none ⟨0, 0⟩) hleads

/-! ## Equal lists -/

theorem commonAfter_self (xs : Array String) {i n : Nat} (h : i + n ≤ xs.size) :
    commonAfter xs i xs i n = n := by
  induction n generalizing i with
  | zero => rfl
  | succ n ih =>
    have hi : xs[i]? = some xs[i] := Array.getElem?_eq_getElem (by omega)
    rw [commonAfter, hi]
    simp [ih (i := i + 1) (by omega)]

theorem Grid.script_of_commonStart {g : Grid} (hwidth : g.commonStart = g.width)
    (hheight : g.commonStart = g.height) :
    g.script = keeping g.oldStart g.newStart g.commonStart := by
  have hcore : g.core.width = 0 ∧ g.core.height = 0 := by
    simp only [core, dropStart, dropEnd]
    omega
  have hend : (g.dropStart g.commonStart).commonEnd = 0 := by
    have hle : (g.dropStart g.commonStart).commonEnd ≤ g.width - g.commonStart :=
      (commonEnd_le _).1
    omega
  rw [script, if_pos hcore, hend]
  simp [keeping]

/-- The script from a list to itself keeps all. -/
theorem keep_of_mem_shortestScript_self (xs : Array String) :
    ∀ e ∈ shortestScript xs xs, e.kind = .keep := by
  have hstart : (⟨xs, xs, 0, xs.size, 0, xs.size⟩ : Grid).commonStart = xs.size := by
    rw [Grid.commonStart, Nat.min_self]
    exact commonAfter_self xs (Nat.le_of_eq (Nat.zero_add _))
  intro e he
  rw [shortestScript, Grid.script_of_commonStart hstart hstart, Grid.keeping] at he
  split at he
  · cases he
  · obtain rfl := List.mem_singleton.1 he
    rfl

theorem changes_of_forall_keep {t : Texts} {s : Script} (h : ∀ e ∈ s, e.kind = .keep) :
    (hunks .none s).flatMap (Hunk.changes t) = [] := by
  induction s with
  | nil => rfl
  | cons e s ih =>
    rw [hunks, if_pos (h e List.mem_cons_self), List.flatMap_cons,
      ih fun e he => h e (List.mem_cons_of_mem _ he)]
    rfl

theorem changes_self (xs : Array String) : changes ⟨xs, xs⟩ = [] := by
  have hkeep := keep_of_mem_shortestScript_self xs
  rw [changes, Texts.compact_of_forall_keep hkeep]
  exact changes_of_forall_keep hkeep

theorem changes_eq_nil_iff (t : Texts) : changes t = [] ↔ t.old = t.new := by
  constructor
  · intro h
    have hturns := turns_changes t
    rw [h] at hturns
    exact Array.toList_inj.1 hturns.eq_of_nil
  · intro h
    obtain ⟨old, new⟩ := t
    obtain rfl : old = new := h
    exact changes_self old

/-! ## Reports -/

/-- The strings are the lines of a text. -/
def Cuts (s : String) (lines : List String) : Prop := AreLines (lines.map String.toList) s.toList

theorem linesOf_eq_iff {s : String} {lines : List String} : linesOf s = lines ↔ Cuts s lines := by
  rw [Cuts, ← cutLines_eq_iff, linesOf]
  constructor
  · rintro rfl
    simp
  · intro h
    simp [h]

theorem linesOf_inj {s s' : String} : linesOf s = linesOf s' ↔ s = s' := by
  constructor
  · intro h
    have hcut : cutLines s.toList = cutLines s'.toList :=
      (List.map_inj_right fun _ _ => String.ofList_inj.1).1 h
    have hflat := congrArg List.flatten hcut
    rw [flatten_cutLines, flatten_cutLines] at hflat
    exact String.toList_inj.1 hflat
  · rintro rfl
    rfl

theorem report?_eq_none_iff {old new : String} : report? old new = none ↔ old = new := by
  have hchanges := changes_eq_nil_iff ⟨(linesOf old).toArray, (linesOf new).toArray⟩
  unfold report?
  split
  · rename_i hnil
    have hlines := List.toArray_inj (hchanges.1 hnil)
    simpa using linesOf_inj.1 hlines
  · rename_i cs hne
    constructor
    · intro h
      cases h
    · rintro rfl
      exact absurd (hchanges.2 rfl) hne

theorem exists_of_report? {old new text : String} (h : report? old new = some text) :
    ∃ cs, Turns cs (linesOf old) (linesOf new) ∧ text = String.join (cs.map Change.text) := by
  refine ⟨_, turns_changes ⟨(linesOf old).toArray, (linesOf new).toArray⟩, ?_⟩
  unfold report? at h
  split at h
  · cases h
  · exact (Option.some.inj h).symm

/-- How a marked line is shown: with a minus sign if it is deleted and a plus sign if it is inserted,
and with a line feed if it has no ending of its own. -/
inductive Shows : Change → String → Prop where
  | deleted {line : String} (h : IsEnded line.toList) : Shows (.deleted line) ("- " ++ line)
  | deletedLast {line : String} (h : Plain line.toList) :
      Shows (.deleted line) ("- " ++ line ++ "\n")
  | inserted {line : String} (h : IsEnded line.toList) : Shows (.inserted line) ("+ " ++ line)
  | insertedLast {line : String} (h : Plain line.toList) :
      Shows (.inserted line) ("+ " ++ line ++ "\n")

theorem shows_text_of_mem {s line : String} (h : line ∈ linesOf s) :
    Shows (.deleted line) (Change.deleted line).text ∧
      Shows (.inserted line) (Change.inserted line).text := by
  have hcuts : Cuts s (linesOf s) := linesOf_eq_iff.1 rfl
  obtain hended | hplain := hcuts.isEnded_or_plain (List.mem_map_of_mem h)
  · rw [Change.text, Change.text, ended, if_pos (hasEnding_of_isEnded hended)]
    exact ⟨.deleted hended, .inserted hended⟩
  · rw [Change.text, Change.text, ended, if_neg (by simp [hasEnding_of_plain hplain]),
      ← String.append_assoc, ← String.append_assoc]
    exact ⟨.deletedLast hplain, .insertedLast hplain⟩

theorem Turns.shows {old new : String} {cs : List Change}
    (h : Turns cs (linesOf old) (linesOf new)) :
    List.Forall₂ Shows cs (cs.map Change.text) := by
  rw [List.forall₂_map_right_iff, List.forall₂_same]
  intro c hc
  obtain ⟨line, hline, rfl⟩ | ⟨line, hline, rfl⟩ := h.mem_of_mem hc
  · exact (shows_text_of_mem hline).1
  · exact (shows_text_of_mem hline).2

/-- The sign in front of a line breaks no line and is no line feed, so that what shows a line is one
line. -/
theorem Shows.isEnded {c : Change} {row : String} (h : Shows c row) :
    IsEnded row.toList ∧ ∃ sign rest, sign ≠ '\n' ∧ row.toList = sign :: rest := by
  have hminus : Plain "- ".toList := ⟨by decide, by decide⟩
  have hplus : Plain "+ ".toList := ⟨by decide, by decide⟩
  cases h with
  | deleted h =>
    rw [String.toList_append]
    exact ⟨h.prepend hminus, '-', _, by decide, rfl⟩
  | deletedLast h =>
    rw [String.toList_append, String.toList_append]
    exact ⟨.feed (hminus.append h), '-', _, by decide, rfl⟩
  | inserted h =>
    rw [String.toList_append]
    exact ⟨h.prepend hplus, '+', _, by decide, rfl⟩
  | insertedLast h =>
    rw [String.toList_append, String.toList_append]
    exact ⟨.feed (hplus.append h), '+', _, by decide, rfl⟩

theorem cuts_join {cs : List Change} {rows : List String} (h : List.Forall₂ Shows cs rows) :
    Cuts (String.join rows) rows := by
  have hended : ∀ row ∈ rows,
      IsEnded row.toList ∧ ∃ sign rest, sign ≠ '\n' ∧ row.toList = sign :: rest := by
    induction h with
    | nil => nofun
    | cons hshows _ ih => exact List.forall_mem_cons.2 ⟨hshows.isEnded, ih⟩
  have hjoin : (String.join rows).toList = (rows.map String.toList).flatten := by
    simp [List.flatMap_def]
  rw [Cuts, hjoin]
  exact areLines_flatten (List.forall_mem_map.2 hended)

/-- Marked lines and the text that shows them are a faithful report of the difference between two
texts. -/
structure Faithful (old new : String) (cs : List Change) (text : String) : Prop where
  /-- The marked lines are an edit script from the lines of the one text to those of the other. -/
  turns : Turns cs (linesOf old) (linesOf new)
  /-- Taking the marked lines out of both texts leaves the same lines. -/
  leaves : ∃ kept, Leaves (linesOf old) (deletedLines cs) kept ∧
    Leaves (linesOf new) (insertedLines cs) kept
  /-- The text is made up of lines that show the marked lines, one for each in their order. -/
  rows : ∃ rows, List.Forall₂ Shows cs rows ∧ text = String.join rows ∧ linesOf text = rows

/-- There is a report of the difference between two texts exactly if there is a difference, and
every report is faithful. The lines are those that end at a line feed, at a carriage return with a
line feed, or at a carriage return alone. -/
theorem report?_faithful (old new : String) :
    Cuts old (linesOf old) ∧ Cuts new (linesOf new) ∧ (report? old new = none ↔ old = new) ∧
      ∀ text, report? old new = some text → ∃ cs, Faithful old new cs text := by
  refine ⟨linesOf_eq_iff.1 rfl, linesOf_eq_iff.1 rfl, report?_eq_none_iff, ?_⟩
  intro text h
  obtain ⟨cs, hturns, rfl⟩ := exists_of_report? h
  exact ⟨cs, hturns, hturns.exists_leaves, _, hturns.shows, rfl,
    linesOf_eq_iff.2 (cuts_join hturns.shows)⟩

/-- Texts that differ in a line, in the ending of one and in the missing ending of the last one. -/
theorem report?_faithful_of_endings :
    let old := "a\r\nb\nc\nd"
    let new := "a\nb\nb\nd\n"
    let text := "- a\r\n+ a\n+ b\n- c\n- d\n+ d\n"
    report? old new = some text ∧ ∃ cs, Faithful old new cs text := by
  intro old new text
  have h : report? old new = some text := by decide +kernel
  obtain ⟨-, -, -, hfaithful⟩ := report?_faithful old new
  exact ⟨h, hfaithful text h⟩

end ClusterFirewall.Diff
