import ClusterFirewall.Proofs.Text.Pieces
import Mathlib.Data.List.Basic
import Mathlib.Data.List.TakeWhile

/-!
# Trimming lines and stripping marks

Trimming takes the blanks from both ends, so that what is left of a line with other characters ends
in one of those. Stripping takes a mark from the front as often as it stands there. What is left
ends as the text did, unless the text ends as the mark does; a mark that ends in a blank never uses
up a trimmed text.

- **Trimming**: `exists_append_trim` and `exists_getLast?_trim`.
- **Stripping**: `Strips`, as a relation, and `strips_dropRepeated`.
- **Lines**: `filter_flatMap_lines`, cutting a text into lines loses no character but blanks.
-/

namespace ClusterFirewall.Text

variable {cs rest mark : List Char} {s : String}

/-! ## Trimming -/

theorem exists_append_trimStart (cs : List Char) :
    ∃ front, cs = front ++ trimStart cs ∧ ∀ c ∈ front, isBlank c :=
  ⟨cs.takeWhile isBlank, List.takeWhile_append_dropWhile.symm,
    fun _ hc => List.mem_takeWhile_imp hc⟩

theorem exists_append_trimEnd (cs : List Char) :
    ∃ back, cs = trimEnd cs ++ back ∧ ∀ c ∈ back, isBlank c := by
  obtain ⟨front, hfront, hblank⟩ := exists_append_trimStart cs.reverse
  refine ⟨front.reverse, ?_, fun c hc => hblank c (List.mem_reverse.1 hc)⟩
  have hrev := congrArg List.reverse hfront
  rwa [List.reverse_reverse, List.reverse_append] at hrev

/-- Trimming takes nothing but blanks from both ends. -/
theorem exists_append_trim (s : String) : ∃ front back,
    s.toList = front ++ (trim s).toList ++ back ∧ (∀ c ∈ front, isBlank c) ∧
      ∀ c ∈ back, isBlank c := by
  obtain ⟨front, hstart, hfront⟩ := exists_append_trimStart s.toList
  obtain ⟨back, hend, hback⟩ := exists_append_trimEnd (trimStart s.toList)
  refine ⟨front, back, ?_, hfront, hback⟩
  rw [trim, String.toList_ofList, List.append_assoc, ← hend, ← hstart]

theorem isBlank_of_getLast?_trimEnd {c : Char} (h : (trimEnd cs).getLast? = some c) :
    isBlank c = false := by
  rw [trimEnd, List.getLast?_reverse] at h
  have hstop := List.head?_dropWhile_not isBlank cs.reverse
  simpa [h] using hstop

theorem trimEnd_eq_nil_iff : trimEnd cs = [] ↔ ∀ c ∈ cs, isBlank c := by
  simp [trimEnd, List.dropWhile_eq_nil_iff]

/-- A line that is not blank ends in another character than a blank when it was trimmed. -/
theorem exists_getLast?_trim (h : isAllBlank s = false) :
    ∃ c, (trim s).toList.getLast? = some c ∧ isBlank c = false := by
  rw [trim, String.toList_ofList]
  obtain ⟨front, hstart, hfront⟩ := exists_append_trimStart s.toList
  -- Some character is no blank, and it is not among those that trimming the front takes away.
  obtain ⟨d, hd, hdark⟩ := List.all_eq_false.1 h
  have hkept : d ∈ trimStart s.toList := by
    rw [hstart] at hd
    exact (List.mem_append.1 hd).resolve_left fun hd => hdark (hfront d hd)
  have hne : trimEnd (trimStart s.toList) ≠ [] := fun hnil =>
    hdark (trimEnd_eq_nil_iff.1 hnil d hkept)
  have hlast := List.getLast?_eq_some_getLast hne
  exact ⟨_, hlast, isBlank_of_getLast?_trimEnd hlast⟩

/-! ## Stripping -/

/-- What is left of a text when a mark is taken from its front until it does not stand there. -/
inductive Strips (mark : List Char) : List Char → List Char → Prop where
  | done {cs : List Char} (h : ¬ mark <+: cs) : Strips mark cs cs
  | more {cs rest : List Char} (h : Strips mark cs rest) : Strips mark (mark ++ cs) rest

namespace Strips

theorem suffix (h : Strips mark cs rest) : rest <:+ cs := by
  induction h with
  | done => exact List.suffix_rfl
  | more _ ih => exact ih.trans (List.suffix_append ..)

theorem not_prefix (h : Strips mark cs rest) : ¬ mark <+: rest := by
  induction h with
  | done h => exact h
  | more _ ih => exact ih

/-- The end of a text stays unless it is the end of the mark. -/
theorem getLast?_eq (h : Strips mark cs rest) (hne : cs.getLast? ≠ mark.getLast?) :
    rest.getLast? = cs.getLast? := by
  induction h with
  | done => rfl
  | @more cs rest _ ih =>
    rw [List.getLast?_append] at hne ⊢
    -- Nothing is left only if the last mark ended the text.
    cases hlast : cs.getLast? with
    | none => simp [hlast] at hne
    | some c =>
      rw [hlast, Option.some_or] at hne
      rw [Option.some_or, ← hlast]
      exact ih (hlast ▸ hne)

end Strips

theorem strips_dropRepeatedAtMost (hmark : mark ≠ []) {n : Nat} (hn : cs.length ≤ n) :
    Strips mark cs (dropRepeatedAtMost mark n cs) := by
  induction n generalizing cs with
  | zero =>
    obtain rfl := List.length_eq_zero_iff.1 (Nat.le_zero.1 hn)
    exact .done (by simpa using hmark)
  | succ n ih =>
    unfold dropRepeatedAtMost
    split
    · next hprefix =>
      -- What is left has fewer characters, so that the smaller number is enough for it.
      obtain ⟨more, rfl⟩ := List.isPrefixOf_iff_prefix.1 hprefix
      have hpos := List.length_pos_iff.2 hmark
      have hlength : more.length ≤ n := by
        rw [List.length_append] at hn
        omega
      rw [List.drop_left]
      exact .more (ih hlength)
    · next hprefix => exact .done (mt List.isPrefixOf_iff_prefix.2 hprefix)

/-- There are never more marks than characters, so that all of them are removed. -/
theorem strips_dropRepeated {m : String} (hm : m ≠ "") (s : String) :
    Strips m.toList s.toList (dropRepeated m s).toList := by
  rw [dropRepeated, String.toList_ofList]
  refine strips_dropRepeatedAtMost ?_ (Nat.le_of_eq String.length_toList)
  simpa using hm

/-! ## Lines -/

theorem filter_dropFinalReturn (cs : List Char) :
    (dropFinalReturn cs).filter (!isBlank ·) = cs.filter (!isBlank ·) := by
  unfold dropFinalReturn
  split
  · next hlast =>
    have hcs := List.dropLast_append_getLast? '\r' hlast
    conv => rhs; rw [← hcs]
    simp [isBlank]
  · rfl

theorem filter_flatten_lineChars (cs : List Char) :
    (lineChars cs).flatten.filter (!isBlank ·) = cs.filter (!isBlank ·) := by
  have hpieces := flatten_splitAtEach (· == '\n') cs
  have hne := splitAtEach_ne_nil (· == '\n') cs
  unfold lineChars
  generalize splitAtEach (· == '\n') cs = pieces at hpieces hne
  obtain ⟨front, last, rfl⟩ := (List.eq_nil_or_concat pieces).resolve_left hne
  have hfront : (front.map dropFinalReturn).flatten.filter (!isBlank ·) =
      front.flatten.filter (!isBlank ·) := by
    simp only [List.filter_flatten, List.map_map]
    congr 1
    exact List.map_congr_left fun piece _ => filter_dropFinalReturn piece
  have hlast : (if last.isEmpty then [] else [last]).flatten = last := by
    cases last <;> simp
  -- The line feeds that cutting takes away are blanks themselves.
  have hfeed : ∀ c, (!isBlank c && !c == '\n') = !isBlank c := by
    intro c
    by_cases hc : c = '\n'
    · subst hc
      decide
    · simp [hc]
  rw [List.concat_eq_append] at hpieces ⊢
  simp only [List.dropLast_concat, List.getLastD_concat, List.flatten_append, hlast,
    List.filter_append, hfront]
  rw [← List.filter_append, ← List.flatten_concat, hpieces, List.filter_filter]
  simp only [hfeed]

/-- The lines hold all characters of a text but blanks, in order. -/
theorem filter_flatMap_lines (s : String) :
    ((lines s).flatMap String.toList).filter (!isBlank ·) = s.toList.filter (!isBlank ·) := by
  rw [← filter_flatten_lineChars s.toList, lines, List.flatMap_map]
  simp [List.flatMap_def]

theorem isAllBlank_iff_lines : isAllBlank s ↔ ∀ line ∈ lines s, isAllBlank line := by
  have hblank : ∀ cs : List Char, cs.all isBlank ↔ cs.filter (!isBlank ·) = [] := by
    simp [List.filter_eq_nil_iff]
  rw [isAllBlank, hblank, ← filter_flatMap_lines, ← hblank]
  simp [isAllBlank, List.all_flatMap]

end ClusterFirewall.Text
