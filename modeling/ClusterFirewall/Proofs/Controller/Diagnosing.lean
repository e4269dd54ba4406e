import ClusterFirewall.Controller.Diagnostics
import ClusterFirewall.Proofs.Text.Trimming
import Mathlib.Data.List.Forall2

/-!
# Every diagnostic is told

What the load command writes as lines of text is told line by line. The marks at the front of a line
end in a blank and a trimmed line does not, so that something is left of every line that is not
blank, however often the marks stand there. How the command ended is told instead only if it wrote
nothing but blanks.

- **Lines**: `Tells`, what a message keeps of its line, and `tells_stripMarks`.
- **Reports**: `IsReport`, the texts that are read in another way.
- **Failures**: `messages_tell`.
-/

namespace ClusterFirewall.Diagnostics

variable {stderr line : String}

/-! ## Lines -/

/-- A message is what is left of a line without the blanks at both ends and the marks in front. -/
structure Tells (line msg : String) : Prop where
  ne_empty : msg ≠ ""
  suffix : msg.toList <:+ (Text.trim line).toList
  not_marked : ¬ "nft: ".toList <+: msg.toList
  /-- Nothing but blanks is taken from the ends. -/
  trimmed : ∃ front back, line.toList = front ++ (Text.trim line).toList ++ back ∧
    (∀ c ∈ front, Text.isBlank c) ∧ ∀ c ∈ back, Text.isBlank c
  /-- Nothing but marks is taken from the front, first of one kind and then of the other. -/
  stripped : ∃ rest, Text.Strips "Error: ".toList (Text.trim line).toList rest ∧
    Text.Strips "nft: ".toList rest msg.toList

theorem tells_stripMarks (h : Text.isAllBlank line = false) : Tells line (stripMarks line) := by
  have hfirst := Text.strips_dropRepeated (m := "Error: ") (by decide) (Text.trim line)
  have hsecond := Text.strips_dropRepeated (m := "nft: ") (by decide)
    (Text.dropRepeated "Error: " (Text.trim line))
  obtain ⟨c, hlast, hdark⟩ := Text.exists_getLast?_trim h
  -- The last character is no blank, which both marks end in, so that it stays to the end.
  have hblank : some c ≠ some ' ' := by
    rintro ⟨⟩
    cases hdark
  have hrest := hfirst.getLast?_eq (hlast.trans_ne hblank)
  have hmsg := hsecond.getLast?_eq ((hrest.trans hlast).trans_ne hblank)
  constructor
  case ne_empty =>
    intro hempty
    have hnone : (stripMarks line).toList.getLast? = none := by simp [hempty]
    cases hnone.symm.trans (hmsg.trans (hrest.trans hlast))
  case suffix => exact hsecond.suffix.trans hfirst.suffix
  case not_marked => exact hsecond.not_prefix
  case trimmed => exact Text.exists_append_trim line
  case stripped => exact ⟨_, hfirst, hsecond⟩

/-- Every line that is not blank has its message, in order. -/
theorem forall₂_tells_ofLines (stderr : String) :
    List.Forall₂ Tells ((Text.lines stderr).filter fun line => !Text.isAllBlank line)
      (ofLines stderr) := by
  unfold ofLines
  rw [List.forall₂_map_right_iff, List.forall₂_same]
  intro line hline
  have hdark := (List.mem_filter.1 hline).2
  exact tells_stripMarks (by simpa using hdark)

theorem ofLines_eq_nil_iff : ofLines stderr = [] ↔ Text.isAllBlank stderr := by
  rw [ofLines, List.map_eq_nil_iff, List.filter_eq_nil_iff, Text.isAllBlank_iff_lines]
  simp

/-! ## Reports -/

/-- The text is a JSON document with a list of errors. -/
def IsReport (stderr : String) : Prop :=
  ∃ document report errors, Json.parse stderr = some document ∧
    Json.stored? Json.nestingLimit document = some report ∧
      report.member? "errors" = some (.array errors)

theorem items?_eq_some_iff {j : Json} {items : List Json} :
    j.items? = some items ↔ j = .array items := by
  cases j <;> simp [Json.items?]

theorem isReport_of_ofReport? {messages : List String} (h : ofReport? stderr = some messages) :
    IsReport stderr := by
  unfold ofReport? at h
  obtain ⟨report, hreport, h⟩ := Option.bind_eq_some_iff.1 h
  obtain ⟨errors, herrors, -⟩ := Option.bind_eq_some_iff.1 h
  obtain ⟨document, hparse, hstored⟩ := Option.bind_eq_some_iff.1 hreport
  obtain ⟨list, hlist, hitems⟩ := Option.bind_eq_some_iff.1 herrors
  exact ⟨document, report, errors, hparse, hstored, items?_eq_some_iff.1 hitems ▸ hlist⟩

theorem messages_of_not_isReport (h : ¬ IsReport stderr) : messages stderr = ofLines stderr := by
  have hnone : ofReport? stderr = none := by
    cases hreport : ofReport? stderr with
    | none => rfl
    | some messages => exact absurd (isReport_of_ofReport? hreport) h
  rw [messages, hnone, Option.getD_none]

/-! ## Failures -/

/-- The lines of a text hold all of it but blanks. If the text is no report, every line that is not
blank gives one message, in order. So a command that failed is told of by its messages, and by how
it ended only if it wrote nothing but blanks. -/
theorem messages_tell (h : ¬ IsReport stderr) :
    ((Text.lines stderr).flatMap String.toList).filter (!Text.isBlank ·) =
        stderr.toList.filter (!Text.isBlank ·) ∧
      List.Forall₂ Tells ((Text.lines stderr).filter fun line => !Text.isAllBlank line)
        (messages stderr) ∧
      (messages stderr = [] ↔ Text.isAllBlank stderr) ∧
      ∀ program ending exitCode bytes, Text.decodeLossy bytes = stderr →
        failedCommand program ending exitCode bytes =
          .nftables (if Text.isAllBlank stderr then program ++ " exited with " ++ ending
            else "; ".intercalate (messages stderr)) (some stderr) exitCode := by
  have hlines := messages_of_not_isReport h
  have hnil : messages stderr = [] ↔ Text.isAllBlank stderr := by
    rw [hlines]
    exact ofLines_eq_nil_iff
  refine ⟨Text.filter_flatMap_lines stderr, hlines ▸ forall₂_tells_ofLines stderr, hnil, ?_⟩
  rintro program ending exitCode bytes rfl
  simp only [failedCommand, List.isEmpty_iff, hnil]

/-- Marks are repeated, a line is made of nothing else, and one holds another kind of blank only. -/
theorem messages_tell_of_marks :
    let stderr := "Error: Error: nft: nft: bad\r\n \u00a0\n  Error: nft: \n"
    ¬ IsReport stderr ∧ messages stderr = ["bad", "nft:"] ∧
      List.Forall₂ Tells ["Error: Error: nft: nft: bad", "  Error: nft: "] ["bad", "nft:"] := by
  intro stderr
  have hreport : ¬ IsReport stderr := by
    rintro ⟨document, -, -, hparse, -⟩
    have hnone : (Json.parse stderr).isNone := by decide +kernel
    simp [hparse] at hnone
  have hmessages : messages stderr = ["bad", "nft:"] := by decide +kernel
  have hlines : ((Text.lines stderr).filter fun line => !Text.isAllBlank line) =
      ["Error: Error: nft: nft: bad", "  Error: nft: "] := by decide +kernel
  obtain ⟨-, htell, -⟩ := messages_tell hreport
  rw [hlines, hmessages] at htell
  exact ⟨hreport, hmessages, htell⟩

end ClusterFirewall.Diagnostics
