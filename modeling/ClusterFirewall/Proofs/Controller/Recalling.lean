import ClusterFirewall.Controller.Audit
import ClusterFirewall.Proofs.Disk.Contents

/-!
# Reading the audit log back

A log may hold lines that are no events, such as blank lines or the first part of a line whose
writing was cut off. Reading takes as many of the newest lines as events are asked for and passes
over the **damaged** ones among them. Each of these takes the place of an older event, if there is
one, so that fewer events come back than the log has, and maybe none.

Main statement: `readRecent_eq_newest_iff`.
-/

namespace ClusterFirewall.AuditLog

/-- Whether a line is an event. -/
def isEventLine (line : String) : Bool := (Json.read? AuditEvent line).isSome

/-- The events of a text, oldest first. -/
def events (text : String) : List AuditEvent :=
  (Text.lines text).filterMap (Json.read? AuditEvent)

/-- The newest events of a text, as many as asked for if there are so many, newest first. -/
def newestEvents (text : String) (count : Nat) : List AuditEvent := (events text).reverse.take count

/-- The number of lines among the newest ones that are no events. -/
def damagedLines (text : String) (count : Nat) : Nat :=
  ((Text.lines text).reverse.take count).countP fun line => !isEventLine line

/-- The events that are older than the newest lines, newest first. -/
def olderEvents (text : String) (count : Nat) : List AuditEvent :=
  ((Text.lines text).reverse.drop count).filterMap (Json.read? AuditEvent)

section Reading

variable (text : String) (count : Nat)

theorem recentEvents_append_olderEvents :
    recentEvents text count ++ olderEvents text count = (events text).reverse := by
  rw [recentEvents, olderEvents, ← List.filterMap_append, List.take_append_drop,
    List.filterMap_reverse, events]

/-- Every one of the newest lines is an event or is damaged. -/
theorem length_recentEvents_add_damagedLines :
    (recentEvents text count).length + damagedLines text count =
      min count (Text.lines text).length := by
  have hevents : (recentEvents text count).length =
      ((Text.lines text).reverse.take count).countP isEventLine :=
    List.length_filterMap_eq_countP
  -- The lines that are taken are counted in two kinds.
  have hsplit := ((Text.lines text).reverse.take count).length_eq_countP_add_countP isEventLine
  rw [List.length_take, List.length_reverse] at hsplit
  rw [hevents, hsplit, damagedLines]
  simp

theorem length_olderEvents_le :
    (olderEvents text count).length ≤ (Text.lines text).length - count := by
  have hle := List.length_filterMap_le (Json.read? AuditEvent)
    ((Text.lines text).reverse.drop count)
  rwa [List.length_drop, List.length_reverse] at hle

theorem damagedLines_eq_zero_iff :
    damagedLines text count = 0 ↔
      ∀ line ∈ (Text.lines text).reverse.take count, isEventLine line := by
  simp only [damagedLines, List.countP_eq_zero, Bool.not_eq_true', Bool.not_eq_false]

theorem olderEvents_eq_nil_iff :
    olderEvents text count = [] ↔
      ∀ line ∈ (Text.lines text).reverse.drop count, ¬ isEventLine line := by
  simp only [olderEvents, List.filterMap_eq_nil_iff, isEventLine, Option.not_isSome_iff_eq_none]

theorem recentEvents_isPrefix_newestEvents :
    recentEvents text count <+: newestEvents text count := by
  have hcount := length_recentEvents_add_damagedLines text count
  refine List.prefix_take_iff.2 ⟨⟨_, recentEvents_append_olderEvents text count⟩, ?_⟩
  omega

/-- Every damaged line takes the place of an older event, as long as there is one. -/
theorem length_newestEvents :
    (newestEvents text count).length = (recentEvents text count).length +
      min (damagedLines text count) (olderEvents text count).length := by
  have hall := congrArg List.length (recentEvents_append_olderEvents text count)
  rw [List.length_append] at hall
  have hnewest := length_recentEvents_add_damagedLines text count
  have hrest := length_olderEvents_le text count
  rw [newestEvents, List.length_take, ← hall]
  -- If there are fewer lines than events asked for, then no event is older and none is left out.
  omega

theorem recentEvents_eq_newestEvents_iff :
    recentEvents text count = newestEvents text count ↔
      damagedLines text count = 0 ∨ olderEvents text count = [] := by
  have hlength := length_newestEvents text count
  rw [← List.length_eq_zero_iff]
  constructor
  · intro heq
    rw [heq] at hlength
    omega
  · intro hnone
    apply (recentEvents_isPrefix_newestEvents text count).eq_of_length
    omega

end Reading

/-- From a log that is text, reading gives the newest events in their order, with the newest first,
but for each damaged line among the newest ones it leaves out one of the older events. So it gives
the newest events that were asked for, as far as there are any, exactly if all of the newest lines
are events or none of the older ones is. -/
theorem readRecent_eq_newest_iff {d : Disk} {path text : String}
    (htext : d.bytes? path = some text.toUTF8) (count : Nat) :
    let lines := (Text.lines text).reverse
    ∃ got, readRecent d path count = .ok got ∧
      got <+: newestEvents text count ∧
      (newestEvents text count).length =
        got.length + min (damagedLines text count) (olderEvents text count).length ∧
      (got = newestEvents text count ↔
        (∀ line ∈ lines.take count, isEventLine line) ∨
          ∀ line ∈ lines.drop count, ¬ isEventLine line) := by
  intro lines
  have hread : readRecent d path count = .ok (recentEvents text count) := by
    rw [readRecent, Disk.readText_eq_ok_iff.2 htext]
    rfl
  refine ⟨recentEvents text count, hread, recentEvents_isPrefix_newestEvents text count,
    length_newestEvents text count, ?_⟩
  rw [recentEvents_eq_newestEvents_iff, damagedLines_eq_zero_iff, olderEvents_eq_nil_iff]

/-- A line that was cut off stands before an event. Asked for two events, reading gives the only one
that there is. -/
theorem readRecent_eq_newest_after_cut_line :
    let text := "\x7b\"timestamp\":\"1970-01-\n\x7b\"timestamp\":\"1970-01-01T00:00:00Z\"," ++
      "\"event_type\":\"skip_unchanged\",\"success\":true,\"details\":null\x7d\n"
    let d : Disk := ⟨[(["audit.log"], .file text.toUTF8 0o644)], []⟩
    d.bytes? "audit.log" = some text.toUTF8 ∧
      ∃ got, readRecent d "audit.log" 2 = .ok got ∧ got = newestEvents text 2 ∧
        got.map AuditEvent.type = [.skipUnchanged] := by
  intro text d
  have htext : d.bytes? "audit.log" = some text.toUTF8 := by
    apply Disk.bytes?_of_find
    rfl
  have hnone : ∀ line ∈ (Text.lines text).reverse.drop 2, ¬ isEventLine line := by decide +kernel
  obtain ⟨got, hread, -, -, hsame⟩ := readRecent_eq_newest_iff htext 2
  have hgot : got = newestEvents text 2 := hsame.2 (.inr hnone)
  refine ⟨htext, got, hread, hgot, ?_⟩
  rw [hgot]
  decide +kernel

/-- A blank line at the end of a log hides its only event from somebody who asks for one event. -/
theorem readRecent_ne_newest_before_blank_line :
    let text := "\x7b\"timestamp\":\"1970-01-01T00:00:00Z\",\"event_type\":\"skip_unchanged\"," ++
      "\"success\":true,\"details\":null\x7d\n\n"
    let d : Disk := ⟨[(["audit.log"], .file text.toUTF8 0o644)], []⟩
    d.bytes? "audit.log" = some text.toUTF8 ∧
      (newestEvents text 1).map AuditEvent.type = [.skipUnchanged] ∧
      readRecent d "audit.log" 1 = .ok [] ∧
      ¬ ∀ count, readRecent d "audit.log" count = .ok (newestEvents text count) := by
  intro text d
  have htext : d.bytes? "audit.log" = some text.toUTF8 := by
    apply Disk.bytes?_of_find
    rfl
  have hnewest : (newestEvents text 1).map AuditEvent.type = [.skipUnchanged] := by decide +kernel
  have hrecent : recentEvents text 1 = [] := by
    apply List.length_eq_zero_iff.1
    decide +kernel
  have hread : readRecent d "audit.log" 1 = .ok [] := by
    rw [readRecent, Disk.readText_eq_ok_iff.2 htext]
    exact congrArg Except.ok hrecent
  refine ⟨htext, hnewest, hread, ?_⟩
  intro hall
  have hempty : newestEvents text 1 = [] := Except.ok.inj ((hall 1).symm.trans hread)
  simp [hempty] at hnewest

end ClusterFirewall.AuditLog
