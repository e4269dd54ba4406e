import ClusterFirewall.Diff.Compact

/-!
# The report of a difference

Texts are compared by their lines. A line ends at a line feed, at a carriage return with a line
feed, or at a carriage return alone, and keeps its ending; what stands after the last ending is a
line without one. Between two kept blocks the deleted lines are listed first and then the inserted
ones, each with its sign in front. Kept lines are left out, and texts without a difference have no
report.

Main statement: `flatten_cutLines` says that cutting loses nothing.
-/

namespace ClusterFirewall.Diff

/-! ## Lines with their endings -/

/-- The lines of a text, where `line` is the start of the first one in reverse. -/
def cutLinesFrom (line : List Char) : List Char → List (List Char)
  | [] => if line.isEmpty then [] else [line.reverse]
  | '\r' :: '\n' :: rest => ('\n' :: '\r' :: line).reverse :: cutLinesFrom [] rest
  | c :: rest =>
    if c = '\n' ∨ c = '\r' then (c :: line).reverse :: cutLinesFrom [] rest
    else cutLinesFrom (c :: line) rest

theorem flatten_cutLinesFrom (line cs : List Char) :
    (cutLinesFrom line cs).flatten = line.reverse ++ cs := by
  fun_induction cutLinesFrom line cs with
  | case1 line h => simpa using h
  | case2 line h => simp
  | case3 line rest ih => simp [ih]
  | case4 line c rest _ _ ih => simp [ih]
  | case5 line c rest _ _ ih => simp [ih]

/-- The lines of a text. -/
def cutLines (cs : List Char) : List (List Char) := cutLinesFrom [] cs

/-- The lines put together are the text. -/
theorem flatten_cutLines (cs : List Char) : (cutLines cs).flatten = cs := by
  simp [cutLines, flatten_cutLinesFrom]

/-- The lines of a string. -/
def linesOf (s : String) : List String := (cutLines s.toList).map String.ofList

/-- Whether a line has an ending. -/
def hasEnding (line : String) : Bool :=
  match line.toList.getLast? with
  | some c => c == '\n' || c == '\r'
  | none => false

/-! ## Hunks -/

/-- Some lines of a list: where they start and how many they are. -/
structure Extent where
  /-- The first line. -/
  start : Nat
  /-- The number of lines. -/
  length : Nat
  deriving DecidableEq, Repr

namespace Extent

/-- Lines that are joined by those of a block. -/
def join : Option Extent → (start length : Nat) → Extent
  | none, start, length => ⟨start, length⟩
  | some e, _, length => ⟨e.start, e.length + length⟩

/-- The lines in a list. -/
def linesOf (lines : Array String) : Option Extent → List String
  | none => []
  | some e => (lines.extract e.start (e.start + e.length)).toList

end Extent

/-- What is changed between two kept blocks. -/
structure Hunk where
  /-- The deleted lines. -/
  deleted : Option Extent
  /-- The inserted lines. -/
  inserted : Option Extent
  deriving DecidableEq, Repr

namespace Hunk

/-- No change. -/
def none : Hunk := ⟨.none, .none⟩

/-- A hunk with one more block. -/
def add (h : Hunk) (e : Edit) : Hunk :=
  match e.kind with
  | .delete => { h with deleted := some (.join h.deleted e.oldStart e.length) }
  | .insert => { h with inserted := some (.join h.inserted e.newStart e.length) }
  | .keep => h

end Hunk

/-- The hunks of a script, where `h` is what precedes it since the last kept block. -/
def hunks (h : Hunk) : Script → List Hunk
  | [] => [h]
  | e :: rest => if e.kind = .keep then h :: hunks .none rest else hunks (h.add e) rest

/-- A changed line. -/
inductive Change where
  | deleted (line : String)
  | inserted (line : String)
  deriving DecidableEq, Repr

/-- The changed lines of a hunk. -/
def Hunk.changes (t : Texts) (h : Hunk) : List Change :=
  (Extent.linesOf t.old h.deleted).map .deleted ++ (Extent.linesOf t.new h.inserted).map .inserted

/-- The changed lines between two lists. -/
def changes (t : Texts) : List Change :=
  (hunks .none (t.compact (shortestScript t.old t.new))).flatMap (Hunk.changes t)

/-! ## The text of a report -/

/-- A line with an ending. -/
def ended (line : String) : String := if hasEnding line then line else line ++ "\n"

/-- The text of a changed line. -/
def Change.text : Change → String
  | .deleted line => "- " ++ ended line
  | .inserted line => "+ " ++ ended line

/-- The report of the difference between two texts. -/
def report? (old new : String) : Option String :=
  match changes ⟨(linesOf old).toArray, (linesOf new).toArray⟩ with
  | [] => none
  | cs => some (String.join (cs.map Change.text))

end ClusterFirewall.Diff
