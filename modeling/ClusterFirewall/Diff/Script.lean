/-!
# Shortest edit scripts

A script turns one list of lines into another one by keeping, deleting and inserting blocks. It is
found by divide and conquer: lines that both lists start or end with are kept, and what remains is
cut in two where a search from both ends meets. Each search follows, for growing numbers of edits,
the furthest point on every diagonal of the grid whose sides are the two lists.
-/

namespace ClusterFirewall.Diff

/-! ## Blocks and scripts -/

/-- What a block of a script does. -/
inductive EditKind where
  | keep
  | delete
  | insert
  deriving DecidableEq, Repr

/-- A block of a script: some lines and where they start in both lists. -/
structure Edit where
  /-- What is done to the lines. -/
  kind : EditKind
  /-- Where the block starts in the old list. -/
  oldStart : Nat
  /-- Where the block starts in the new list. -/
  newStart : Nat
  /-- The number of lines. -/
  length : Nat
  deriving DecidableEq, Repr

/-- A script. -/
abbrev Script := List Edit

/-! ## Common lines -/

/-- The number of lines that two places have in common from there on, at most `n`. -/
def commonAfter (xs : Array String) (i : Nat) (ys : Array String) (j : Nat) : Nat → Nat
  | 0 => 0
  | n + 1 =>
    match xs[i]?, ys[j]? with
    | some x, some y => if x = y then commonAfter xs (i + 1) ys (j + 1) n + 1 else 0
    | _, _ => 0

theorem commonAfter_le (xs : Array String) (i : Nat) (ys : Array String) (j n : Nat) :
    commonAfter xs i ys j n ≤ n := by
  fun_induction commonAfter xs i ys j n <;> omega

/-- The number of lines that two places have in common before them, at most `n`. -/
def commonBefore (xs : Array String) : Nat → (ys : Array String) → Nat → Nat → Nat
  | i + 1, ys, j + 1, n + 1 =>
    match xs[i]?, ys[j]? with
    | some x, some y => if x = y then commonBefore xs i ys j n + 1 else 0
    | _, _ => 0
  | _, _, _, _ => 0

theorem commonBefore_le (xs : Array String) (i : Nat) (ys : Array String) (j n : Nat) :
    commonBefore xs i ys j n ≤ n := by
  fun_induction commonBefore xs i ys j n <;> omega

/-! ## The grid between two lists -/

/-- Two lists of lines and a part of each. -/
structure Grid where
  /-- The old lines. -/
  old : Array String
  /-- The new lines. -/
  new : Array String
  /-- Where the old part starts. -/
  oldStart : Nat
  /-- The length of the old part. -/
  width : Nat
  /-- Where the new part starts. -/
  newStart : Nat
  /-- The length of the new part. -/
  height : Nat

/-- The furthest point on each diagonal, counted from the search's own corner; diagonals are
numbered from minus the given offset on. -/
structure Reach where
  /-- The number of diagonals below the middle one. -/
  offset : Nat
  /-- The points. -/
  points : Array Nat

namespace Reach

/-- The reach of a search that has not moved. -/
def start (offset : Nat) : Reach := ⟨offset, Array.replicate (2 * offset + 1) 0⟩

/-- The furthest point on a diagonal. -/
def get (r : Reach) (k : Int) : Nat := r.points[(k + r.offset).toNat]?.getD 0

/-- Moves the furthest point on a diagonal. -/
def set (r : Reach) (k : Int) (x : Nat) : Reach :=
  { r with points := r.points.setIfInBounds (k + r.offset).toNat x }

/-- Where the next edit leads on a diagonal: from the neighbour that is further along. -/
def advance (r : Reach) (d : Nat) (k : Int) : Nat :=
  if k = -(d : Int) || (k != d && r.get (k - 1) < r.get (k + 1)) then r.get (k + 1)
  else r.get (k - 1) + 1

end Reach

namespace Grid

/-- The diagonal of the far corner. -/
def delta (g : Grid) : Int := (g.width : Int) - g.height

/-- Whether the two lengths differ by an odd number. -/
def isOdd (g : Grid) : Bool := g.delta % 2 != 0

/-- A number of edits that one of the two searches never needs more than. -/
def maxEdits (g : Grid) : Nat := (g.width + g.height + 1) / 2 + 1

/-- The diagonals of a number of edits, from the highest one down. -/
def diagonals (d : Nat) : List Int := (List.range (d + 1)).map fun (i : Nat) => (d : Int) - 2 * i

/-- Takes the forward search a step further on a diagonal, or gives the point at which it has met
the backward search. -/
def forward (g : Grid) (d : Nat) (backward : Reach) (r : Reach) (k : Int) :
    Except (Nat × Nat) Reach :=
  let x := r.advance d k
  let y := ((x : Int) - k).toNat
  let common :=
    if x < g.width && y < g.height then
      commonAfter g.old (g.oldStart + x) g.new (g.newStart + y) (min (g.width - x) (g.height - y))
    else 0
  let r := r.set k (x + common)
  -- The other search counts from the far corner, which turns the diagonals around.
  if g.isOdd && (k - g.delta).natAbs + 1 ≤ d &&
      g.width ≤ r.get k + backward.get (-(k - g.delta)) then
    .error (x, y)
  else .ok r

/-- Takes the backward search a step further on a diagonal, or gives the point at which it has met
the forward search. -/
def backward (g : Grid) (d : Nat) (forward : Reach) (r : Reach) (k : Int) :
    Except (Nat × Nat) Reach :=
  let x := r.advance d k
  let y := ((x : Int) - k).toNat
  let common :=
    if x < g.width && y < g.height then
      commonBefore g.old (g.oldStart + g.width - x) g.new (g.newStart + g.height - y)
        (min (g.width - x) (g.height - y))
    else 0
  let r := r.set k (x + common)
  -- With lengths of the same parity the searches meet on a step back.
  if !g.isOdd && (k - g.delta).natAbs ≤ d &&
      g.width ≤ r.get k + forward.get (-(k - g.delta)) then
    .error (g.width - (x + common), g.height - (y + common))
  else .ok r

/-- The point at which the searches meet, from a number of edits on. -/
def meetingFrom (g : Grid) : Nat → Nat → Reach → Reach → Option (Nat × Nat)
  | 0, _, _, _ => none
  | n + 1, d, there, back =>
    match (diagonals d).foldlM (g.forward d back) there with
    | .error point => some point
    | .ok there =>
      match (diagonals d).foldlM (g.backward d there) back with
      | .error point => some point
      | .ok back => g.meetingFrom n (d + 1) there back

/-- The point at which the searches meet, counted from the start of the parts. -/
def meeting? (g : Grid) : Option (Nat × Nat) :=
  g.meetingFrom g.maxEdits 0 (.start (g.maxEdits + 1)) (.start (g.maxEdits + 1))

/-! ## The script of a grid -/

/-- The script that keeps lines, or none if there are no lines. -/
def keeping (oldStart newStart length : Nat) : Script :=
  if length = 0 then [] else [⟨.keep, oldStart, newStart, length⟩]

/-- The number of lines that both parts start with. -/
def commonStart (g : Grid) : Nat :=
  commonAfter g.old g.oldStart g.new g.newStart (min g.width g.height)

/-- The number of lines that both parts end with. -/
def commonEnd (g : Grid) : Nat :=
  commonBefore g.old (g.oldStart + g.width) g.new (g.newStart + g.height) (min g.width g.height)

/-- The grid without its first lines. -/
def dropStart (g : Grid) (n : Nat) : Grid :=
  { g with
    oldStart := g.oldStart + n
    width := g.width - n
    newStart := g.newStart + n
    height := g.height - n }

/-- The grid without its last lines. -/
def dropEnd (g : Grid) (n : Nat) : Grid :=
  { g with width := g.width - n, height := g.height - n }

/-- The lower left part of a grid, up to a point. -/
def before (g : Grid) (x y : Nat) : Grid := { g with width := x, height := y }

/-- The upper right part of a grid, from a point on. -/
def after (g : Grid) (x y : Nat) : Grid :=
  { g with
    oldStart := g.oldStart + x
    width := g.width - x
    newStart := g.newStart + y
    height := g.height - y }

/-- Deletes the old part and inserts the new one. -/
def replaced (g : Grid) : Script :=
  [⟨.delete, g.oldStart, g.newStart, g.width⟩, ⟨.insert, g.oldStart, g.newStart, g.height⟩]

/-- The part between the common lines. -/
def core (g : Grid) : Grid :=
  let g := g.dropStart g.commonStart
  g.dropEnd g.commonEnd

/-- The point at which the core is cut: inside the core, and with something on both sides. -/
def cut? (g : Grid) : Option (Nat × Nat) :=
  g.meeting?.filter fun p =>
    p.1 ≤ g.width && p.2 ≤ g.height && 0 < p.1 + p.2 && p.1 + p.2 < g.width + g.height

theorem cut?_bounds {g : Grid} {x y : Nat} (h : g.cut? = some (x, y)) :
    x ≤ g.width ∧ y ≤ g.height ∧ 0 < x + y ∧ x + y < g.width + g.height := by
  obtain ⟨_, h⟩ := Option.filter_eq_some_iff.1 h
  simpa [and_assoc] using h

theorem core_le (g : Grid) : g.core.width ≤ g.width ∧ g.core.height ≤ g.height := by
  simp only [core, dropStart, dropEnd]
  omega

/-- The shortest script of a grid. -/
def script (g : Grid) : Script :=
  keeping g.oldStart g.newStart g.commonStart ++
    (if g.core.width = 0 ∧ g.core.height = 0 then []
      else if g.core.height = 0 then
        [⟨.delete, g.core.oldStart, g.core.newStart, g.core.width⟩]
      else if g.core.width = 0 then
        [⟨.insert, g.core.oldStart, g.core.newStart, g.core.height⟩]
      else
        match _h : g.core.cut? with
        | some (x, y) => (g.core.before x y).script ++ (g.core.after x y).script
        | none => g.core.replaced) ++
    keeping (g.core.oldStart + g.core.width) (g.core.newStart + g.core.height)
      (g.dropStart g.commonStart).commonEnd
termination_by g.width + g.height
decreasing_by
  all_goals
    have hcut := cut?_bounds _h
    have hcore := core_le g
    simp only [before, after]
    omega

end Grid

/-- The shortest script between two lists of lines. -/
def shortestScript (old new : Array String) : Script :=
  Grid.script ⟨old, new, 0, old.size, 0, new.size⟩

end ClusterFirewall.Diff
