import ClusterFirewall.Diff.Script

/-!
# Moving the blocks of a script

An inserted block that ends with the lines in front of it can as well stand further up, and one that
starts with the lines after it further down. Every block is moved up as far as it goes and then down
as far as it goes, deleted blocks first, and joins the blocks of its kind that it meets on the way.
Deleted blocks change places with inserted ones only and never pass kept lines.
-/

namespace ClusterFirewall.Diff

/-! ## Changes of a block -/

namespace Edit

/-- The number of a block's lines in the new list. -/
def newLength (e : Edit) : Nat := if e.kind = .delete then 0 else e.length

/-- The block further up. -/
def moveUp (e : Edit) (n : Nat) : Edit :=
  { e with oldStart := e.oldStart - n, newStart := e.newStart - n }

/-- The block further down. -/
def moveDown (e : Edit) (n : Nat) : Edit :=
  { e with oldStart := e.oldStart + n, newStart := e.newStart + n }

/-- The block without its last lines. -/
def dropLast (e : Edit) (n : Nat) : Edit := { e with length := e.length - n }

/-- The block without its first lines. -/
def dropFirst (e : Edit) (n : Nat) : Edit := (e.moveDown n).dropLast n

/-- The block with lines added at its end. -/
def growDown (e : Edit) (n : Nat) : Edit := { e with length := e.length + n }

/-- The block with lines added at its front. -/
def growUp (e : Edit) (n : Nat) : Edit := (e.moveUp n).growDown n

end Edit

/-! ## A block among the others -/

/-- A script with one of its blocks picked out. -/
structure Focus where
  /-- The blocks before it, the nearest one first. -/
  before : List Edit
  /-- The block. -/
  block : Edit
  /-- The blocks after it. -/
  after : List Edit

/-- The number of blocks and lines of a script. -/
def weight (s : Script) : Nat := s.foldr (fun e n => e.length + 1 + n) 0

@[simp] theorem weight_nil : weight [] = 0 := rfl

@[simp] theorem weight_cons (e : Edit) (s : Script) :
    weight (e :: s) = e.length + 1 + weight s := rfl

/-- A script without its first block if that is empty. -/
def dropEmptyHead : Script → Script
  | [] => []
  | e :: rest => if e.length = 0 then rest else e :: rest

theorem weight_dropEmptyHead_lt {e e' : Edit} (h : e'.length < e.length) (rest : Script) :
    weight (dropEmptyHead (e' :: rest)) < weight (e :: rest) := by
  simp only [dropEmptyHead, weight_cons]
  split
  · omega
  · rw [weight_cons]
    omega

/-- The lists that a script is about. -/
structure Texts where
  /-- The old lines. -/
  old : Array String
  /-- The new lines. -/
  new : Array String

namespace Texts

/-- The number of inserted lines that a block can move up past the kept block in front of it. -/
def roomAbove (t : Texts) (above block : Edit) : Nat :=
  commonBefore t.old (above.oldStart + above.length) t.new (block.newStart + block.newLength)
    (min above.length block.newLength)

/-- The number of inserted lines that a block can move down past the kept block after it. -/
def roomBelow (t : Texts) (block below : Edit) : Nat :=
  commonAfter t.old below.oldStart t.new block.newStart (min below.length block.newLength)

theorem roomAbove_le (t : Texts) (above block : Edit) : t.roomAbove above block ≤ above.length :=
  Nat.le_trans (commonBefore_le ..) (Nat.min_le_left ..)

theorem roomBelow_le (t : Texts) (block below : Edit) : t.roomBelow block below ≤ below.length :=
  Nat.le_trans (commonAfter_le ..) (Nat.min_le_left ..)

/-- The blocks after a block that moved up past the end of a kept one, which they start with. -/
def keepBelow (above block : Edit) (n : Nat) (after : List Edit) : List Edit :=
  let kept : Edit :=
    ⟨.keep, above.oldStart + above.length - n, block.newStart + block.newLength - n, n⟩
  match after with
  | next :: rest => if next.kind = .keep then next.growUp n :: rest else kept :: after
  | [] => [kept]

/-- The blocks before a block that moved down past the start of a kept one, which they end with. -/
def keepAbove (block below : Edit) (n : Nat) (before : List Edit) : List Edit :=
  let kept : Edit := ⟨.keep, below.oldStart, block.newStart, n⟩
  match before with
  | next :: rest => if next.kind = .keep then next.growDown n :: rest else kept :: before
  | [] => [kept]

/-- Moves a block up as far as it goes. -/
def shiftUp (t : Texts) (before : List Edit) (block : Edit) (after : List Edit) : Focus :=
  match before with
  | [] => ⟨[], block, after⟩
  | above :: rest =>
    if above.kind = .keep then
      if _h : t.roomAbove above block = 0 then
        if above.length = 0 then t.shiftUp rest block after else ⟨above :: rest, block, after⟩
      else
        let n := t.roomAbove above block
        t.shiftUp (dropEmptyHead (above.dropLast n :: rest)) (block.moveUp n)
          (keepBelow above block n after)
    else if above.kind = block.kind then t.shiftUp rest (above.growDown block.length) after
    else t.shiftUp rest block (above :: after)
termination_by weight before
decreasing_by
  · simp
  · have hroom := t.roomAbove_le above block
    exact weight_dropEmptyHead_lt (by simp only [Edit.dropLast]; omega) rest
  · simp
  · simp

/-- Moves a block down as far as it goes. -/
def shiftDown (t : Texts) (before : List Edit) (block : Edit) (after : List Edit) : Focus :=
  match after with
  | [] => ⟨before, block, []⟩
  | below :: rest =>
    if below.kind = .keep then
      if _h : t.roomBelow block below = 0 then
        if below.length = 0 then t.shiftDown before block rest else ⟨before, block, below :: rest⟩
      else
        let n := t.roomBelow block below
        t.shiftDown (keepAbove block below n before) (block.moveDown n)
          (dropEmptyHead (below.dropFirst n :: rest))
    else if below.kind = block.kind then t.shiftDown before (block.growDown below.length) rest
    else t.shiftDown (below :: before) block rest
termination_by weight after
decreasing_by
  · simp
  · have hroom := t.roomBelow_le block below
    exact weight_dropEmptyHead_lt
      (by simp only [Edit.dropFirst, Edit.dropLast, Edit.moveDown]; omega) rest
  · simp
  · simp

/-- Moves the blocks of a kind, one after the other, at most `n` of them. -/
def shiftAll (t : Texts) (kind : EditKind) : Nat → List Edit → List Edit → Script
  | n + 1, before, block :: after =>
    if block.kind = kind then
      let up := t.shiftUp before block after
      let down := t.shiftDown up.before up.block up.after
      t.shiftAll kind n (down.block :: down.before) down.after
    else t.shiftAll kind n (block :: before) after
  | _, before, after => before.reverse ++ after

/-- Moves all blocks of a kind. -/
def shift (t : Texts) (kind : EditKind) (s : Script) : Script :=
  t.shiftAll kind (weight s + 1) [] s

/-- Moves all blocks, the deleted ones first. -/
def compact (t : Texts) (s : Script) : Script := t.shift .insert (t.shift .delete s)

end Texts

end ClusterFirewall.Diff
