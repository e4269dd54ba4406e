import ClusterFirewall.Proofs.Diff.Leading

/-!
# Moving blocks leads to the same places

Every step by which a block is moved changes two neighbours only, and what it makes of them leads
from and to the same places: neighbours of one kind are joined, a deleted block changes places with
an inserted one, and an inserted block passes kept lines that it ends or starts with. So a script
leads to the same places when its blocks have been moved.

Main statements: `leads_compact`, and `compact_of_forall_keep` for a script that changes nothing.
-/

namespace ClusterFirewall.Diff

variable {t : Texts} {e e' : Edit} {s : Script} {p q r : Place}

/-! ## Neighbours -/

/-- Two blocks of one kind are as good as one. -/
theorem Leads.join (h : Leads t (e :: e' :: s) p r) (hkind : e.kind = e'.kind) :
    Leads t (e.growDown e'.length :: s) p r := by
  simp only [leads_cons_iff] at h
  obtain ⟨q, he, q', he', hs⟩ := h
  refine .cons ?_ hs
  cases he with
  | keep kind oldStart newStart old new common =>
    cases he' with
    | keep _ _ _ old' new' common' =>
      rw [old, new] at common'
      exact .keep kind oldStart newStart (by simp only [Edit.growDown]; omega)
        (by simp only [Edit.growDown]; omega) (common_add_iff.2 ⟨common, common'⟩)
    | delete kind' => simp [kind, kind'] at hkind
    | insert kind' => simp [kind, kind'] at hkind
  | delete kind oldStart old new =>
    cases he' with
    | keep kind' => simp [kind, kind'] at hkind
    | delete _ _ old' new' size' =>
      exact .delete kind oldStart (by simp only [Edit.growDown]; omega) (new'.trans new) size'
    | insert kind' => simp [kind, kind'] at hkind
  | insert kind newStart old new =>
    cases he' with
    | keep kind' => simp [kind, kind'] at hkind
    | delete kind' => simp [kind, kind'] at hkind
    | insert _ _ old' new' size' =>
      exact .insert kind newStart (old'.trans old) (by simp only [Edit.growDown]; omega) size'

/-- Deleting and inserting can be done in either order. -/
theorem Leads.swap (h : Leads t (e :: e' :: s) p r) (he : e.kind ≠ .keep) (he' : e'.kind ≠ .keep)
    (hne : e.kind ≠ e'.kind) : Leads t (e' :: e :: s) p r := by
  simp only [leads_cons_iff] at h
  obtain ⟨q, hq, q', hq', hs⟩ := h
  cases hq with
  | keep kind => exact absurd kind he
  | delete kind oldStart old new size =>
    cases hq' with
    | keep kind' => exact absurd kind' he'
    | delete kind' => exact absurd (kind.trans kind'.symm) hne
    | insert kind' newStart' old' new' size' =>
      have hinsert : e'.Leads t p ⟨p.old, q'.new⟩ :=
        .insert kind' (newStart'.trans new) rfl (by rw [new', new]) size'
      have hdelete : e.Leads t ⟨p.old, q'.new⟩ q' :=
        .delete kind oldStart (old'.trans old) rfl (by rw [old']; exact size)
      exact .cons hinsert (.cons hdelete hs)
  | insert kind newStart old new size =>
    cases hq' with
    | keep kind' => exact absurd kind' he'
    | delete kind' oldStart' old' new' size' =>
      have hdelete : e'.Leads t p ⟨q'.old, p.new⟩ :=
        .delete kind' (oldStart'.trans old) (by rw [old', old]) rfl size'
      have hinsert : e.Leads t ⟨q'.old, p.new⟩ q' :=
        .insert kind newStart rfl (new'.trans new) (by rw [new']; exact size)
      exact .cons hdelete (.cons hinsert hs)
    | insert kind' => exact absurd (kind.trans kind'.symm) hne

/-- A block without lines can be left out in front of the rest. -/
theorem Leads.dropEmptyHead (h : Leads t (e :: s) p r) : Leads t (dropEmptyHead (e :: s)) p r := by
  by_cases hempty : e.length = 0
  · rw [Diff.dropEmptyHead, if_pos hempty]
    exact h.of_cons_empty hempty
  · rwa [Diff.dropEmptyHead, if_neg hempty]

/-- The same where the blocks in front are listed backwards. -/
theorem Leads.dropEmptyHead_reverse {before : List Edit}
    (h : Leads t ((e :: before).reverse ++ s) p r) :
    Leads t ((Diff.dropEmptyHead (e :: before)).reverse ++ s) p r := by
  by_cases hempty : e.length = 0
  · rw [Diff.dropEmptyHead, if_pos hempty]
    rw [List.reverse_cons, List.append_assoc] at h
    exact h.replace fun q hq => hq.of_cons_empty hempty
  · rwa [Diff.dropEmptyHead, if_neg hempty]

/-- The script in which a block is picked out. -/
def Focus.script (f : Focus) : Script := f.before.reverse ++ f.block :: f.after

/-! ## Passing kept lines -/

namespace Texts

variable {above below block : Edit} {before after : List Edit}

theorem roomAbove_le_newLength (t : Texts) (above block : Edit) :
    t.roomAbove above block ≤ block.newLength :=
  Nat.le_trans (commonBefore_le ..) (Nat.min_le_right ..)

theorem roomBelow_le_newLength (t : Texts) (block below : Edit) :
    t.roomBelow block below ≤ block.newLength :=
  Nat.le_trans (commonAfter_le ..) (Nat.min_le_right ..)

/-- Of the blocks that change something, only inserted ones have new lines, and without new lines
there is no room to move. -/
theorem kind_of_newLength (hkind : block.kind ≠ .keep) (hlength : block.newLength ≠ 0) :
    block.kind = .insert := by
  cases hblock : block.kind with
  | keep => exact absurd hblock hkind
  | insert => rfl
  | delete => simp [Edit.newLength, hblock] at hlength

/-- Kept lines grow at either side to the same block. -/
theorem growUp_eq_growDown (hkeep : e.kind = .keep) (hkeep' : e'.kind = .keep)
    (he : e.Leads t p q) (he' : e'.Leads t q r) :
    e'.growUp e.length = e.growDown e'.length := by
  cases he with
  | delete kind => simp [hkeep] at kind
  | insert kind => simp [hkeep] at kind
  | keep _ oldStart newStart old new =>
    cases he' with
    | delete kind => simp [hkeep'] at kind
    | insert kind => simp [hkeep'] at kind
    | keep _ oldStart' newStart' =>
      simp only [Edit.growUp, Edit.growDown, Edit.moveUp, Edit.mk.injEq]
      exact ⟨hkeep'.trans hkeep.symm, by omega, by omega, by omega⟩

/-- Lines that are kept in front of other kept lines join them. -/
theorem leads_keepBelow {n : Nat}
    (h : Leads t (⟨.keep, above.oldStart + above.length - n,
      block.newStart + block.newLength - n, n⟩ :: after) p r) :
    Leads t (keepBelow above block n after) p r := by
  cases after with
  | nil => exact h
  | cons next rest =>
    by_cases hkeep : next.kind = .keep
    · have hjoined := h.join hkeep.symm
      simp only [leads_cons_iff] at h
      obtain ⟨q, hkept, q', hnext, -⟩ := h
      rw [← growUp_eq_growDown rfl hkeep hkept hnext] at hjoined
      simpa only [keepBelow, if_pos hkeep] using hjoined
    · simpa only [keepBelow, if_neg hkeep] using h

/-- Lines that are kept after other kept lines join them. -/
theorem leads_keepAbove {n : Nat}
    (h : Leads t (before.reverse ++ ⟨.keep, below.oldStart, block.newStart, n⟩ :: s) p r) :
    Leads t ((keepAbove block below n before).reverse ++ s) p r := by
  cases before with
  | nil => exact h
  | cons next rest =>
    by_cases hkeep : next.kind = .keep
    · rw [List.reverse_cons, List.append_assoc] at h
      simp only [keepAbove, if_pos hkeep, List.reverse_cons, List.append_assoc]
      exact h.replace fun q hq => hq.join hkeep
    · simpa [keepAbove, hkeep] using h

/-- An inserted block that ends with the last kept lines in front of it can be moved in front of
them, and they are kept after it. -/
theorem leads_moveUp (h : Leads t (above :: block :: after) p r) (habove : above.kind = .keep)
    (hblock : block.kind = .insert) :
    Leads t (above.dropLast (t.roomAbove above block) :: block.moveUp (t.roomAbove above block) ::
      keepBelow above block (t.roomAbove above block) after) p r := by
  simp only [leads_cons_iff] at h
  obtain ⟨q, hq, q', hq', hafter⟩ := h
  have hlength : block.newLength = block.length := by simp [Edit.newLength, hblock]
  have habovelen := t.roomAbove_le above block
  have hblocklen := t.roomAbove_le_newLength above block
  obtain ⟨i, j, hi, hj, hcommon⟩ : ∃ i j,
      i + t.roomAbove above block = above.oldStart + above.length ∧
      j + t.roomAbove above block = block.newStart + block.newLength ∧
      Common t.old i t.new j (t.roomAbove above block) := exists_common_commonBefore _ _ _ _ _
  generalize t.roomAbove above block = n at *
  cases hq with
  | delete kind => simp [habove] at kind
  | insert kind => simp [habove] at kind
  | keep _ oldStart newStart old new common =>
    cases hq' with
    | keep kind => simp [hblock] at kind
    | delete kind => simp [hblock] at kind
    | insert _ newStart' old' new' size' =>
      -- The kept lines before the block, the block, and the kept lines after it.
      have hfirst : (above.dropLast n).Leads t p ⟨p.old + (above.length - n),
          p.new + (above.length - n)⟩ := by
        have hsplit : above.length = (above.length - n) + n := by omega
        rw [hsplit] at common
        exact .keep habove oldStart newStart rfl rfl (common_add_iff.1 common).1
      have hsecond : (block.moveUp n).Leads t ⟨p.old + (above.length - n),
          p.new + (above.length - n)⟩ ⟨i, j⟩ :=
        .insert hblock (by simp only [Edit.moveUp]; omega) (by simp only; omega)
          (by simp only [Edit.moveUp]; omega) (by simp only; omega)
      have hthird : Edit.Leads t ⟨.keep, above.oldStart + above.length - n,
          block.newStart + block.newLength - n, n⟩ ⟨i, j⟩ q' :=
        .keep rfl (by simp only; omega) (by simp only; omega) (by simp only; omega)
          (by simp only; omega) hcommon
      exact .cons hfirst (.cons hsecond (leads_keepBelow (.cons hthird hafter)))

/-- An inserted block that starts with the first kept lines after it can be moved behind them, and
they are kept in front of it. -/
theorem leads_moveDown (h : Leads t (before.reverse ++ block :: below :: s) p r)
    (hbelow : below.kind = .keep) (hblock : block.kind = .insert) :
    Leads t ((keepAbove block below (t.roomBelow block below) before).reverse ++
      block.moveDown (t.roomBelow block below) ::
      below.dropFirst (t.roomBelow block below) :: s) p r := by
  apply leads_keepAbove
  refine h.replace fun o ho => ?_
  simp only [leads_cons_iff] at ho
  obtain ⟨q, hq, q', hq', hs⟩ := ho
  have hlength : block.newLength = block.length := by simp [Edit.newLength, hblock]
  have hbelowlen := t.roomBelow_le block below
  have hblocklen := t.roomBelow_le_newLength block below
  have hcommon : Common t.old below.oldStart t.new block.newStart (t.roomBelow block below) :=
    common_commonAfter _ _ _ _ _
  generalize t.roomBelow block below = n at *
  cases hq with
  | keep kind => simp [hblock] at kind
  | delete kind => simp [hblock] at kind
  | insert _ newStart old new size =>
    cases hq' with
    | delete kind => simp [hbelow] at kind
    | insert kind => simp [hbelow] at kind
    | keep _ oldStart' newStart' old' new' common' =>
      have hfirst : Edit.Leads t ⟨.keep, below.oldStart, block.newStart, n⟩ o
          ⟨o.old + n, o.new + n⟩ := by
        rw [oldStart', newStart, old] at hcommon
        exact .keep rfl (oldStart'.trans old) newStart rfl rfl hcommon
      have hsecond : (block.moveDown n).Leads t ⟨o.old + n, o.new + n⟩
          ⟨q.old + n, q.new + n⟩ := by
        -- The lines behind which the block moves are lines of the new list.
        have hsize : q.new + n ≤ t.new.size := by
          by_cases hzero : n = 0
          · simpa [hzero] using size
          · have hbound := common'.newBound (by omega)
            omega
        exact .insert hblock (by simp only [Edit.moveDown]; omega) (by simp only; omega)
          (by simp only [Edit.moveDown]; omega) hsize
      have hthird : (below.dropFirst n).Leads t ⟨q.old + n, q.new + n⟩ q' := by
        have hsplit : below.length = n + (below.length - n) := by omega
        rw [hsplit] at common'
        exact .keep hbelow (congrArg (· + n) oldStart') (congrArg (· + n) newStart')
          (by simp only [Edit.dropFirst, Edit.dropLast, Edit.moveDown]; omega)
          (by simp only [Edit.dropFirst, Edit.dropLast, Edit.moveDown]; omega)
          (common_add_iff.1 common').2
      exact .cons hfirst (.cons hsecond (.cons hthird hs))

/-! ## Moving one block -/

theorem kind_shiftUp (t : Texts) (before : List Edit) (block : Edit) (after : List Edit) :
    (t.shiftUp before block after).block.kind = block.kind := by
  fun_induction shiftUp t before block after with
  | case1 => rfl
  | case2 _ _ _ _ _ _ _ ih => exact ih
  | case3 => rfl
  | case4 _ _ _ _ _ _ _ ih => exact ih
  | case5 _ _ _ _ _ hkind ih => exact ih.trans hkind
  | case6 _ _ _ _ _ _ ih => exact ih

theorem leads_shiftUp (h : Leads t (before.reverse ++ block :: after) p r)
    (hkind : block.kind ≠ .keep) : Leads t (t.shiftUp before block after).script p r := by
  fun_induction shiftUp t before block after with
  | case1 => exact h
  | case2 block after above rest _ _ hempty ih =>
    -- Kept lines that are none are dropped.
    simp only [List.reverse_cons, List.append_assoc, List.singleton_append] at h
    exact ih (h.replace fun q hq => hq.of_cons_empty hempty) hkind
  | case3 => exact h
  | case4 block after above rest hkeep hroom n ih =>
    -- The block passes the last kept lines in front of it.
    simp only [List.reverse_cons, List.append_assoc, List.singleton_append] at h
    refine ih (Leads.dropEmptyHead_reverse ?_) hkind
    simp only [List.reverse_cons, List.append_assoc, List.singleton_append]
    have hle := t.roomAbove_le_newLength above block
    have hinsert := kind_of_newLength hkind (by omega)
    exact h.replace fun q hq => leads_moveUp hq hkeep hinsert
  | case5 block after above rest hkeep hsame ih =>
    -- The block joins the one in front of it.
    simp only [List.reverse_cons, List.append_assoc, List.singleton_append] at h
    exact ih (h.replace fun q hq => hq.join hsame) hkeep
  | case6 block after above rest hkeep hdiff ih =>
    -- The block changes places with the one in front of it.
    simp only [List.reverse_cons, List.append_assoc, List.singleton_append] at h
    exact ih (h.replace fun q hq => hq.swap hkeep hkind hdiff) hkind

theorem leads_shiftDown (h : Leads t (before.reverse ++ block :: after) p r)
    (hkind : block.kind ≠ .keep) : Leads t (t.shiftDown before block after).script p r := by
  fun_induction shiftDown t before block after with
  | case1 => exact h
  | case2 before block below rest _ _ hempty ih =>
    refine ih (h.replace fun q hq => ?_) hkind
    exact Leads.replace (u := [block]) hq fun o ho => ho.of_cons_empty hempty
  | case3 => exact h
  | case4 before block below rest hkeep hroom n ih =>
    -- The block passes the first kept lines after it.
    have hle := t.roomBelow_le_newLength block below
    have hmoved := leads_moveDown h hkeep (kind_of_newLength hkind (by omega))
    refine ih (hmoved.replace fun q hq => ?_) hkind
    exact Leads.replace (u := [block.moveDown n]) hq fun o ho => ho.dropEmptyHead
  | case5 before block below rest hkeep hsame ih =>
    exact ih (h.replace fun q hq => hq.join hsame.symm) hkind
  | case6 before block below rest hkeep hdiff ih =>
    refine ih ?_ hkind
    simp only [List.reverse_cons, List.append_assoc, List.singleton_append]
    exact h.replace fun q hq => hq.swap hkind hkeep (Ne.symm hdiff)

/-! ## Moving all blocks -/

variable {kind : EditKind}

theorem leads_shiftAll {n : Nat} (h : Leads t (before.reverse ++ after) p r)
    (hkind : kind ≠ .keep) : Leads t (t.shiftAll kind n before after) p r := by
  fun_induction shiftAll t kind n before after with
  | case1 n before block after hblock up down ih =>
    have hup : Leads t up.script p r := leads_shiftUp h (hblock ▸ hkind)
    have hupkind : up.block.kind = kind := (kind_shiftUp ..).trans hblock
    have hdown : Leads t down.script p r := leads_shiftDown hup (hupkind ▸ hkind)
    refine ih ?_
    simpa [Focus.script] using hdown
  | case2 n before block after hblock ih =>
    refine ih ?_
    simpa using h
  | case3 => exact h

theorem leads_shift (h : Leads t s p r) (hkind : kind ≠ .keep) :
    Leads t (t.shift kind s) p r := by
  have hs : Leads t (([] : Script).reverse ++ s) p r := h
  exact leads_shiftAll hs hkind

/-- The blocks of a script can be moved without changing where it leads. -/
theorem leads_compact (h : Leads t s p r) : Leads t (t.compact s) p r :=
  leads_shift (leads_shift h (by decide)) (by decide)

theorem shiftAll_of_forall_ne {n : Nat} (h : ∀ e ∈ after, e.kind ≠ kind) :
    t.shiftAll kind n before after = before.reverse ++ after := by
  fun_induction shiftAll t kind n before after with
  | case1 n before block after hblock => exact absurd hblock (h block List.mem_cons_self)
  | case2 n before block after hblock ih =>
    rw [ih fun e he => h e (List.mem_cons_of_mem _ he)]
    simp
  | case3 => rfl

/-- Kept blocks stay as they are. -/
theorem compact_of_forall_keep (h : ∀ e ∈ s, e.kind = .keep) : t.compact s = s := by
  have hshift : ∀ kind, kind ≠ .keep → t.shift kind s = s := fun kind hkind =>
    shiftAll_of_forall_ne fun e he => by
      rw [h e he]
      exact hkind.symm
  rw [compact, hshift .delete (by decide), hshift .insert (by decide)]

end Texts

end ClusterFirewall.Diff
