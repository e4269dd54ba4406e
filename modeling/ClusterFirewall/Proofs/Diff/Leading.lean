import ClusterFirewall.Diff.Compact

/-!
# Where scripts lead

A script is a way through the grid of two lists: its blocks lead from place to place, and a block
that is kept holds the same lines in both lists. Of a deleted block only the start in the old list
counts, and of an inserted one only the start in the new list, since the other one is not kept up to
date when blocks are moved.

- **Blocks**: `Edit.Leads` says what one block does, `Leads` what a script does.
- **Common lines**: what the two searches for common lines find are lines that are common.
- **Shortest scripts**: `leads_shortestScript`, the script of two lists leads from their start to
  their end. The searches for the point where a grid is cut do not matter for this: whatever they
  find, the script of each half leads through it.
-/

namespace ClusterFirewall.Diff

/-- A place between the lines of two lists. -/
@[ext]
structure Place where
  /-- The number of old lines before it. -/
  old : Nat
  /-- The number of new lines before it. -/
  new : Nat

/-- The `n` lines from two places on are the same. -/
def Common (xs : Array String) (i : Nat) (ys : Array String) (j n : Nat) : Prop :=
  ∀ k < n, ∃ line, xs[i + k]? = some line ∧ ys[j + k]? = some line

/-! ## Blocks -/

/-- A block leads from a place to the one after its lines. -/
inductive Edit.Leads (t : Texts) (e : Edit) (p q : Place) : Prop where
  /-- Kept lines are the same in both lists. -/
  | keep (kind : e.kind = .keep) (oldStart : e.oldStart = p.old) (newStart : e.newStart = p.new)
      (old : q.old = p.old + e.length) (new : q.new = p.new + e.length)
      (common : Common t.old p.old t.new p.new e.length)
  /-- Deleted lines are lines of the old list. -/
  | delete (kind : e.kind = .delete) (oldStart : e.oldStart = p.old)
      (old : q.old = p.old + e.length) (new : q.new = p.new) (size : q.old ≤ t.old.size)
  /-- Inserted lines are lines of the new list. -/
  | insert (kind : e.kind = .insert) (newStart : e.newStart = p.new)
      (old : q.old = p.old) (new : q.new = p.new + e.length) (size : q.new ≤ t.new.size)

/-- A script leads from a place to another one, block by block. -/
inductive Leads (t : Texts) : Script → Place → Place → Prop where
  | nil (p : Place) : Leads t [] p p
  | cons {e : Edit} {s : Script} {p q r : Place} (head : e.Leads t p q) (tail : Leads t s q r) :
      Leads t (e :: s) p r

section Leading

variable {t : Texts} {e : Edit} {s s' : Script} {p q r : Place}

theorem leads_cons_iff : Leads t (e :: s) p r ↔ ∃ q, e.Leads t p q ∧ Leads t s q r := by
  constructor
  · rintro (_ | ⟨head, tail⟩)
    exact ⟨_, head, tail⟩
  · rintro ⟨_, head, tail⟩
    exact .cons head tail

theorem leads_append_iff : Leads t (s ++ s') p r ↔ ∃ q, Leads t s p q ∧ Leads t s' q r := by
  induction s generalizing p with
  | nil =>
    constructor
    · intro h
      exact ⟨p, .nil p, h⟩
    · rintro ⟨q, ⟨⟩, h⟩
      exact h
  | cons e s ih =>
    simp only [List.cons_append, leads_cons_iff, ih]
    constructor
    · rintro ⟨q, he, q', hs, hs'⟩
      exact ⟨q', ⟨q, he, hs⟩, hs'⟩
    · rintro ⟨q', ⟨q, he, hs⟩, hs'⟩
      exact ⟨q, he, q', hs, hs'⟩

theorem Leads.append (h : Leads t s p q) (h' : Leads t s' q r) : Leads t (s ++ s') p r :=
  leads_append_iff.2 ⟨q, h, h'⟩

/-- A block alone leads where it leads as a script. -/
theorem leads_single (h : e.Leads t p q) : Leads t [e] p q := .cons h (.nil q)

/-- An end of a script can be replaced by one that leads from and to the same places. -/
theorem Leads.replace {u : Script} (h : Leads t (u ++ s) p r)
    (hs : ∀ q, Leads t s q r → Leads t s' q r) : Leads t (u ++ s') p r := by
  obtain ⟨q, hu, hq⟩ := leads_append_iff.1 h
  exact hu.append (hs q hq)

theorem Edit.Leads.eq_of_empty (h : e.Leads t p q) (hlength : e.length = 0) : q = p := by
  cases h <;> ext <;> omega

theorem Leads.of_cons_empty (h : Leads t (e :: s) p r) (hlength : e.length = 0) :
    Leads t s p r := by
  obtain ⟨q, he, hs⟩ := leads_cons_iff.1 h
  rwa [he.eq_of_empty hlength] at hs

end Leading

/-! ## Common lines -/

section CommonLines

variable {xs ys : Array String} {i j m n : Nat}

theorem common_zero : Common xs i ys j 0 := by
  intro k hk
  exact absurd hk (Nat.not_lt_zero k)

theorem common_add_iff :
    Common xs i ys j (m + n) ↔ Common xs i ys j m ∧ Common xs (i + m) ys (j + m) n := by
  constructor
  · intro h
    refine ⟨fun k hk => h k (by omega), fun k hk => ?_⟩
    simpa only [Nat.add_assoc] using h (m + k) (by omega)
  · rintro ⟨hfirst, hsecond⟩ k hk
    by_cases hkm : k < m
    · exact hfirst k hkm
    · obtain ⟨l, rfl⟩ := Nat.exists_eq_add_of_le (Nat.le_of_not_lt hkm)
      simpa only [Nat.add_assoc] using hsecond l (by omega)

theorem common_one {line : String} (hx : xs[i]? = some line) (hy : ys[j]? = some line) :
    Common xs i ys j 1 := by
  intro k hk
  obtain rfl : k = 0 := by omega
  exact ⟨line, hx, hy⟩

theorem Common.oldBound (h : Common xs i ys j n) (hn : n ≠ 0) : i + n ≤ xs.size := by
  obtain ⟨line, hx, -⟩ := h (n - 1) (by omega)
  have hlt := (Array.getElem?_eq_some_iff.1 hx).1
  omega

theorem Common.newBound (h : Common xs i ys j n) (hn : n ≠ 0) : j + n ≤ ys.size := by
  obtain ⟨line, -, hy⟩ := h (n - 1) (by omega)
  have hlt := (Array.getElem?_eq_some_iff.1 hy).1
  omega

theorem common_commonAfter (xs : Array String) (i : Nat) (ys : Array String) (j n : Nat) :
    Common xs i ys j (commonAfter xs i ys j n) := by
  fun_induction commonAfter xs i ys j n with
  | case1 => exact common_zero
  | case2 i j n x hy hx ih =>
    rw [Nat.add_comm]
    exact common_add_iff.2 ⟨common_one hx hy, ih⟩
  | case3 => exact common_zero
  | case4 => exact common_zero

/-- The lines that two places have in common before them start there as many lines earlier. -/
theorem exists_common_commonBefore (xs : Array String) (i : Nat) (ys : Array String) (j n : Nat) :
    ∃ i' j', i' + commonBefore xs i ys j n = i ∧ j' + commonBefore xs i ys j n = j ∧
      Common xs i' ys j' (commonBefore xs i ys j n) := by
  fun_induction commonBefore xs i ys j n with
  | case1 i ys j n x hy hx ih =>
    obtain ⟨i', j', hi, hj, hcommon⟩ := ih
    refine ⟨i', j', by omega, by omega, common_add_iff.2 ⟨hcommon, ?_⟩⟩
    rw [hi, hj]
    exact common_one hx hy
  | case2 => exact ⟨_, _, Nat.add_zero _, Nat.add_zero _, common_zero⟩
  | case3 => exact ⟨_, _, Nat.add_zero _, Nat.add_zero _, common_zero⟩
  | case4 => exact ⟨_, _, Nat.add_zero _, Nat.add_zero _, common_zero⟩

end CommonLines

/-! ## Shortest scripts -/

namespace Grid

theorem leads_keeping {t : Texts} {i j n : Nat} (h : Common t.old i t.new j n) :
    Leads t (keeping i j n) ⟨i, j⟩ ⟨i + n, j + n⟩ := by
  unfold keeping
  split
  · rename_i hn
    subst hn
    exact .nil _
  · exact leads_single (.keep rfl rfl rfl rfl rfl h)

/-- The lists that a grid is about. -/
def texts (g : Grid) : Texts := ⟨g.old, g.new⟩

/-- The place where a grid starts. -/
def start (g : Grid) : Place := ⟨g.oldStart, g.newStart⟩

/-- The place where a grid ends. -/
def stop (g : Grid) : Place := ⟨g.oldStart + g.width, g.newStart + g.height⟩

/-- A grid lies within its lists. -/
structure Within (g : Grid) : Prop where
  old : g.oldStart + g.width ≤ g.old.size
  new : g.newStart + g.height ≤ g.new.size

variable {g : Grid}

theorem commonStart_le (g : Grid) : g.commonStart ≤ g.width ∧ g.commonStart ≤ g.height := by
  have h : g.commonStart ≤ min g.width g.height := commonAfter_le ..
  omega

theorem commonEnd_le (g : Grid) : g.commonEnd ≤ g.width ∧ g.commonEnd ≤ g.height := by
  have h : g.commonEnd ≤ min g.width g.height := commonBefore_le ..
  omega

theorem leads_commonStart (g : Grid) :
    Leads g.texts (keeping g.oldStart g.newStart g.commonStart) g.start
      (g.dropStart g.commonStart).start :=
  leads_keeping (common_commonAfter _ _ _ _ _)

theorem leads_commonEnd (g : Grid) :
    Leads g.texts
      (keeping (g.oldStart + (g.width - g.commonEnd)) (g.newStart + (g.height - g.commonEnd))
        g.commonEnd) (g.dropEnd g.commonEnd).stop g.stop := by
  have hle := g.commonEnd_le
  obtain ⟨i, j, hi, hj, hcommon⟩ : ∃ i j, i + g.commonEnd = g.oldStart + g.width ∧
      j + g.commonEnd = g.newStart + g.height ∧ Common g.old i g.new j g.commonEnd :=
    exists_common_commonBefore _ _ _ _ _
  -- The common lines start where the rest of the grid ends.
  obtain rfl : i = g.oldStart + (g.width - g.commonEnd) := by omega
  obtain rfl : j = g.newStart + (g.height - g.commonEnd) := by omega
  have hleads : Leads g.texts _ _ _ := leads_keeping hcommon
  rw [hi, hj] at hleads
  exact hleads

theorem stop_dropStart {n : Nat} (hwidth : n ≤ g.width) (hheight : n ≤ g.height) :
    (g.dropStart n).stop = g.stop := by
  ext
  · show g.oldStart + n + (g.width - n) = g.oldStart + g.width
    omega
  · show g.newStart + n + (g.height - n) = g.newStart + g.height
    omega

theorem Within.core (h : g.Within) : g.core.Within := by
  obtain ⟨hold, hnew⟩ := h
  have hstart := g.commonStart_le
  constructor
  · simp only [Grid.core, dropStart, dropEnd]
    omega
  · simp only [Grid.core, dropStart, dropEnd]
    omega

theorem Within.before (h : g.Within) {x y : Nat} (hx : x ≤ g.width) (hy : y ≤ g.height) :
    (g.before x y).Within where
  old := Nat.le_trans (Nat.add_le_add_left hx _) h.old
  new := Nat.le_trans (Nat.add_le_add_left hy _) h.new

theorem Within.after (h : g.Within) {x y : Nat} (hx : x ≤ g.width) (hy : y ≤ g.height) :
    (g.after x y).Within := by
  obtain ⟨hold, hnew⟩ := h
  constructor
  · show g.oldStart + x + (g.width - x) ≤ g.old.size
    omega
  · show g.newStart + y + (g.height - y) ≤ g.new.size
    omega

theorem stop_after {x y : Nat} (hx : x ≤ g.width) (hy : y ≤ g.height) :
    (g.after x y).stop = g.stop := by
  ext
  · show g.oldStart + x + (g.width - x) = g.oldStart + g.width
    omega
  · show g.newStart + y + (g.height - y) = g.newStart + g.height
    omega

/-- Deleting the old part leads along one side of a grid. -/
theorem leads_delete (h : g.Within) (j : Nat) :
    Edit.Leads g.texts ⟨.delete, g.oldStart, j, g.width⟩ g.start
      ⟨g.oldStart + g.width, g.newStart⟩ :=
  .delete rfl rfl rfl rfl h.old

/-- Inserting the new part leads along the other side. -/
theorem leads_insert (h : g.Within) (i k : Nat) :
    Edit.Leads g.texts ⟨.insert, i, g.newStart, g.height⟩ ⟨k, g.newStart⟩
      ⟨k, g.newStart + g.height⟩ :=
  .insert rfl rfl rfl rfl h.new

theorem stop_of_no_height (h : g.height = 0) : g.stop = ⟨g.oldStart + g.width, g.newStart⟩ := by
  simp [stop, h]

theorem stop_of_no_width (h : g.width = 0) : g.stop = ⟨g.oldStart, g.newStart + g.height⟩ := by
  simp [stop, h]

theorem leads_replaced (h : g.Within) : Leads g.texts g.replaced g.start g.stop :=
  .cons (leads_delete h _) (leads_single (leads_insert h _ _))

/-- The script of a grid leads through it. The induction follows the cuts. -/
theorem leads_script (h : g.Within) : Leads g.texts g.script g.start g.stop := by
  fun_induction script g with
  | case1 g ihbefore ihafter =>
    have hcore := h.core
    have hstop := stop_dropStart g.commonStart_le.1 g.commonStart_le.2
    have hend := leads_commonEnd (g.dropStart g.commonStart)
    rw [hstop] at hend
    refine (g.leads_commonStart.append ?core).append hend
    case core =>
      -- A core without one of its sides is crossed by one block. Any other core is cut in two, or
      -- it is replaced as a whole if the searches do not meet.
      show Leads g.core.texts _ g.core.start g.core.stop
      by_cases hheight : g.core.height = 0
      · by_cases hwidth : g.core.width = 0
        · rw [if_pos ⟨hwidth, hheight⟩, stop_of_no_height hheight, hwidth]
          exact .nil _
        · rw [if_neg (fun h => hwidth h.1), if_pos hheight, stop_of_no_height hheight]
          exact leads_single (leads_delete hcore _)
      · rw [if_neg (fun h => hheight h.2), if_neg hheight]
        by_cases hwidth : g.core.width = 0
        · rw [if_pos hwidth, stop_of_no_width hwidth]
          exact leads_single (leads_insert hcore _ _)
        · rw [if_neg hwidth]
          split
          · rename_i x y hcut
            obtain ⟨hx, hy, -, -⟩ := cut?_bounds hcut
            have hafter := ihafter x y hcut (hcore.after hx hy)
            rw [stop_after hx hy] at hafter
            exact (ihbefore x y hcut (hcore.before hx hy)).append hafter
          · exact leads_replaced hcore

end Grid

/-- The script between two lists leads from their start to their end. -/
theorem leads_shortestScript (old new : Array String) :
    Leads ⟨old, new⟩ (shortestScript old new) ⟨0, 0⟩ ⟨old.size, new.size⟩ := by
  have h : (⟨old, new, 0, old.size, 0, new.size⟩ : Grid).Within := ⟨by simp, by simp⟩
  have hleads := Grid.leads_script h
  simpa [Grid.start, Grid.stop, Grid.texts, shortestScript] using hleads

end ClusterFirewall.Diff
