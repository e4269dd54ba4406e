/-!
# Sorted maps

Finite maps held as lists of bindings in strictly increasing key order. The snapshot store, the
address set cache and the objects of a stored JSON value are maps of this kind, because their order
can be seen: in the file that is written, in the rules that are rendered, in the drift that is
reported first.

Main statements: `get?_insert`, `get?_insertMany` and `get?_erase` say what the operations do to the
look-up, `ext_get?` that the look-up determines the map, and `mem_sortUnique` with
`sortUnique_congr` that a sorted list depends on the elements alone.
-/

namespace ClusterFirewall

/-- A finite map whose bindings are listed in strictly increasing key order. -/
structure SortedMap (κ β : Type) [Ord κ] where
  /-- The bindings, least key first. -/
  entries : List (κ × β)
  /-- No key occurs twice, and the keys increase. -/
  sorted : entries.Pairwise fun a b => compare a.1 b.1 = .lt

namespace SortedMap

variable {κ β : Type}

/-! ## Operations on the list of bindings -/

/-- Puts a binding at its place, replacing the binding of an equal key. -/
def insertEntry [Ord κ] (k : κ) (v : β) : List (κ × β) → List (κ × β)
  | [] => [(k, v)]
  | e :: rest =>
    match compare k e.1 with
    | .lt => (k, v) :: e :: rest
    | .eq => (k, v) :: rest
    | .gt => e :: insertEntry k v rest

theorem mem_insertEntry [Ord κ] {k : κ} {v : β} {a : κ × β} {l : List (κ × β)}
    (h : a ∈ insertEntry k v l) : a = (k, v) ∨ a ∈ l := by
  induction l with
  | nil => simpa [insertEntry] using h
  | cons e rest ih =>
    unfold insertEntry at h
    split at h <;> simp only [List.mem_cons] at h ⊢
    · exact h
    · exact h.imp_right .inr
    · rcases h with h | h
      · exact .inr (.inl h)
      · exact (ih h).imp_right .inr

variable [Ord κ]

theorem pairwise_insertEntry [Std.TransOrd κ] {k : κ} {v : β} {l : List (κ × β)}
    (h : l.Pairwise fun a b => compare a.1 b.1 = .lt) :
    (insertEntry k v l).Pairwise fun a b => compare a.1 b.1 = .lt := by
  induction l with
  | nil => simp [insertEntry]
  | cons e rest ih =>
    obtain ⟨he, hrest⟩ := List.pairwise_cons.1 h
    unfold insertEntry
    split
    next hlt =>
      refine List.pairwise_cons.2 ⟨fun a ha => ?_, h⟩
      rcases List.mem_cons.1 ha with rfl | ha
      · exact hlt
      · exact Std.TransCmp.lt_trans hlt (he a ha)
    next heq =>
      refine List.pairwise_cons.2 ⟨fun a ha => ?_, hrest⟩
      exact Std.TransCmp.lt_of_eq_of_lt heq (he a ha)
    next hgt =>
      refine List.pairwise_cons.2 ⟨fun a ha => ?_, ih hrest⟩
      rcases mem_insertEntry ha with rfl | ha
      · exact Std.OrientedCmp.lt_of_gt hgt
      · exact he a ha

/-! ## Maps -/

/-- The map without bindings. -/
def empty : SortedMap κ β := ⟨[], .nil⟩

instance : EmptyCollection (SortedMap κ β) := ⟨empty⟩

instance : Inhabited (SortedMap κ β) := ⟨empty⟩

instance [DecidableEq κ] [DecidableEq β] : DecidableEq (SortedMap κ β) := fun a b =>
  decidable_of_iff (a.entries = b.entries) (by cases a; cases b; simp)

/-- The value bound to a key. -/
def get? (m : SortedMap κ β) (k : κ) : Option β :=
  (m.entries.find? fun e => compare k e.1 == .eq).map (·.2)

/-- Whether a key is bound. -/
def contains (m : SortedMap κ β) (k : κ) : Bool := (m.get? k).isSome

/-- Binds a key, replacing what it was bound to. -/
def insert [Std.TransOrd κ] (m : SortedMap κ β) (k : κ) (v : β) : SortedMap κ β :=
  ⟨insertEntry k v m.entries, pairwise_insertEntry m.sorted⟩

/-- Keeps the bindings that pass a test. -/
def filter (m : SortedMap κ β) (p : κ → β → Bool) : SortedMap κ β :=
  ⟨m.entries.filter fun e => p e.1 e.2, m.sorted.filter _⟩

/-- Drops the binding of a key. -/
def erase (m : SortedMap κ β) (k : κ) : SortedMap κ β := m.filter fun k' _ => compare k k' != .eq

/-- The bound keys in increasing order. -/
def keys (m : SortedMap κ β) : List κ := m.entries.map (·.1)

/-- The bound values, in the order of their keys. -/
def values (m : SortedMap κ β) : List β := m.entries.map (·.2)

/-- The number of bindings. -/
def size (m : SortedMap κ β) : Nat := m.entries.length

/-- Whether there is no binding. -/
def isEmpty (m : SortedMap κ β) : Bool := m.entries.isEmpty

/-- Adds bindings one after the other, so that of equal keys the last one stays. -/
def insertMany [Std.TransOrd κ] (m : SortedMap κ β) (bindings : List (κ × β)) : SortedMap κ β :=
  bindings.foldl (fun acc e => acc.insert e.1 e.2) m

/-- The map of a list of bindings; of equal keys the last one stays. -/
def ofList [Std.TransOrd κ] (bindings : List (κ × β)) : SortedMap κ β :=
  empty.insertMany bindings

/-! ## The look-up as the view of a map -/

@[ext] theorem ext {a b : SortedMap κ β} (h : a.entries = b.entries) : a = b := by
  cases a; cases b; simp_all

@[simp] theorem entries_empty : (∅ : SortedMap κ β).entries = [] := rfl

@[simp] theorem get?_empty (k : κ) : (∅ : SortedMap κ β).get? k = none := rfl

theorem keys_pairwise (m : SortedMap κ β) : m.keys.Pairwise fun a b => compare a b = .lt :=
  List.pairwise_map.2 m.sorted

private theorem find?_insertEntry [Std.TransOrd κ] [Std.LawfulEqOrd κ] [DecidableEq κ]
    (k k' : κ) (v : β) (l : List (κ × β)) :
    ((insertEntry k v l).find? fun e => compare k' e.1 == .eq).map (·.2) =
      if k' = k then some v else (l.find? fun e => compare k' e.1 == .eq).map (·.2) := by
  induction l with
  | nil => by_cases h : k' = k <;> simp [insertEntry, h]
  | cons e rest ih =>
    unfold insertEntry
    split
    next => by_cases h : k' = k <;> simp [h]
    next heq =>
      have hk : k = e.1 := Std.LawfulEqCmp.eq_of_compare heq
      by_cases h : k' = k
      · simp [h]
      · have h' : k' ≠ e.1 := hk ▸ h
        simp [h, h']
    next hgt =>
      by_cases h : k' = e.1
      · have hne : k' ≠ k := by
          rintro rfl
          simp [h] at hgt
        subst h
        simp [hne]
      · simp [h, ih]

@[simp] theorem get?_insert [Std.TransOrd κ] [Std.LawfulEqOrd κ] [DecidableEq κ]
    (m : SortedMap κ β) (k k' : κ) (v : β) :
    (m.insert k v).get? k' = if k' = k then some v else m.get? k' :=
  find?_insertEntry k k' v m.entries

/-- A binding of the list is what the look-up finds. -/
theorem get?_eq_some_iff [Std.TransOrd κ] [Std.LawfulEqOrd κ] {m : SortedMap κ β} {k : κ} {v : β} :
    m.get? k = some v ↔ (k, v) ∈ m.entries := by
  unfold get?
  obtain ⟨l, hl⟩ := m
  induction l with
  | nil => simp
  | cons e rest ih =>
    obtain ⟨he, hrest⟩ := List.pairwise_cons.1 hl
    have ih := ih hrest
    obtain ⟨k', v'⟩ := e
    by_cases h : compare k k' = .eq
    · have hk : k = k' := Std.LawfulEqCmp.eq_of_compare h
      subst hk
      have hnot : (k, v) ∉ rest := fun hmem => by simpa using he _ hmem
      simp [hnot, eq_comm]
    · have hk : k ≠ k' := fun hk => h (by simp [hk])
      simpa [h, hk] using ih

@[simp] theorem get?_erase [Std.TransOrd κ] [Std.LawfulEqOrd κ] [DecidableEq κ]
    (m : SortedMap κ β) (k k' : κ) :
    (m.erase k).get? k' = if k' = k then none else m.get? k' := by
  by_cases h : k' = k
  · subst h
    rw [if_pos rfl, Option.eq_none_iff_forall_ne_some]
    intro v hv
    have := get?_eq_some_iff.1 hv
    simp [erase, filter] at this
  · rw [if_neg h]
    apply Option.ext
    intro v
    have hne : compare k k' ≠ .eq := fun he => h (Std.LawfulEqCmp.eq_of_compare he).symm
    rw [get?_eq_some_iff, get?_eq_some_iff]
    simp [erase, filter, hne]

/-- The keys are what the look-up finds something for. -/
theorem mem_keys_iff [Std.TransOrd κ] [Std.LawfulEqOrd κ] {m : SortedMap κ β} {k : κ} :
    k ∈ m.keys ↔ (m.get? k).isSome := by
  rw [Option.isSome_iff_exists, keys, List.mem_map]
  constructor
  · rintro ⟨⟨k', v⟩, hmem, rfl⟩
    exact ⟨v, get?_eq_some_iff.2 hmem⟩
  · rintro ⟨v, hv⟩
    exact ⟨(k, v), get?_eq_some_iff.1 hv, rfl⟩

/-- Of the bindings added for a key the last one is found, and what was there if there is none. -/
theorem get?_insertMany [Std.TransOrd κ] [Std.LawfulEqOrd κ] [DecidableEq κ]
    (m : SortedMap κ β) (bindings : List (κ × β)) (k : κ) :
    (m.insertMany bindings).get? k =
      ((bindings.reverse.find? fun e => decide (e.1 = k)).map (·.2)).or (m.get? k) := by
  induction bindings generalizing m with
  | nil => simp [insertMany]
  | cons e rest ih =>
    have hstep : m.insertMany (e :: rest) = (m.insert e.1 e.2).insertMany rest := rfl
    rw [hstep, ih, List.reverse_cons, List.find?_append, get?_insert]
    by_cases h : k = e.1
    · subst h
      cases rest.reverse.find? fun e' => decide (e'.1 = e.1) <;> simp
    · have h' : ¬ e.1 = k := fun he => h he.symm
      cases rest.reverse.find? fun e' => decide (e'.1 = k) <;> simp [h, h']

/-- Two maps with the same look-up are equal. -/
theorem ext_get? [Std.TransOrd κ] [Std.LawfulEqOrd κ] {a b : SortedMap κ β}
    (h : ∀ k, a.get? k = b.get? k) : a = b := by
  have hmem : ∀ e, e ∈ a.entries ↔ e ∈ b.entries := fun e => by
    rw [← get?_eq_some_iff (k := e.1), ← get?_eq_some_iff (k := e.1), h]
  apply ext
  obtain ⟨la, ha⟩ := a
  obtain ⟨lb, hb⟩ := b
  simp only at hmem ⊢
  clear h
  induction la generalizing lb with
  | nil =>
    cases lb with
    | nil => rfl
    | cons e rest => exact absurd ((hmem e).2 (by simp)) (by simp)
  | cons e rest ih =>
    cases lb with
    | nil => exact absurd ((hmem e).1 (by simp)) (by simp)
    | cons e' rest' =>
      obtain ⟨he, hrest⟩ := List.pairwise_cons.1 ha
      obtain ⟨he', hrest'⟩ := List.pairwise_cons.1 hb
      have heq : e = e' := by
        rcases List.mem_cons.1 ((hmem e).1 (by simp)) with h | h
        · exact h
        · rcases List.mem_cons.1 ((hmem e').2 (by simp)) with h' | h'
          · exact h'.symm
          · have h1 := he' e h
            have h2 := he e' h'
            exact absurd (Std.TransCmp.lt_trans h1 h2) (by simp)
      subst heq
      congr 1
      refine ih hrest rest' hrest' fun f => ⟨fun hf => ?_, fun hf => ?_⟩
      · rcases List.mem_cons.1 ((hmem f).1 (List.mem_cons_of_mem _ hf)) with h | h
        · subst h; exact absurd (he _ hf) (by simp)
        · exact h
      · rcases List.mem_cons.1 ((hmem f).2 (List.mem_cons_of_mem _ hf)) with h | h
        · subst h; exact absurd (he' _ hf) (by simp)
        · exact h

end SortedMap

/-! ## Sorted lists without repetition -/

/-- The elements of a list in increasing order, each once. -/
def sortUnique {α : Type} [Ord α] [Std.TransOrd α] (xs : List α) : List α :=
  (SortedMap.ofList (xs.map fun x => (x, ()))).keys

theorem sortUnique_pairwise {α : Type} [Ord α] [Std.TransOrd α] (xs : List α) :
    (sortUnique xs).Pairwise fun a b => compare a b = .lt :=
  SortedMap.keys_pairwise _

theorem mem_sortUnique {α : Type} [Ord α] [Std.TransOrd α] [Std.LawfulEqOrd α] [DecidableEq α]
    {xs : List α} {x : α} : x ∈ sortUnique xs ↔ x ∈ xs := by
  rw [sortUnique, SortedMap.mem_keys_iff, SortedMap.ofList, SortedMap.get?_insertMany]
  simp [SortedMap.empty, SortedMap.get?]

/-- Sorting forgets order and repetition, and nothing else. -/
theorem sortUnique_congr {α : Type} [Ord α] [Std.TransOrd α] [Std.LawfulEqOrd α] [DecidableEq α]
    {xs ys : List α} (h : ∀ x, x ∈ xs ↔ x ∈ ys) : sortUnique xs = sortUnique ys := by
  have hmap : SortedMap.ofList (xs.map fun x => (x, ())) =
      SortedMap.ofList (ys.map fun y => (y, ())) := by
    apply SortedMap.ext_get?
    intro k
    have hkeys : k ∈ sortUnique xs ↔ k ∈ sortUnique ys := by
      rw [mem_sortUnique, mem_sortUnique, h]
    rw [sortUnique, sortUnique, SortedMap.mem_keys_iff, SortedMap.mem_keys_iff] at hkeys
    -- The values are all the same, so that the look-ups agree as soon as the keys do.
    cases hx : (SortedMap.ofList (xs.map fun x => (x, ()))).get? k <;>
      cases hy : (SortedMap.ofList (ys.map fun y => (y, ()))).get? k <;> simp_all
  rw [sortUnique, sortUnique, hmap]

end ClusterFirewall
