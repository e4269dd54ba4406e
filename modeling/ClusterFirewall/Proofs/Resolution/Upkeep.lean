import ClusterFirewall.Proofs.Resolution.Disturbance
import ClusterFirewall.Proofs.SortedMap
import Mathlib.Data.List.Induction

/-!
# The upkeep of the cache

The cache keeps two maps in step: the names that each selector was answered with, and the sets that
these names mean. Sets are shared between selectors, so that writing one selector may change the
content of another one's set, and a set goes only when the last selector lets go of it.

What the cache should hold is said here without the two maps. The **history** of a cache is the list
of the steps that made it, the newest first. From it one reads the sets that a selector was given
last (`given?`) and all sets that were ever supplied (`supplied`). A cache **follows** what was read
if its maps say the same, and it is **tidy** if every set is somebody's. Inserting keeps the first,
pruning keeps the first and makes the second.

Main statement: `declared_and_answers_from_history`, what a cache holds after any sequence of steps.
-/

namespace ClusterFirewall

/-! ## Histories -/

/-- A step in the life of a cache. -/
inductive CacheStep where
  /-- Somebody writes to it. -/
  | write (w : CacheWrite)
  /-- It is made anew of a list of entries. -/
  | renew (entries : List CacheEntry)
  /-- A selector is asked for, and registered if that is asked too. -/
  | ask (s : Selector) (create : Bool)

namespace CacheStep

/-- The sets that a list of entries gives to a selector; the last entry counts. -/
def givenBy? (entries : List CacheEntry) (k : SelectorKey) : Option (List IpSet) :=
  (entries.reverse.find? fun e => decide (e.key = k)).map (·.sets)

/-- The sets that a selector was given last, unless it was removed since. -/
def given? : List CacheStep → SelectorKey → Option (List IpSet)
  | [], _ => none
  | .write (.update key sets) :: earlier, k => if k = key then some sets else given? earlier k
  | .write (.remove key) :: earlier, k => if k = key then none else given? earlier k
  | .write (.replaceAll entries) :: _, k => givenBy? entries k
  | .renew entries :: _, k => givenBy? entries k
  | .ask s create :: earlier, k =>
    if k = s.key ∧ create ∧ given? earlier s.key = none then some [.empty s.key.freshSetName]
    else given? earlier k

/-- The sets that a step supplies after a history, in order. -/
def supplies (earlier : List CacheStep) : CacheStep → List IpSet
  | .write (.update _ sets) => sets
  | .write (.remove _) => []
  | .write (.replaceAll entries) => entries.flatMap (·.sets)
  | .renew entries => entries.flatMap (·.sets)
  | .ask s create =>
    if create ∧ given? earlier s.key = none then [.empty s.key.freshSetName] else []

/-- All sets that were ever supplied, the newest first. -/
def supplied : List CacheStep → List IpSet
  | [] => []
  | step :: earlier => (step.supplies earlier).reverse ++ supplied earlier

end CacheStep

namespace ResolutionCache

/-- The cache after a step. -/
def after (c : ResolutionCache) : CacheStep → ResolutionCache
  | .write w => c.written w
  | .renew entries => ofEntries entries
  | .ask s create => (c.answer s create).2

/-! ## Following and tidiness -/

/-- The cache has the names of what every selector was given, it has a set for each of these names,
and every set that it has is the first of its name among the sets supplied. -/
structure Follows (c : ResolutionCache) (given : SelectorKey → Option (List IpSet))
    (supplied : List IpSet) : Prop where
  names : ∀ k, c.answers.get? k = (given k).map (·.map (·.name))
  bound : ∀ k sets, given k = some sets → ∀ s ∈ sets, (c.sets.get? s.name).isSome
  content : ∀ n s, c.sets.get? n = some s → supplied.find? (fun t => decide (t.name = n)) = some s

/-- Every set of the cache is referred to. -/
def Tidy (c : ResolutionCache) : Prop :=
  ∀ n s, c.sets.get? n = some s → c.isReferenced n = true

section Upkeep

variable {c : ResolutionCache} {given : SelectorKey → Option (List IpSet)} {supplied : List IpSet}

theorem isReferenced_iff {n : String} :
    c.isReferenced n = true ↔ ∃ k names, c.answers.get? k = some names ∧ n ∈ names := by
  simp only [isReferenced, List.any_eq_true, SortedMap.values, List.mem_map, List.contains_iff_mem]
  constructor
  · rintro ⟨-, ⟨⟨k, names⟩, hmem, rfl⟩, hn⟩
    exact ⟨k, names, SortedMap.get?_eq_some_iff.2 hmem, hn⟩
  · rintro ⟨k, names, hget, hn⟩
    exact ⟨names, ⟨(k, names), SortedMap.get?_eq_some_iff.1 hget, rfl⟩, hn⟩

theorem follows_empty (supplied : List IpSet) : Follows empty (fun _ => none) supplied where
  names := fun _ => rfl
  bound := by simp
  content := fun _ _ h => by cases h

theorem tidy_empty : Tidy empty := fun _ _ h => by cases h

theorem Follows.name_of_bound (h : c.Follows given supplied) {n : String} {s : IpSet}
    (hs : c.sets.get? n = some s) : n = s.name := by
  have hname := List.find?_some (h.content n s hs)
  exact (of_decide_eq_true hname).symm

/-! ### Inserting -/

theorem get?_answers_insert (c : ResolutionCache) (key k : SelectorKey) (sets : List IpSet) :
    (c.insert key sets).answers.get? k =
      if k = key then some (sets.map (·.name)) else c.answers.get? k :=
  SortedMap.get?_insert _ _ _ _

/-- Of the sets of a list the last one of each name is put in. -/
theorem get?_sets_insert (c : ResolutionCache) (key : SelectorKey) (sets : List IpSet)
    (n : String) :
    (c.insert key sets).sets.get? n =
      (sets.reverse.find? fun s => decide (s.name = n)).or (c.sets.get? n) := by
  rw [insert, SortedMap.get?_insertMany, ← List.map_reverse, List.find?_map, Option.map_map]
  simp only [Function.comp_def, Option.map_id']

theorem Follows.insert (h : c.Follows given supplied) (key : SelectorKey) (sets : List IpSet) :
    (c.insert key sets).Follows (fun k => if k = key then some sets else given k)
      (sets.reverse ++ supplied) where
  names := by
    intro k
    rw [get?_answers_insert, h.names]
    split <;> rfl
  bound := by
    intro k sets' hk s hs
    rw [get?_sets_insert, Option.isSome_or]
    split at hk
    · obtain rfl := Option.some.inj hk
      have hfound : (sets.reverse.find? fun t => decide (t.name = s.name)).isSome :=
        List.find?_isSome.2 ⟨s, List.mem_reverse.2 hs, decide_eq_true rfl⟩
      rw [hfound, Bool.true_or]
    · rw [h.bound k sets' hk s hs, Bool.or_true]
  content := by
    intro n s hs
    rw [get?_sets_insert] at hs
    rw [List.find?_append]
    -- Either the set is new, or no new one has its name and it was there before.
    cases hnew : sets.reverse.find? fun t => decide (t.name = n) with
    | some t => rwa [hnew] at hs
    | none =>
      rw [hnew] at hs
      exact h.content n s hs

/-- Nobody loses a set when a selector is inserted that was not known. -/
theorem Tidy.insert_of_unknown (h : c.Tidy) {key : SelectorKey} (hnew : c.answers.get? key = none)
    (sets : List IpSet) : (c.insert key sets).Tidy := by
  intro n s hs
  rw [isReferenced_iff]
  rw [get?_sets_insert] at hs
  -- A new set is in the new answer, and an old one in an old answer, which is not replaced.
  cases hfind : sets.reverse.find? fun t => decide (t.name = n) with
  | some t =>
    have ht : t ∈ sets := List.mem_reverse.1 (List.mem_of_find?_eq_some hfind)
    have hname : t.name = n := by simpa using List.find?_some hfind
    refine ⟨key, sets.map (·.name), ?_, List.mem_map.2 ⟨t, ht, hname⟩⟩
    rw [get?_answers_insert, if_pos rfl]
  | none =>
    rw [hfind] at hs
    obtain ⟨k, names, hk, hn⟩ := isReferenced_iff.1 (h n s hs)
    refine ⟨k, names, ?_, hn⟩
    rw [get?_answers_insert, if_neg, hk]
    rintro rfl
    rw [hnew] at hk
    cases hk

/-- What a list of entries gives and supplies, when they are inserted one after the other. -/
theorem Follows.insertAll (h : c.Follows given supplied) (entries : List CacheEntry) :
    (entries.foldl (fun c e => c.insert e.key e.sets) c).Follows
      (fun k => (CacheStep.givenBy? entries k).or (given k))
      ((entries.flatMap (·.sets)).reverse ++ supplied) := by
  -- The last entry counts, so the induction takes the entries off at their end.
  induction entries using List.reverseRecOn with
  | nil => exact h
  | append_singleton earlier e ih =>
    have hgiven : (fun k => (CacheStep.givenBy? (earlier ++ [e]) k).or (given k)) =
        fun k => if k = e.key then some e.sets
          else (CacheStep.givenBy? earlier k).or (given k) := by
      funext k
      by_cases hk : k = e.key
      · simp [CacheStep.givenBy?, hk]
      · have hk' : e.key ≠ k := fun heq => hk heq.symm
        simp [CacheStep.givenBy?, hk, hk']
    have hsupplied : ((earlier ++ [e]).flatMap (·.sets)).reverse ++ supplied =
        e.sets.reverse ++ ((earlier.flatMap (·.sets)).reverse ++ supplied) := by
      simp
    rw [hgiven, hsupplied, List.foldl_append]
    exact ih.insert e.key e.sets

/-! ### Removing -/

theorem Follows.erase (h : c.Follows given supplied) (key : SelectorKey) :
    Follows { c with answers := c.answers.erase key } (fun k => if k = key then none else given k)
      supplied where
  names := by
    intro k
    rw [SortedMap.get?_erase, h.names]
    split <;> rfl
  bound := by
    intro k sets hk
    split at hk
    · cases hk
    · exact h.bound k sets hk
  content := h.content

theorem get?_sets_prune (c : ResolutionCache) (n : String) :
    c.prune.sets.get? n = (c.sets.get? n).filter fun _ => c.isReferenced n :=
  SortedMap.get?_filter _ _ _

theorem Follows.prune (h : c.Follows given supplied) : c.prune.Follows given supplied where
  names := h.names
  bound := by
    -- A name in an answer is referred to, so that its set passes the test.
    intro k sets hk s hs
    obtain ⟨t, ht⟩ := Option.isSome_iff_exists.1 (h.bound k sets hk s hs)
    have hreferenced : c.isReferenced s.name = true := by
      refine isReferenced_iff.2 ⟨k, sets.map (·.name), ?_, List.mem_map_of_mem hs⟩
      rw [h.names, hk]
      rfl
    rw [get?_sets_prune, ht, hreferenced]
    rfl
  content := by
    intro n s hs
    rw [get?_sets_prune] at hs
    exact h.content n s (Option.filter_eq_some_iff.1 hs).1

theorem tidy_prune (c : ResolutionCache) : c.prune.Tidy := by
  intro n s hs
  rw [get?_sets_prune] at hs
  exact (Option.filter_eq_some_iff.1 hs).2

/-! ### Steps -/

/-- A cache of entries follows what they say, whatever was supplied before. -/
theorem follows_ofEntries (entries : List CacheEntry) (earlier : List IpSet) :
    (ofEntries entries).Follows (CacheStep.givenBy? entries)
      ((entries.flatMap (·.sets)).reverse ++ earlier) := by
  have h := ((follows_empty earlier).insertAll entries).prune
  simp only [Option.or_none] at h
  exact h

/-- The invariant of all steps: the cache follows its history and is tidy. -/
structure Keeps (c : ResolutionCache) (history : List CacheStep) : Prop where
  follows : c.Follows (CacheStep.given? history) (CacheStep.supplied history)
  tidy : c.Tidy

variable {history : List CacheStep}

theorem Keeps.written (h : c.Keeps history) (w : CacheWrite) :
    (c.written w).Keeps (.write w :: history) := by
  cases w with
  | update key sets => exact ⟨(h.follows.insert key sets).prune, tidy_prune _⟩
  | remove key => exact ⟨(h.follows.erase key).prune, tidy_prune _⟩
  | replaceAll entries => exact ⟨follows_ofEntries entries _, tidy_prune _⟩

theorem answer_of_known {s : Selector} {names : List String}
    (h : c.answers.get? s.key = some names) (create : Bool) :
    c.answer s create = (names, c) := by
  simp [answer, h]

/-- A selector that is not known gets an empty set of its own, if it is to be registered. -/
theorem answer_of_unknown {s : Selector} (h : c.answers.get? s.key = none) (create : Bool) :
    c.answer s create =
      if create then ([s.key.freshSetName], c.insert s.key [.empty s.key.freshSetName])
      else ([], c) := by
  cases create <;> simp [answer, h, IpSet.empty]

theorem Keeps.asked (h : c.Keeps history) (s : Selector) (create : Bool) :
    (c.answer s create).2.Keeps (.ask s create :: history) := by
  have hnames := h.follows.names s.key
  by_cases hnew : create = true ∧ CacheStep.given? history s.key = none
  · -- The selector is registered. Nothing is pruned then, and nothing has to be.
    have hgiven : CacheStep.given? (.ask s create :: history) = fun k =>
        if k = s.key then some [.empty s.key.freshSetName] else CacheStep.given? history k := by
      funext k
      simp [CacheStep.given?, hnew]
    have hsupplied : CacheStep.supplied (.ask s create :: history) =
        [.empty s.key.freshSetName].reverse ++ CacheStep.supplied history := by
      rw [CacheStep.supplied, CacheStep.supplies, if_pos hnew]
    rw [hnew.2] at hnames
    rw [answer_of_unknown hnames, if_pos hnew.1]
    constructor
    · rw [hgiven, hsupplied]
      exact h.follows.insert s.key _
    · exact h.tidy.insert_of_unknown hnames _
  · -- Nothing changes: the selector has an answer already, or none is to be made.
    have hgiven : CacheStep.given? (.ask s create :: history) = CacheStep.given? history := by
      funext k
      rw [CacheStep.given?, if_neg fun hk => hnew hk.2]
    have hsupplied : CacheStep.supplied (.ask s create :: history) =
        CacheStep.supplied history := by
      rw [CacheStep.supplied, CacheStep.supplies, if_neg hnew]
      rfl
    have hsame : (c.answer s create).2 = c := by
      cases hg : CacheStep.given? history s.key with
      | some sets =>
        rw [hg] at hnames
        rw [answer_of_known hnames]
      | none =>
        rw [hg] at hnames
        rw [answer_of_unknown hnames, if_neg fun hc => hnew ⟨hc, hg⟩]
    rw [hsame]
    constructor
    · rw [hgiven, hsupplied]
      exact h.follows
    · exact h.tidy

theorem Keeps.after (h : c.Keeps history) (step : CacheStep) :
    (c.after step).Keeps (step :: history) := by
  cases step with
  | write w => exact h.written w
  | renew entries => exact ⟨follows_ofEntries entries _, tidy_prune _⟩
  | ask s create => exact h.asked s create

theorem Keeps.run (h : c.Keeps history) (steps : List CacheStep) :
    (steps.foldl ResolutionCache.after c).Keeps (steps.reverse ++ history) := by
  -- The first step is the oldest of the run, and newer than all that happened before.
  induction steps generalizing c history with
  | nil => exact h
  | cons step rest ih =>
    rw [List.reverse_cons, List.append_assoc]
    exact ih (h.after step)

theorem keeps_empty : Keeps empty [] := ⟨follows_empty [], tidy_empty⟩

/-! ## What is declared -/

theorem Keeps.mem_declared_iff (h : c.Keeps history) {s : IpSet} :
    s ∈ c.declared ↔ c.sets.get? s.name = some s := by
  rw [declared, SortedMap.values, List.mem_map]
  constructor
  · rintro ⟨⟨n, t⟩, hmem, rfl⟩
    have hget : c.sets.get? n = some t := SortedMap.get?_eq_some_iff.2 hmem
    obtain rfl : n = t.name := h.follows.name_of_bound hget
    exact hget
  · intro hget
    exact ⟨(s.name, s), SortedMap.get?_eq_some_iff.1 hget, rfl⟩

theorem Keeps.declared_increasing (h : c.Keeps history) :
    c.declared.Pairwise fun s t => s.name < t.name := by
  rw [declared, SortedMap.values, List.pairwise_map]
  refine c.sets.sorted.imp_of_mem ?_
  rintro ⟨m, s⟩ ⟨n, t⟩ hs ht hlt
  obtain rfl : m = s.name := h.follows.name_of_bound (SortedMap.get?_eq_some_iff.2 hs)
  obtain rfl : n = t.name := h.follows.name_of_bound (SortedMap.get?_eq_some_iff.2 ht)
  exact compareOfLessAndEq_eq_lt.mp hlt

theorem Keeps.exists_declared_iff (h : c.Keeps history) {n : String} :
    (∃ s ∈ c.declared, s.name = n) ↔
      ∃ k names, c.answers.get? k = some names ∧ n ∈ names := by
  constructor
  · rintro ⟨s, hs, rfl⟩
    exact isReferenced_iff.1 (h.tidy s.name s (h.mem_declared_iff.1 hs))
  · rintro ⟨k, names, hk, hn⟩
    rw [h.follows.names] at hk
    obtain ⟨sets, hsets, rfl⟩ := Option.map_eq_some_iff.1 hk
    obtain ⟨s, hs, rfl⟩ := List.mem_map.1 hn
    obtain ⟨t, ht⟩ := Option.isSome_iff_exists.1 (h.follows.bound k sets hsets s hs)
    have hname := h.follows.name_of_bound ht
    refine ⟨t, h.mem_declared_iff.2 ?_, hname.symm⟩
    rwa [← hname]

/-- The answer to a question is what the cache knows of its selector afterwards. -/
theorem answer_eq_known (c : ResolutionCache) (s : Selector) (create : Bool) :
    (c.answer s create).1 = (c.answer s create).2.known s.key := by
  cases hk : c.answers.get? s.key with
  | some names =>
    rw [answer_of_known hk, known, hk]
    rfl
  | none =>
    rw [answer_of_unknown hk]
    cases create with
    | true => simp [known, get?_answers_insert, IpSet.empty]
    | false => simp [known, hk]

/-- After any sequence of steps, the declared sets stand in the order of their names and are those
that some selector's answer refers to, each as it was supplied last. The answer of a selector is
what it was given last, and so is what a question gets, which may give it something. -/
theorem declared_and_answers_from_history (steps : List CacheStep) :
    let c := steps.foldl ResolutionCache.after empty
    let history := steps.reverse
    c.declared.Pairwise (fun s t => s.name < t.name) ∧
      (∀ n, (∃ s ∈ c.declared, s.name = n) ↔
        ∃ k names, c.answers.get? k = some names ∧ n ∈ names) ∧
      (∀ s ∈ c.declared,
        (CacheStep.supplied history).find? (fun t => decide (t.name = s.name)) = some s) ∧
      (∀ k, c.answers.get? k = (CacheStep.given? history k).map (·.map (·.name))) ∧
      ∀ s create, (c.answer s create).1 =
        ((CacheStep.given? (.ask s create :: history) s.key).map (·.map (·.name))).getD [] := by
  intro c history
  have h : c.Keeps history := by
    have hrun := keeps_empty.run steps
    rwa [List.append_nil] at hrun
  refine ⟨h.declared_increasing, fun _ => h.exists_declared_iff, ?content, h.follows.names, ?asked⟩
  case content =>
    intro s hs
    exact h.follows.content s.name s (h.mem_declared_iff.1 hs)
  case asked =>
    intro s create
    rw [answer_eq_known, known, (h.asked s create).follows.names]

/-- A set that two selectors share stays when one of them is removed, as it was supplied last. -/
example :
    let shared : IpSet := ⟨"shared", .ipv4, ["192.0.2.1"]⟩
    let c := [CacheStep.write (.update ⟨"a.example", ""⟩ [.empty "own", .empty "shared"]),
      .write (.update ⟨"b.example", ""⟩ [shared, shared]),
      .write (.remove ⟨"a.example", ""⟩)].foldl ResolutionCache.after empty
    c.declared = [shared] := by
  decide +kernel

end Upkeep

end ResolutionCache

end ClusterFirewall
