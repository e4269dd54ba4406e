import ClusterFirewall.Proofs.Resolution.Steady

/-!
# Transcripts of resolvers

A transcript lists what a resolver was asked and what it said. `Resolver.transcribed` is a resolver
that keeps one and is otherwise like the resolver it is made from: the two `Correspond`, so nobody
can tell them apart by asking.

What a policy gets from a pinned resolver can be read off the pins at the end of the run. Pins are
added and never changed, so answers that agree with the pins at the end agree with all pins before
(`Agree.of_resolve`). With a transcript kept inside, the pins are the first answers of the
transcript (`transcript_of_reaches`).
-/

namespace ClusterFirewall

/-- What a resolver was asked and what it said, the first question first. -/
structure Transcript where
  /-- The keys that were asked for, each with the names that it got. -/
  answers : List (SelectorKey × List String)
  /-- The sets to declare, as often as they were asked for. -/
  renderings : List (List IpSet)
  deriving DecidableEq

namespace Transcript

def blank : Transcript := ⟨[], []⟩

/-- The first answer that a key got. A key that was never asked for has no names. -/
def first (t : Transcript) (k : SelectorKey) : List String := (t.answers.lookup k).getD []

theorem first_of_lookup {t : Transcript} {k : SelectorKey} {names : List String}
    (h : t.answers.lookup k = some names) : names = t.first k := by
  rw [first, h]
  rfl

end Transcript

/-! ## Mapping with two states -/

/-- Two mappings whose steps agree on corresponding states agree on lists. -/
theorem traverse_corresponding {α β σ τ : Type} {f : α → σ → β × σ} {g : α → τ → β × τ}
    {R : σ → τ → Prop}
    (h : ∀ a st st', R st st' → (f a st).1 = (g a st').1 ∧ R (f a st).2 (g a st').2)
    (xs : List α) (st : σ) (st' : τ) (hst : R st st') :
    (traverse f xs st).1 = (traverse g xs st').1 ∧ R (traverse f xs st).2 (traverse g xs st').2 := by
  induction xs generalizing st st' with
  | nil => exact ⟨rfl, hst⟩
  | cons a rest ih =>
    obtain ⟨hhead, hnext⟩ := h a st st' hst
    obtain ⟨htail, hend⟩ := ih _ _ hnext
    exact ⟨congrArg₂ List.cons hhead htail, hend⟩

/-- If a condition on the state after a step gives it before the step, and with it what the step
yields, then so it is for the mapping of a list: the condition at the end is enough. -/
theorem traverse_eq_map_of_end {α β σ : Type} {f : α → σ → β × σ} {g : α → β} {I : σ → Prop}
    (hf : ∀ a st, I (f a st).2 → (f a st).1 = g a ∧ I st) (xs : List α) (st : σ)
    (hend : I (traverse f xs st).2) : (traverse f xs st).1 = xs.map g ∧ I st := by
  induction xs generalizing st with
  | nil => exact ⟨rfl, hend⟩
  | cons a rest ih =>
    -- The end of the list is reached from the state after its head.
    obtain ⟨htail, hnext⟩ := ih _ hend
    obtain ⟨hhead, hst⟩ := hf a st hnext
    exact ⟨congrArg₂ List.cons hhead htail, hst⟩

namespace Resolver

variable {σ τ : Type}

/-! ## Resolvers that nobody can tell apart -/

/-- In corresponding states both resolvers say the same and come to corresponding states. -/
structure Correspond (r : Resolver σ) (r' : Resolver τ) (R : σ → τ → Prop) : Prop where
  answer : ∀ s create st st', R st st' →
    (r.answer s create st).1 = (r'.answer s create st').1 ∧
      R (r.answer s create st).2 (r'.answer s create st').2
  rendering : ∀ st st', R st st' →
    (r.rendering st).1 = (r'.rendering st').1 ∧ R (r.rendering st).2 (r'.rendering st').2

section Correspond

variable {r : Resolver σ} {r' : Resolver τ} {R : σ → τ → Prop}

/-- Pinned views of such resolvers cannot be told apart either. -/
theorem Correspond.pinned (h : r.Correspond r' R) :
    r.pinned.Correspond r'.pinned fun view view' => R view.1 view'.1 ∧ view.2 = view'.2 where
  answer := by
    rintro s create ⟨st, pins⟩ ⟨st', _⟩ ⟨hst, rfl⟩
    obtain ⟨hnames, hnext⟩ := h.answer s create st st' hst
    cases hseen : pins.answers.lookup s.key with
    | some names => simpa [Resolver.pinned, hseen] using hst
    | none => simpa [Resolver.pinned, hseen, hnames] using hnext
  rendering := by
    rintro ⟨st, pins⟩ ⟨st', _⟩ ⟨hst, rfl⟩
    obtain ⟨hsets, hnext⟩ := h.rendering st st' hst
    cases hseen : pins.sets with
    | some sets => simpa [Resolver.pinned, hseen] using hst
    | none => simpa [Resolver.pinned, hseen, hsets] using hnext

theorem Correspond.resolve_selector (h : r.Correspond r' R) (s : Selector) (st : σ) (st' : τ)
    (hst : R st st') :
    (s.resolve r st).1 = (s.resolve r' st').1 ∧ R (s.resolve r st).2 (s.resolve r' st').2 := by
  obtain ⟨hnames, hnext⟩ := h.answer s false st st' hst
  exact ⟨congrArg (fun names => { s with sets := names }) hnames, hnext⟩

theorem Correspond.resolve_rule (h : r.Correspond r' R) (e : EgressRule) (st : σ) (st' : τ)
    (hst : R st st') :
    (e.resolve r st).1 = (e.resolve r' st').1 ∧ R (e.resolve r st).2 (e.resolve r' st').2 := by
  unfold EgressRule.resolve
  split
  · obtain ⟨hselectors, hend⟩ := traverse_corresponding h.resolve_selector e.selectors st st' hst
    exact ⟨congrArg (fun l => { e with selectors := l }) hselectors, hend⟩
  · exact ⟨rfl, hst⟩

/-- A policy is resolved to the same by both. -/
theorem Correspond.resolve (h : r.Correspond r' R) (p : Policy) (st : σ) (st' : τ)
    (hst : R st st') :
    (p.resolve r st).1 = (p.resolve r' st').1 ∧ R (p.resolve r st).2 (p.resolve r' st').2 := by
  obtain ⟨hrules, hend⟩ := traverse_corresponding h.resolve_rule p.spec.egress st st' hst
  exact ⟨congrArg (fun l => { p with spec := { p.spec with egress := l } }) hrules, hend⟩

end Correspond

/-! ## Keeping a transcript -/

variable {r : Resolver σ}

/-- The resolver, with everything that it is asked and says written down. -/
def transcribed (r : Resolver σ) : Resolver (σ × Transcript) where
  answer s create st :=
    let (names, inner) := r.answer s create st.1
    (names, (inner, { st.2 with answers := st.2.answers ++ [(s.key, names)] }))
  rendering st :=
    let (sets, inner) := r.rendering st.1
    (sets, (inner, { st.2 with renderings := st.2.renderings ++ [sets] }))

theorem transcribed_correspond (r : Resolver σ) :
    r.transcribed.Correspond r fun st st' => st.1 = st' where
  answer := by
    rintro s create ⟨st, t⟩ _ rfl
    exact ⟨rfl, rfl⟩
  rendering := by
    rintro ⟨st, t⟩ _ rfl
    exact ⟨rfl, rfl⟩

/-! ## Where resolution leads to -/

theorem reaches_traverse {α β : Type} {f : α → σ → β × σ} (hf : ∀ a st, r.Reaches st (f a st).2)
    (xs : List α) (st : σ) : r.Reaches st (traverse f xs st).2 := by
  induction xs generalizing st with
  | nil => exact .refl
  | cons a rest ih => exact (hf a st).trans (ih _)

theorem reaches_resolve (r : Resolver σ) (p : Policy) (st : σ) :
    r.Reaches st (p.resolve r st).2 := by
  apply reaches_traverse
  intro e st
  unfold EgressRule.resolve
  split
  · exact reaches_traverse (f := Selector.resolve r) (fun s st => Reaches.refl.answer s)
      e.selectors st
  · exact .refl

/-- With a transcript kept inside, the pins are the first answers of the transcript, and the sets to
declare were asked for as often as they are pinned. -/
theorem transcript_of_reaches {st : σ} {view : (σ × Transcript) × Pins}
    (h : r.transcribed.pinned.Reaches ((st, .blank), .none) view) :
    (∀ k, view.2.answers.lookup k = view.1.2.answers.lookup k) ∧
      view.2.sets.toList = view.1.2.renderings := by
  induction h with
  | refl => exact ⟨fun _ => rfl, rfl⟩
  | @answer view s _ ih =>
    cases hseen : view.2.answers.lookup s.key with
    | some names => rwa [pinned_answer_of_seen _ hseen]
    | none =>
      -- The key is new to the pins, so it is new to the transcript, where it is added at the end.
      have hnew := (ih.1 s.key).symm.trans hseen
      have hnext : (r.transcribed.pinned.answer s false view).2.1.2.answers =
          view.1.2.answers ++ [(s.key, (r.transcribed.answer s false view.1).1)] := by
        simp [pinned, hseen, transcribed]
      constructor
      · intro k
        rw [lookup_pinned_of_new hseen, hnext, List.lookup_append, ih.1 k]
        split
        · rename_i hk
          simp [hk, hnew]
        · rename_i hk
          simp [List.lookup_cons, beq_false_of_ne hk]
      · simpa [pinned, hseen, transcribed] using ih.2
  | @rendering view _ ih =>
    cases hseen : view.2.sets with
    | some sets => simpa [pinned, hseen] using ih
    | none =>
      have hnone : view.1.2.renderings = [] := by simpa [hseen] using ih.2.symm
      simp only [pinned, hseen, transcribed, hnone]
      exact ⟨ih.1, rfl⟩

/-- Asking for the sets to declare pins them and leaves the other pins alone. -/
theorem pins_of_rendering (r : Resolver σ) (view : σ × Pins) :
    (r.pinned.rendering view).2.2.answers = view.2.answers ∧
      (r.pinned.rendering view).2.2.sets = some (r.pinned.rendering view).1 := by
  cases hseen : view.2.sets <;> simp [pinned, hseen]

end Resolver

/-! ## Reading the answers off the pins -/

namespace Pins

variable {σ : Type} {r : Resolver σ} {answers : SelectorKey → List String} {view : σ × Pins}

/-- Answers that agree with the pins after a question agree with them before, and the question was
answered by them. -/
theorem Agree.of_answer {s : Selector} {create : Bool}
    (h : (r.pinned.answer s create view).2.2.Agree answers) :
    (r.pinned.answer s create view).1 = answers s.key ∧ view.2.Agree answers := by
  cases hseen : view.2.answers.lookup s.key with
  | some names =>
    rw [Resolver.pinned_answer_of_seen r hseen] at h ⊢
    exact ⟨h _ _ hseen, h⟩
  | none =>
    constructor
    · apply h
      rw [Resolver.lookup_pinned_of_new hseen, if_pos rfl]
      simp [Resolver.pinned, hseen]
    · -- A key with an old pin is another one than the key that is asked for.
      intro k names hk
      have hne : k ≠ s.key := by
        rintro rfl
        simp [hseen] at hk
      apply h
      rwa [Resolver.lookup_pinned_of_new hseen, if_neg hne]

theorem Agree.of_resolve_rule (e : EgressRule) (view : σ × Pins)
    (h : (e.resolve r.pinned view).2.2.Agree answers) :
    (e.resolve r.pinned view).1 = e.resolveBy answers ∧ view.2.Agree answers := by
  unfold EgressRule.resolve EgressRule.resolveBy at *
  split at h
  · rename_i hempty
    obtain ⟨hselectors, hview⟩ := traverse_eq_map_of_end (f := Selector.resolve r.pinned)
      (g := Selector.resolveBy answers) (I := fun view => view.2.Agree answers)
      (fun s view hnext =>
        have hs := Agree.of_answer (s := s) hnext
        ⟨congrArg (fun names => { s with sets := names }) hs.1, hs.2⟩)
      e.selectors view h
    rw [if_pos hempty, if_pos hempty]
    exact ⟨congrArg (fun l => { e with selectors := l }) hselectors, hview⟩
  · rename_i hempty
    rw [if_neg hempty, if_neg hempty]
    exact ⟨rfl, h⟩

/-- A policy was resolved by all answers that agree with the pins after it. -/
theorem Agree.of_resolve (p : Policy) (view : σ × Pins)
    (h : (p.resolve r.pinned view).2.2.Agree answers) :
    (p.resolve r.pinned view).1 = p.resolveBy answers ∧ view.2.Agree answers := by
  obtain ⟨hrules, hview⟩ := traverse_eq_map_of_end (f := EgressRule.resolve r.pinned)
    (g := EgressRule.resolveBy answers) (I := fun view => view.2.Agree answers)
    Agree.of_resolve_rule p.spec.egress view h
  exact ⟨congrArg (fun l => { p with spec := { p.spec with egress := l } }) hrules, hview⟩

end Pins

end ClusterFirewall
