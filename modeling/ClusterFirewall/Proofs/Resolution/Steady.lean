import ClusterFirewall.Resolution.Cache
import ClusterFirewall.Ruleset.PolicyRules
import Mathlib.Logic.Basic

/-!
# Steady resolvers

Asking a resolver may change its state. A resolver is **steady** in a state if from there on,
whatever it is asked, it answers every selector by the selector's key alone. A resolver with fixed
answers is steady everywhere, and so is the cache as long as nobody writes to it.

Main statements: `Steady.pinned`, pinning the answers of a steady resolver changes none of them,
and `Steady.resolve_eq`, resolving a policy with a steady resolver is a function of the policy.
-/

namespace ClusterFirewall

/-! ## Mapping with a state -/

/-- If every step keeps an invariant of the state, and what is seen of its result is a function of
its element, then mapping with the state is mapping, as far as one can see. -/
theorem map_traverse_of_invariant {α β γ σ : Type} {f : α → σ → β × σ} {h : β → γ} {g : α → γ}
    {I : σ → Prop} (hf : ∀ a st, I st → h (f a st).1 = g a ∧ I (f a st).2) (xs : List α) (st : σ)
    (hst : I st) :
    (traverse f xs st).1.map h = xs.map g ∧ I (traverse f xs st).2 := by
  induction xs generalizing st with
  | nil => exact ⟨rfl, hst⟩
  | cons a rest ih =>
    -- The step for the head keeps the invariant, so the rest can be mapped from the state after it.
    obtain ⟨hhead, hnext⟩ := hf a st hst
    obtain ⟨htail, hend⟩ := ih _ hnext
    exact ⟨congrArg₂ List.cons hhead htail, hend⟩

theorem traverse_eq_map {α β σ : Type} {f : α → σ → β × σ} {g : α → β} {I : σ → Prop}
    (hf : ∀ a st, I st → (f a st).1 = g a ∧ I (f a st).2) (xs : List α) (st : σ) (hst : I st) :
    (traverse f xs st).1 = xs.map g ∧ I (traverse f xs st).2 := by
  have hid := map_traverse_of_invariant (h := id) hf xs st hst
  rwa [List.map_id] at hid

theorem map_traverse {α β γ σ : Type} {f : α → σ → β × σ} {h : β → γ} {g : α → γ}
    (hf : ∀ a st, h (f a st).1 = g a) (xs : List α) (st : σ) :
    (traverse f xs st).1.map h = xs.map g :=
  (map_traverse_of_invariant (I := fun _ => True) (fun a st _ => ⟨hf a st, trivial⟩) xs st
    trivial).1

/-! ## Steady states -/

namespace Resolver

variable {σ : Type} {r : Resolver σ} {answers : SelectorKey → List String} {st st' st'' : σ}

/-- The states that a resolver comes to by being asked, without being told to register anything. -/
inductive Reaches (r : Resolver σ) (st : σ) : σ → Prop where
  | refl : Reaches r st st
  | answer {st' : σ} (s : Selector) : Reaches r st st' → Reaches r st (r.answer s false st').2
  | rendering {st' : σ} : Reaches r st st' → Reaches r st (r.rendering st').2

/-- From this state on, every selector gets the answer of its key. -/
def Steady (r : Resolver σ) (answers : SelectorKey → List String) (st : σ) : Prop :=
  ∀ st', r.Reaches st st' → ∀ s, (r.answer s false st').1 = answers s.key

/-- From this state on, every selector gets the answer that a function gives it. -/
def AnswersBy (r : Resolver σ) (answers : Selector → List String) (st : σ) : Prop :=
  ∀ st', r.Reaches st st' → ∀ s, (r.answer s false st').1 = answers s

theorem Steady.answersBy (h : r.Steady answers st) : r.AnswersBy (fun s => answers s.key) st := h

theorem Reaches.trans (h : r.Reaches st st') (h' : r.Reaches st' st'') : r.Reaches st st'' := by
  induction h' with
  | refl => exact h
  | answer s _ ih => exact ih.answer s
  | rendering _ ih => exact ih.rendering

theorem Steady.of_reaches (h : r.Steady answers st) (hr : r.Reaches st st') :
    r.Steady answers st' :=
  fun st'' hr' => h st'' (hr.trans hr')

theorem fixed_steady (answers : SelectorKey → List String) (sets : List IpSet) (st : σ) :
    (fixed answers sets).Steady answers st :=
  fun _ _ _ => rfl

end Resolver

/-! ## Pinned answers -/

/-- The pins hold nothing but the answers of the selectors' keys. -/
def Pins.Agree (p : Pins) (answers : SelectorKey → List String) : Prop :=
  ∀ k names, p.answers.lookup k = some names → names = answers k

namespace Resolver

variable {σ : Type} {r : Resolver σ} {answers : SelectorKey → List String} {st st' : σ}

/-- A question with a new key pins its answer and leaves the other pins as they are. -/
theorem lookup_pinned_of_new {s : Selector} {create : Bool} {view : σ × Pins}
    (hnew : view.2.answers.lookup s.key = none) (k : SelectorKey) :
    (r.pinned.answer s create view).2.2.answers.lookup k =
      if k = s.key then some (r.answer s create view.1).1 else view.2.answers.lookup k := by
  by_cases hk : k = s.key
  · subst hk
    simp [pinned, hnew]
  · simp [pinned, hnew, hk, List.lookup_cons, beq_false_of_ne hk]

/-- Whatever is pinned was said by the resolver inside, in a state that it came to by being
asked. -/
theorem exists_of_pinned {view : σ × Pins} (hv : r.pinned.Reaches (st, Pins.none) view) :
    r.Reaches st view.1 ∧
      (∀ k names, view.2.answers.lookup k = some names →
        ∃ s st', r.Reaches st st' ∧ s.key = k ∧ names = (r.answer s false st').1) ∧
      ∀ sets, view.2.sets = some sets →
        ∃ st', r.Reaches st st' ∧ sets = (r.rendering st').1 := by
  induction hv with
  | refl => exact ⟨.refl, fun _ _ h => by simp [Pins.none] at h, fun _ h => by cases h⟩
  | @answer view s _ ih =>
    obtain ⟨hinner, hanswers, hsets⟩ := ih
    cases hl : view.2.answers.lookup s.key with
    | some names =>
      rw [pinned_answer_of_seen r hl]
      exact ⟨hinner, hanswers, hsets⟩
    | none =>
      have hnext : (r.pinned.answer s false view).2.1 = (r.answer s false view.1).2 ∧
          (r.pinned.answer s false view).2.2.sets = view.2.sets := by simp [pinned, hl]
      rw [hnext.1, hnext.2]
      refine ⟨hinner.answer s, fun k names hk => ?_, hsets⟩
      rw [lookup_pinned_of_new hl] at hk
      split at hk
      · rename_i hkey
        exact ⟨s, view.1, hinner, hkey.symm, (Option.some.inj hk).symm⟩
      · exact hanswers k names hk
  | @rendering view _ ih =>
    obtain ⟨hinner, hanswers, hsets⟩ := ih
    cases hs : view.2.sets with
    | some sets =>
      have hsame : (r.pinned.rendering view).2 = view := by simp [pinned, hs]
      rw [hsame]
      exact ⟨hinner, hanswers, hsets⟩
    | none =>
      simp only [pinned, hs]
      exact ⟨hinner.rendering, hanswers, fun sets h => ⟨view.1, hinner, (Option.some.inj h).symm⟩⟩

/-- Where a steady resolver gets to through its pinned view. -/
theorem Steady.pinned_reaches (h : r.Steady answers st) {view : σ × Pins}
    (hv : r.pinned.Reaches (st, Pins.none) view) :
    r.Reaches st view.1 ∧ view.2.Agree answers := by
  obtain ⟨hinner, hanswers, -⟩ := exists_of_pinned hv
  refine ⟨hinner, fun k names hk => ?_⟩
  obtain ⟨s, st', hst', rfl, rfl⟩ := hanswers k names hk
  exact h st' hst' s

/-- Pinning the answers of a steady resolver changes none of them. -/
theorem Steady.pinned (h : r.Steady answers st) :
    r.pinned.Steady answers (st, Pins.none) := by
  intro view hv s
  obtain ⟨hinner, hagree⟩ := h.pinned_reaches hv
  cases hl : view.2.answers.lookup s.key with
  | some names =>
    -- The key was asked for before: its pin is the answer, and nobody is asked.
    rw [pinned_answer_of_seen r hl]
    exact hagree _ _ hl
  | none =>
    have hasked : (r.pinned.answer s false view).1 = (r.answer s false view.1).1 := by
      simp [Resolver.pinned, hl]
    rw [hasked]
    exact h view.1 hinner s

end Resolver

/-! ## The cache -/

namespace ResolutionCache

/-- The names that the cache knows for a key, none if it does not know the key. -/
def known (c : ResolutionCache) (k : SelectorKey) : List String := (c.answers.get? k).getD []

theorem answer_false (s : Selector) (c : ResolutionCache) :
    answer s false c = (c.known s.key, c) := by
  cases h : c.answers.get? s.key <;> simp [answer, known, h]

/-- A cache that nobody writes to is steady. -/
theorem resolver_steady (c : ResolutionCache) : resolver.Steady c.known c := by
  -- Asking without registering changes nothing, so the cache comes to no other state.
  have hsame : ∀ c', resolver.Reaches c c' → c' = c := by
    intro c' hr
    induction hr with
    | refl => rfl
    | answer s _ ih =>
      rw [ih]
      exact congrArg Prod.snd (answer_false s c)
    | rendering _ ih => exact ih
  intro c' hr s
  rw [hsame c' hr]
  exact congrArg Prod.fst (answer_false s c)

end ResolutionCache

/-! ## Resolving with known answers -/

/-- A selector with the answer of its key. -/
def Selector.resolveBy (answers : SelectorKey → List String) (s : Selector) : Selector :=
  { s with sets := answers s.key }

/-- An egress rule with the answers of its selectors' keys, unless it has blocks. -/
def EgressRule.resolveBy (answers : SelectorKey → List String) (e : EgressRule) : EgressRule :=
  if e.destinations.isEmpty then { e with selectors := e.selectors.map (·.resolveBy answers) } else e

/-- A policy with the answers of its selectors' keys. -/
def Policy.resolveBy (answers : SelectorKey → List String) (p : Policy) : Policy :=
  { p with spec := { p.spec with egress := p.spec.egress.map (·.resolveBy answers) } }

namespace Resolver

variable {σ : Type} {r : Resolver σ} {answers : SelectorKey → List String} {st : σ}

theorem Steady.resolve_rule (h : r.Steady answers st) (e : EgressRule) {st' : σ}
    (hr : r.Reaches st st') :
    (e.resolve r st').1 = e.resolveBy answers ∧ r.Reaches st (e.resolve r st').2 := by
  unfold EgressRule.resolve EgressRule.resolveBy
  split
  · obtain ⟨hsel, hend⟩ := traverse_eq_map (f := Selector.resolve r)
      (g := Selector.resolveBy answers) (I := r.Reaches st)
      (fun s st'' hr' => ⟨congrArg (fun names => { s with sets := names }) (h st'' hr' s),
        hr'.answer s⟩) e.selectors st' hr
    exact ⟨congrArg (fun l => { e with selectors := l }) hsel, hend⟩
  · exact ⟨rfl, hr⟩

/-- Resolving a policy with a steady resolver is a function of the policy. -/
theorem Steady.resolve_eq (h : r.Steady answers st) (p : Policy) {st' : σ}
    (hr : r.Reaches st st') :
    (p.resolve r st').1 = p.resolveBy answers ∧ r.Reaches st (p.resolve r st').2 := by
  obtain ⟨hrules, hend⟩ := traverse_eq_map (f := EgressRule.resolve r)
    (g := EgressRule.resolveBy answers) (I := r.Reaches st)
    (fun e st'' hr' => h.resolve_rule e hr') p.spec.egress st' hr
  exact ⟨congrArg (fun l => { p with spec := { p.spec with egress := l } }) hrules, hend⟩

end Resolver

end ClusterFirewall
