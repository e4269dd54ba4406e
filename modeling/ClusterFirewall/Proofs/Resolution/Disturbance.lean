import ClusterFirewall.Proofs.Resolution.Steady

/-!
# Writes between questions

Whoever resolves names writes to the cache while a reconciliation reads it. A disturbed cache is a
cache with the writes that are still to come, grouped by the question that they come before; every
question first lets its group through and is then answered by the cache as it is. The groups are
arbitrary, so every interleaving of writes with questions is a state of the disturbed cache.

Main statement: `DisturbedCache.steady_of_atRest`, once no write is to come the disturbed cache
answers as the cache does and stays as it is.
-/

namespace ClusterFirewall

/-- A change of the cache from outside. -/
inductive CacheWrite where
  /-- The answer of one selector is replaced. -/
  | update (key : SelectorKey) (sets : List IpSet)
  /-- A selector is forgotten. -/
  | remove (key : SelectorKey)
  /-- Everything is replaced. -/
  | replaceAll (entries : List CacheEntry)

/-- The cache after a write. -/
def ResolutionCache.written (c : ResolutionCache) : CacheWrite → ResolutionCache
  | .update key sets => c.update key sets
  | .remove key => c.remove key
  | .replaceAll entries => c.replaceAll entries

/-- A cache that is written to while it is read. -/
structure DisturbedCache where
  /-- The cache as it is now. -/
  cache : ResolutionCache
  /-- The writes to come, those before the next question first. -/
  coming : List (List CacheWrite)

namespace DisturbedCache

/-- Nobody writes to the cache any more. -/
def AtRest (c : DisturbedCache) : Prop := c.coming = []

/-- The cache that the next question meets. -/
def met (c : DisturbedCache) : ResolutionCache :=
  (c.coming.headD []).foldl ResolutionCache.written c.cache

/-- The cache after a question that left it with this content. -/
def asked (c : DisturbedCache) (cache : ResolutionCache) : DisturbedCache :=
  ⟨cache, c.coming.tail⟩

/-- The disturbed cache as a resolver: the writes before a question come first. -/
def resolver : Resolver DisturbedCache where
  answer s create c :=
    let (names, cache) := c.met.answer s create
    (names, c.asked cache)
  rendering c := (c.met.declared, c.asked c.met)

theorem AtRest.met_eq {c : DisturbedCache} (h : c.AtRest) : c.met = c.cache := by
  rw [met, h]
  rfl

theorem AtRest.asked_eq {c : DisturbedCache} (h : c.AtRest) : c.asked c.cache = c := by
  obtain ⟨cache, coming⟩ := c
  obtain rfl : coming = [] := h
  rfl

theorem AtRest.answer_false {c : DisturbedCache} (h : c.AtRest) (s : Selector) :
    resolver.answer s false c = (c.cache.known s.key, c) := by
  simp only [resolver, h.met_eq, ResolutionCache.answer_false, h.asked_eq]

/-- At rest, asking changes nothing. -/
theorem AtRest.eq_of_reaches {c c' : DisturbedCache} (h : c.AtRest) (hr : resolver.Reaches c c') :
    c' = c := by
  induction hr with
  | refl => rfl
  | answer s _ ih => rw [ih, h.answer_false]
  | rendering _ ih =>
    rw [ih]
    show c.asked c.met = c
    rw [h.met_eq, h.asked_eq]

/-- At rest, every selector gets the answer that the cache knows. -/
theorem steady_of_atRest {c : DisturbedCache} (h : c.AtRest) :
    resolver.Steady c.cache.known c := by
  intro c' hr s
  rw [h.eq_of_reaches hr, h.answer_false]

end DisturbedCache

end ClusterFirewall
