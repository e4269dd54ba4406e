import ClusterFirewall.Digest.Sha256
import ClusterFirewall.Resolution.Basic
import ClusterFirewall.SortedMap

/-!
# The cache of resolutions

The cache holds, for every selector that was resolved, the names of its sets, and every set that one
of these names means. Whoever resolves names writes it; the builds read it.
-/

namespace ClusterFirewall

/-- What one selector resolved to. -/
structure CacheEntry where
  /-- The selector. -/
  key : SelectorKey
  /-- Its sets. -/
  sets : List IpSet
  deriving DecidableEq, Repr

namespace SelectorKey

/-- The bytes that the generated name of a selector's set is digested from: the name and the
pattern with a bar between them. -/
def digestInput (k : SelectorKey) : List UInt8 :=
  k.matchName.toUTF8.toList ++ "|".toUTF8.toList ++ k.matchPattern.toUTF8.toList

/-- The name of the set that an unknown selector is registered with. -/
def freshSetName (k : SelectorKey) : String :=
  "fqdn_" ++ String.ofList (Sha256.hexChars ((Sha256.digest k.digestInput).take 6))

end SelectorKey

/-- The resolutions known so far. -/
structure ResolutionCache where
  /-- The names of each selector's sets. -/
  answers : SortedMap SelectorKey (List String)
  /-- The sets by their names. -/
  sets : SortedMap String IpSet
  deriving DecidableEq

namespace ResolutionCache

/-- The cache that knows nothing. -/
def empty : ResolutionCache := ⟨∅, ∅⟩

instance : Inhabited ResolutionCache := ⟨empty⟩

/-- Puts a selector's sets in place of what was known of it and of the sets' names. -/
def insert (c : ResolutionCache) (key : SelectorKey) (sets : List IpSet) : ResolutionCache :=
  ⟨c.answers.insert key (sets.map (·.name)), c.sets.insertMany (sets.map fun s => (s.name, s))⟩

/-- Whether some selector refers to a set. -/
def isReferenced (c : ResolutionCache) (name : String) : Bool :=
  c.answers.values.any fun names => names.contains name

/-- Drops the sets that no selector refers to. -/
def prune (c : ResolutionCache) : ResolutionCache :=
  { c with sets := c.sets.filter fun name _ => c.isReferenced name }

/-- Replaces the answer of one selector. -/
def update (c : ResolutionCache) (key : SelectorKey) (sets : List IpSet) : ResolutionCache :=
  (c.insert key sets).prune

/-- Forgets a selector and the sets that only it referred to. -/
def remove (c : ResolutionCache) (key : SelectorKey) : ResolutionCache :=
  { c with answers := c.answers.erase key }.prune

/-- The cache of a list of entries; the last one of a selector, and of a set's name, stays. -/
def ofEntries (entries : List CacheEntry) : ResolutionCache :=
  (entries.foldl (fun c e => c.insert e.key e.sets) empty).prune

/-- Replaces everything that is known. -/
def replaceAll (_ : ResolutionCache) (entries : List CacheEntry) : ResolutionCache :=
  ofEntries entries

/-- The number of selectors. -/
def size (c : ResolutionCache) : Nat := c.answers.size

/-- The sets that a ruleset has to declare, in the order of their names. -/
def declared (c : ResolutionCache) : List IpSet := c.sets.values

/-- Answers a selector. If asked to, an unknown one is registered with an empty set of its own. -/
def answer (s : Selector) (create : Bool) (c : ResolutionCache) : List String × ResolutionCache :=
  match c.answers.get? s.key with
  | some names => (names, c)
  | none =>
    if create then
      let set := IpSet.empty s.key.freshSetName
      ([set.name], c.insert s.key [set])
    else ([], c)

/-- The cache as a resolver whose state is its content. -/
def resolver : Resolver ResolutionCache where
  answer := answer
  rendering c := (c.declared, c)

end ResolutionCache

end ClusterFirewall
