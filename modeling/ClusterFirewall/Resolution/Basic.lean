import ClusterFirewall.Policy.Basic

/-!
# Resolution of DNS names

The addresses behind a DNS name are kept in named sets, and a resolver says which sets these are at
the moment. It is asked in the course of a build and may answer differently each time, so it carries
a state. A pinned resolver gives every selector the first answer that it got.

Main statements: `traverse_fixed` and `pinned_answer_of_seen` describe a resolver whose answers do
not change, and one that was asked before.
-/

namespace ClusterFirewall

/-- The family of the addresses of a set. -/
inductive SetFamily where
  | ipv4
  | ipv6
  deriving DecidableEq, Repr, Inhabited

/-- The type of a set's elements in a ruleset. -/
def SetFamily.text : SetFamily → String
  | .ipv4 => "ipv4_addr"
  | .ipv6 => "ipv6_addr"

/-- The family that an element type means. -/
def SetFamily.ofText? : String → Option SetFamily
  | "ipv4_addr" => some .ipv4
  | "ipv6_addr" => some .ipv6
  | _ => none

/-- A named set of addresses. -/
structure IpSet where
  /-- The name. -/
  name : String
  /-- The family of the addresses. -/
  family : SetFamily
  /-- The addresses. -/
  members : List String
  deriving DecidableEq, Repr

/-- The set of a name without addresses. -/
def IpSet.empty (name : String) : IpSet := ⟨name, .ipv4, []⟩

/-- A source of answers with a state of its own. -/
structure Resolver (σ : Type) where
  /-- The names of the sets that stand for a selector. If asked to, an unknown selector is
  registered with a fresh set. -/
  answer : Selector → Bool → σ → List String × σ
  /-- The sets that a ruleset has to declare. -/
  rendering : σ → List IpSet × σ

namespace Resolver

variable {σ : Type}

/-- The resolver that answers by the selector's key and never changes. -/
def fixed (answers : SelectorKey → List String) (sets : List IpSet) : Resolver σ where
  answer s _ st := (answers s.key, st)
  rendering st := (sets, st)

end Resolver

/-- Maps a list from its front on, handing a state through. -/
def traverse {α β σ : Type} (f : α → σ → β × σ) : List α → σ → List β × σ
  | [], st => ([], st)
  | a :: rest, st =>
    let (b, st) := f a st
    let (bs, st) := traverse f rest st
    (b :: bs, st)

/-- Where the state does not matter, mapping with it is mapping. -/
theorem traverse_fixed {α β σ : Type} (g : α → β) (xs : List α) (st : σ) :
    traverse (fun a st => (g a, st)) xs st = (xs.map g, st) := by
  induction xs with
  | nil => rfl
  | cons a rest ih => simp [traverse, ih]

/-! ## Pinned answers -/

/-- The answers that were given so far. -/
structure Pins where
  /-- The first answer of each selector. -/
  answers : List (SelectorKey × List String)
  /-- The sets to declare, once they were asked for. -/
  sets : Option (List IpSet)

/-- No answer yet. -/
def Pins.none : Pins := ⟨[], .none⟩

namespace Resolver

variable {σ : Type}

/-- Answers every selector as it was answered first. -/
def pinned (r : Resolver σ) : Resolver (σ × Pins) where
  answer s create st :=
    match st.2.answers.lookup s.key with
    | some names => (names, st)
    | none =>
      let (names, inner) := r.answer s create st.1
      (names, (inner, { st.2 with answers := (s.key, names) :: st.2.answers }))
  rendering st :=
    match st.2.sets with
    | some sets => (sets, st)
    | none =>
      let (sets, inner) := r.rendering st.1
      (sets, (inner, { st.2 with sets := some sets }))

/-- A selector that was answered gets the same answer, and nobody is asked. -/
theorem pinned_answer_of_seen (r : Resolver σ) {s : Selector} {create : Bool} {st : σ × Pins}
    {names : List String} (h : st.2.answers.lookup s.key = some names) :
    r.pinned.answer s create st = (names, st) := by
  simp [pinned, h]

end Resolver

end ClusterFirewall
