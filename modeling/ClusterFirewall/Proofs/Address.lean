import ClusterFirewall.Address
import Mathlib.Data.Set.Defs

/-!
# Networks as sets of addresses

A network stands for the addresses that begin with the same `length` bits as its own, whatever its
host bits are. Membership and inclusion are computed with masks: a masked comparison, and a
comparison of the two lengths. Here both are compared with the set.

Main statements: `Network.contains_iff_mem_addresses` and `Network.includes_iff_subset`.
-/

namespace ClusterFirewall

namespace Network

/-- The addresses of a network: those that agree with its own on the first `length` bits. -/
def addresses (n : Network) : Set Address :=
  {a | ∀ i < n.length, a.getMsbD i = n.address.getMsbD i}

/-! ## Masks, bit by bit -/

theorem getMsbD_mask (n : Network) (i : Nat) : n.mask.getMsbD i = decide (i < n.length) := by
  have hlength := n.length_le
  have hshift : i + (32 - n.length) < 32 ↔ i < n.length := by omega
  rw [mask, maskOf, BitVec.getMsbD_shiftLeft, BitVec.getMsbD_allOnes, decide_eq_decide]
  exact hshift

theorem getMsbD_base (n : Network) (i : Nat) :
    n.base.getMsbD i = (n.address.getMsbD i && decide (i < n.length)) := by
  rw [base, BitVec.getMsbD_and, getMsbD_mask]

/-- Two addresses agree under the mask of a network iff they agree on its bits. -/
theorem and_mask_eq_iff {n : Network} {a b : Address} :
    a &&& n.mask = b &&& n.mask ↔ ∀ i < n.length, a.getMsbD i = b.getMsbD i := by
  constructor
  · intro h i hi
    have hbit := congrArg (BitVec.getMsbD · i) h
    simpa [getMsbD_mask, hi] using hbit
  · intro h
    apply BitVec.eq_of_getMsbD_eq
    intro i hi
    rw [BitVec.getMsbD_and, BitVec.getMsbD_and, getMsbD_mask]
    -- Beyond the prefix the mask cuts both addresses to zeros.
    by_cases hlt : i < n.length
    · rw [h i hlt]
    · simp [hlt]

/-- The masked comparison decides membership. -/
theorem contains_iff_mem_addresses {n : Network} {a : Address} :
    n.contains a ↔ a ∈ n.addresses :=
  contains_iff.trans and_mask_eq_iff

/-! ## Inclusion -/

/-- The last address of a network. -/
def last (n : Network) : Address := n.address ||| ~~~n.mask

theorem getMsbD_last (n : Network) {i : Nat} (hi : i < 32) :
    n.last.getMsbD i = (n.address.getMsbD i || !decide (i < n.length)) := by
  rw [last, BitVec.getMsbD_or, BitVec.getMsbD_not, getMsbD_mask]
  simp [hi]

theorem base_mem_addresses (n : Network) : n.base ∈ n.addresses := by
  intro i hi
  simp [getMsbD_base, hi]

theorem last_mem_addresses (n : Network) : n.last ∈ n.addresses := by
  intro i hi
  simp [getMsbD_last n (Nat.lt_of_lt_of_le hi n.length_le), hi]

/-- The first host bit tells the first address of a network from the last one: no longer prefix is
common to both. -/
theorem length_le_of_subset {n m : Network} (h : m.addresses ⊆ n.addresses) :
    n.length ≤ m.length := by
  refine Nat.le_of_not_lt fun hlt => ?_
  have hfirst : m.base.getMsbD m.length = n.address.getMsbD m.length :=
    h m.base_mem_addresses _ hlt
  have hlast : m.last.getMsbD m.length = n.address.getMsbD m.length :=
    h m.last_mem_addresses _ hlt
  -- Were the prefix of n longer, it would fix the first host bit of m to both values.
  have hbit : m.base.getMsbD m.length = m.last.getMsbD m.length := hfirst.trans hlast.symm
  rw [getMsbD_base, getMsbD_last m (Nat.lt_of_lt_of_le hlt n.length_le)] at hbit
  simp at hbit

/-- The check on the first address and on the lengths decides inclusion, for every two networks and
whatever their host bits are. -/
theorem includes_iff_subset {n m : Network} : n.includes m ↔ m.addresses ⊆ n.addresses := by
  rw [includes, Bool.and_eq_true, decide_eq_true_iff, contains_iff_mem_addresses]
  constructor
  · -- The bits that n fixes are among those that m fixes, where its first address has them.
    rintro ⟨hbase, hlength⟩ a ha i hi
    have hm : i < m.length := Nat.lt_of_lt_of_le hi hlength
    calc a.getMsbD i = m.address.getMsbD i := ha i hm
      _ = m.base.getMsbD i := (m.base_mem_addresses i hm).symm
      _ = n.address.getMsbD i := hbase i hi
  · intro h
    exact ⟨h m.base_mem_addresses, length_le_of_subset h⟩

end Network

end ClusterFirewall
