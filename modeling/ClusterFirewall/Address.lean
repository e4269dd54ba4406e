import ClusterFirewall.Text.Split

/-!
# IPv4 networks

The text form of an IPv4 network is a dotted address, alone or with a prefix length or a dotted
mask after a slash. The address keeps its host bits; a bare address is a network of one address.

Main statement: `Network.contains_iff`, a network holds the addresses that agree with its own on
the first `length` bits.
-/

namespace ClusterFirewall

/-- An IPv4 address. -/
abbrev Address := BitVec 32

namespace Address

/-- The number of a group of digits; a group of several digits starts with no zero. -/
def octet? (cs : List Char) : Option Nat :=
  if cs.isEmpty || 3 < cs.length || !cs.all Char.isDigit then none
  else if cs.head? == some '0' && cs.length != 1 then none
  else
    let n := Nat.ofDigitChars 10 cs 0
    if n < 256 then some n else none

/-- The address of four numbers. -/
def ofOctets (a b c d : Nat) : Address := BitVec.ofNat 32 (((a * 256 + b) * 256 + c) * 256 + d)

/-- The address that a dotted text writes. -/
def ofChars? (cs : List Char) : Option Address :=
  match Text.splitAtEach (· == '.') cs with
  | [a, b, c, d] => do
    let a ← octet? a
    let b ← octet? b
    let c ← octet? c
    let d ← octet? d
    pure (ofOctets a b c d)
  | _ => none

/-- The dotted text of an address. -/
def text (a : Address) : String :=
  let n := a.toNat
  ".".intercalate [toString (n >>> 24), toString ((n >>> 16) % 256), toString ((n >>> 8) % 256),
    toString (n % 256)]

end Address

/-- An address with the number of its leading bits that name a network. -/
structure Network where
  /-- The address, host bits included. -/
  address : Address
  /-- How many leading bits are the network's. -/
  length : Nat
  /-- An address has no more than 32 bits. -/
  length_le : length ≤ 32
  deriving DecidableEq

namespace Network

/-- The mask of a prefix length. -/
def maskOf (length : Nat) : Address := BitVec.allOnes 32 <<< (32 - length)

/-- The mask of a network. -/
def mask (n : Network) : Address := maskOf n.length

/-- The first address of a network. -/
def base (n : Network) : Address := n.address &&& n.mask

/-- Whether an address belongs to a network. -/
def contains (n : Network) (a : Address) : Bool := a &&& n.mask == n.base

/-- Whether every address of the second network belongs to the first. -/
def includes (n m : Network) : Bool := n.contains m.base && n.length ≤ m.length

/-- The prefix length that a mask stands for. -/
def lengthOfMask? (m : Address) : Option Nat := (List.range 33).find? fun n => maskOf n == m

/-- The prefix length in digits, which may carry a plus sign and zeros in front. -/
def lengthOfDigits? (cs : List Char) : Option Nat :=
  let ds := match cs with
    | '+' :: rest => rest
    | _ => cs
  if ds.isEmpty || !ds.all Char.isDigit then none
  else
    let n := Nat.ofDigitChars 10 ds 0
    if n ≤ 32 then some n else none

/-- The prefix length that stands after the slash: a dotted mask or digits. -/
def lengthOfChars? (cs : List Char) : Option Nat :=
  match Address.ofChars? cs with
  | some m => lengthOfMask? m
  | none => lengthOfDigits? cs

/-- The network of an address and a prefix length, if the length is one of an address. -/
def of? (a : Address) (length : Nat) : Option Network :=
  if h : length ≤ 32 then some ⟨a, length, h⟩ else none

/-- The network that a text writes. -/
def ofChars? (cs : List Char) : Option Network :=
  match Text.splitAtEach (· == '/') cs with
  | [a] => (Address.ofChars? a).bind fun a => of? a 32
  | [a, l] => do
    let a ← Address.ofChars? a
    let l ← lengthOfChars? l
    of? a l
  | _ => none

/-- The network that a string writes. -/
def parse? (s : String) : Option Network := ofChars? s.toList

/-- The text of a network: its address, host bits included, and its prefix length. -/
def text (n : Network) : String := n.address.text ++ "/" ++ toString n.length

theorem contains_iff {n : Network} {a : Address} :
    n.contains a ↔ a &&& n.mask = n.address &&& n.mask := by
  simp [contains, base]

end Network

end ClusterFirewall
