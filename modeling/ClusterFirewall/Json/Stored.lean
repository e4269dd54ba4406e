import ClusterFirewall.Decimal.Shortest
import ClusterFirewall.Json.Basic
import ClusterFirewall.SortedMap

/-!
# The stored form of a document

A document that is kept as a value, and not only skipped, is held to more: its nesting has a limit,
its strings have values, its numbers fit. Integers of 64 bits stay as they are and all other
numbers become binary fractions of double precision; the members of an object are ordered by their
names, the last of equal names staying.
-/

namespace ClusterFirewall

/-! ## Numbers -/

/-- The digit zero. -/
def zeroDigit : Fin 10 := digitValue '0'

/-- The decimal digits of a number. -/
def decimalDigits (n : Nat) : List (Fin 10) := (Nat.toDigits 10 n).map digitValue

/-- Adds digits to a number while it fits 64 bits; gives the number and the digits left over. -/
def appendDigits : Nat → List (Fin 10) → Nat × List (Fin 10)
  | n, [] => (n, [])
  | n, d :: ds =>
    if n * 10 + d.val < UInt64.size then appendDigits (n * 10 + d.val) ds else (n, d :: ds)

/-- A number scaled by a power of ten in double precision; none if it grows out of range. -/
def scaleFloat? : Nat → Float → Int → Option Float
  | 0, _, _ => none
  | fuel + 1, f, power =>
    if power.natAbs ≤ 308 then
      if 0 ≤ power then
        let g := f * Float.ofScientific 1 false power.natAbs
        if g.isInf then none else some g
      else some (f / Float.ofScientific 1 false power.natAbs)
    else if f == 0.0 then some f
    else if 0 ≤ power then none
    else scaleFloat? fuel (f / Float.ofScientific 1 false 308) (power + 308)

/-- The value of a number in double precision without its sign. The digits beyond those that fit 64
bits are dropped. -/
def Numeral.toFloat? (n : Numeral) : Option Float :=
  let (head, dropped) := appendDigits 0 (decimalDigits n.whole)
  let (all, unread) := appendDigits head n.fraction
  -- Digits that do not fit are powers of ten before the point and lost after it.
  let power : Int := (dropped.length : Int) - (n.fraction.length - unread.length : Nat)
  scaleFloat? 8 (UInt64.ofNat all).toFloat (power + n.exponent.getD 0)

/-- The digits of a number, at least as many as asked for. -/
def paddedDigits (width n : Nat) : List (Fin 10) :=
  let digits := decimalDigits n
  List.replicate (width - digits.length) zeroDigit ++ digits

/-- How a decimal fraction is written: positionally while the point stands near its digits, else
with a power of ten after the first digit. -/
def Decimal.Scaled.numeral (s : Decimal.Scaled) (negative : Bool) : Numeral :=
  let size := (Nat.toDigits 10 s.digits).length
  let point : Int := size + s.power
  if 0 ≤ s.power ∧ point ≤ 16 then ⟨negative, s.digits * Nat.pow 10 s.power.toNat, [zeroDigit], none⟩
  else if 0 < point ∧ point ≤ 16 then
    let unit := Nat.pow 10 (-s.power).toNat
    ⟨negative, s.digits / unit, paddedDigits (-s.power).toNat (s.digits % unit), none⟩
  else if (-5 : Int) < point ∧ point ≤ 0 then
    ⟨negative, 0, paddedDigits (size + (-point).toNat) s.digits, none⟩
  else
    let unit := Nat.pow 10 (size - 1)
    let fraction := if size = 1 then [] else paddedDigits (size - 1) (s.digits % unit)
    ⟨negative, s.digits / unit, fraction, some (point - 1)⟩

/-- The number that a finite value of double precision is written as. -/
def Numeral.ofFloat (negative : Bool) (f : Float) : Numeral :=
  let bits := f.toBits.toNat
  let exponent := (bits >>> 52) % 2048
  let hidden := 1 <<< 52
  let fraction := bits % hidden
  if exponent = 0 ∧ fraction = 0 then ⟨negative, 0, [zeroDigit], none⟩
  else if exponent = 0 then (Decimal.shortest fraction (-1074) false).numeral negative
  else
    let q : Int := (exponent : Int) - 1075
    (Decimal.shortest (hidden + fraction) q (fraction == 0 && exponent != 1)).numeral negative

/-- The stored form of a number; none if it is out of range. -/
def Numeral.stored? (n : Numeral) : Option Numeral :=
  if n.fraction.isEmpty && n.exponent.isNone && !n.negative && n.whole < UInt64.size then some n
  else if n.fraction.isEmpty && n.exponent.isNone && n.negative && n.whole != 0 &&
      n.whole ≤ 1 <<< 63 then some n
  else n.toFloat?.map (Numeral.ofFloat n.negative)

/-! ## Documents -/

namespace Json

mutual

/-- The stored form of a document that nests at most as deep as the limit says. -/
def stored? : Nat → Json → Option Json
  | _, .null => some .null
  | _, .bool b => some (.bool b)
  | _, .number n => n.stored?.map .number
  | _, .string s => s.map fun s => .string (some s)
  | 0, .array _ => none
  | limit + 1, .array items => (storedItems? limit items).map .array
  | 0, .object _ => none
  | limit + 1, .object members =>
    (storedMembers? limit members).map fun ms =>
      .object ((SortedMap.ofList ms).entries.map fun e => (some e.1, e.2))

/-- The stored forms of items. -/
def storedItems? : Nat → List Json → Option (List Json)
  | _, [] => some []
  | limit, j :: rest => do
    let j ← stored? limit j
    let rest ← storedItems? limit rest
    pure (j :: rest)

/-- The stored forms of members. -/
def storedMembers? : Nat → List (Option String × Json) → Option (List (String × Json))
  | _, [] => some []
  | limit, (k, j) :: rest => do
    let k ← k
    let j ← stored? limit j
    let rest ← storedMembers? limit rest
    pure ((k, j) :: rest)

end

/-- How deep a document that is read as a whole may nest. -/
def nestingLimit : Nat := 127

end Json

end ClusterFirewall
