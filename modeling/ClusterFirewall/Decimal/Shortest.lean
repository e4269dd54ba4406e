/-!
# The fewest digits that read back

A binary fraction `m · 2 ^ q` is written with the fewest decimal digits that round to it. For one,
two, … seventeen digits the two neighbours of the value on that decimal grid are tried; the first
grid with a neighbour among the numbers that round to the value wins, and of two hits the nearer.
-/

namespace ClusterFirewall.Decimal

/-- A decimal fraction `digits · 10 ^ power`. -/
structure Scaled where
  /-- The digits as a number. -/
  digits : Nat
  /-- The power of ten of the last digit. -/
  power : Int
  deriving DecidableEq, Repr

/-- An interval of quotients over one denominator, with a value inside. -/
structure Interval where
  /-- The least number that rounds to the value. -/
  low : Nat
  /-- The value itself. -/
  value : Nat
  /-- The greatest number that rounds to the value. -/
  high : Nat
  /-- The common denominator. -/
  den : Nat
  /-- Whether the ends belong to the interval. -/
  closed : Bool

/-- The numbers that round to `m · 2 ^ q`; below a power of two the gap is half as wide. -/
def Interval.ofBinary (m : Nat) (q : Int) (narrowBelow : Bool) : Interval :=
  -- Quarters of the last place, so that the ends of the interval are whole numbers.
  let scale := 1 <<< (q - 2).toNat
  { low := (4 * m - if narrowBelow then 1 else 2) * scale
    value := 4 * m * scale
    high := (4 * m + 2) * scale
    den := 1 <<< (2 - q).toNat
    closed := m % 2 == 0 }

/-- How many places the first digit of a fraction below one stands after the point. -/
def placesBelowOne (den : Nat) : Nat → Nat → Nat
  | 0, _ => 0
  | fuel + 1, value => if den ≤ value then 0 else placesBelowOne den fuel (value * 10) + 1

/-- The place of the point: the value lies between the two powers of ten below and at it. -/
def Interval.point (i : Interval) : Int :=
  if i.den ≤ i.value then (Nat.toDigits 10 (i.value / i.den)).length
  else 1 - (placesBelowOne i.den 400 i.value : Int)

/-- The hit on the grid of `10 ^ power`, if there is one. -/
def Interval.hit? (i : Interval) (power : Int) : Option Nat :=
  let up := Nat.pow 10 (-power).toNat
  let den := i.den * Nat.pow 10 power.toNat
  let value := i.value * up
  let d := value / den
  let isIn (x : Nat) : Bool :=
    if i.closed then i.low * up ≤ x && x ≤ i.high * up else i.low * up < x && x < i.high * up
  let below := d * den
  let above := (d + 1) * den
  match isIn below, isIn above with
  | true, true =>
    -- Both neighbours read back: the nearer one counts, and the even one if they are equally near.
    if value - below < above - value then some d
    else if above - value < value - below then some (d + 1)
    else some (if d % 2 == 0 then d else d + 1)
  | true, false => some d
  | false, true => some (d + 1)
  | false, false => none

/-- A decimal fraction without zeros at its end. -/
def Scaled.trimmed : Nat → Scaled → Scaled
  | 0, s => s
  | fuel + 1, s =>
    if s.digits % 10 == 0 then Scaled.trimmed fuel ⟨s.digits / 10, s.power + 1⟩ else s

/-- The shortest decimal fraction that reads back as `m · 2 ^ q`. -/
def shortest (m : Nat) (q : Int) (narrowBelow : Bool) : Scaled :=
  let i := Interval.ofBinary m q narrowBelow
  let point := i.point
  let hit := (List.range 17).findSome? fun (n : Nat) =>
    let power := point - ((n : Int) + 1)
    (i.hit? power).map fun d => Scaled.trimmed 17 ⟨d, power⟩
  hit.getD ⟨0, 0⟩

end ClusterFirewall.Decimal
