/-!
The shortest decimal of a double. A finite double is `m * 2 ^ q`; every real number nearer to it
than to its neighbours reads back as it. Of the decimals with the fewest digits among those, the
nearest is taken.
-/
namespace ObjectBroker.Decimal

/-- A positive finite double in quarters of its last place: the ends of the interval that reads
back as it, over a common denominator. -/
structure Interval where
  low : Nat
  value : Nat
  high : Nat
  denominator : Nat
  /-- Whether the ends belong to it. -/
  isClosed : Bool
  deriving DecidableEq, Repr

def Interval.of (m : Nat) (q : Int) (isPower : Bool) : Interval :=
  let low := if isPower then 4 * m - 1 else 4 * m - 2
  let up := Nat.pow 2 (q - 2).toNat
  { low := low * up, value := 4 * m * up, high := (4 * m + 2) * up,
    denominator := Nat.pow 2 (2 - q).toNat, isClosed := m % 2 == 0 }

structure Scaled where
  digits : Nat
  exponent : Int
  deriving DecidableEq, Repr

namespace Interval

def magnitudeFrom (i : Interval) (start : Int) : (tries : Nat) → Int
  | 0 => start
  | tries + 1 =>
    let above :=
      if 0 ≤ start then i.value < i.denominator * Nat.pow 10 start.toNat
      else i.value * Nat.pow 10 (-start).toNat < i.denominator
    if above then start else i.magnitudeFrom (start + 1) tries

/-- How many digits stand before the point; negative when zeros follow it. -/
def magnitude (i : Interval) : Int :=
  i.magnitudeFrom (-330) 650

def holds (i : Interval) (low high n : Nat) : Bool :=
  if i.isClosed then low ≤ n && n ≤ high else low < n && n < high

def nearest? (i : Interval) (exponent : Int) : Option Nat :=
  let up := Nat.pow 10 (-exponent).toNat
  let unit := i.denominator * Nat.pow 10 exponent.toNat
  let value := i.value * up
  let below := value / unit
  let inside (n : Nat) : Bool := i.holds (i.low * up) (i.high * up) (n * unit)
  match inside below, inside (below + 1) with
  | true, true => some (if unit ≤ 2 * (value - below * unit) then below + 1 else below)
  | true, false => some below
  | false, true => some (below + 1)
  | false, false => none

def shortestFrom (i : Interval) (magnitude : Int) (count : Nat) : (tries : Nat) → Scaled
  | 0 => { digits := 0, exponent := 0 }
  | tries + 1 =>
    match i.nearest? (magnitude - count) with
    | some digits => { digits, exponent := magnitude - count }
    | none => i.shortestFrom magnitude (count + 1) tries

def shortest (i : Interval) : Scaled :=
  i.shortestFrom i.magnitude 1 17

end Interval

def hiddenBit : Nat := 0x10000000000000

def fraction (pattern : UInt64) : Nat := pattern.toNat % hiddenBit

def biased (pattern : UInt64) : Nat := pattern.toNat / hiddenBit % 0x800

def isNegative (pattern : UInt64) : Bool := 0x8000000000000000 ≤ pattern.toNat

def interval (pattern : UInt64) : Interval :=
  let f := fraction pattern
  let e := biased pattern
  if e = 0 then .of f (-1074) false
  else .of (hiddenBit + f) (e - 1075 : Int) (f == 0 && 1 < e)

end ObjectBroker.Decimal
