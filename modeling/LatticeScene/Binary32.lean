/-!
# Binary32 numbers

The positions and sizes of a scene are binary32 numbers.  This module rounds to them, and finds the
decimals that spell them.
-/

namespace LatticeScene.Binary32

/-!
## Rounding to binary32

The positions and sizes of a scene are binary32 numbers.  `nearest` rounds a magnitude
`m * 2 ^ e` to the nearest of them, with ties to the even mantissa, `ofBinary64` narrows a
binary64 number in the same way, and `parts?` takes a finite number apart again.

`ceilCount` rounds up to a count: the least natural number that is not below the given one,
held in 32 bits.
-/

/-- The least exponent of a unit in the last place. -/
def minExponent : Int := -149

/-- The bits of positive infinity. -/
def infinityBits : Nat := 0x7F800000

/-- Positive infinity. -/
def infinity : Float32 := Float32.ofBits 0x7F800000

/-- Negative infinity. -/
def negInfinity : Float32 := Float32.ofBits 0xFF800000

/-- `m / 2 ^ s` rounded to the nearest integer, a tie to the even one. -/
def shiftNearest (m s : Nat) : Nat :=
  let q := m >>> s
  let r := m % (1 <<< s)
  if 2 * r > 1 <<< s ∨ (2 * r = 1 <<< s ∧ q % 2 = 1) then q + 1 else q

/-- The bits of the binary32 number nearest to `m * 2 ^ e`.  The mantissa gets 24 bits, fewer
when its last place would lie below `minExponent`, and a magnitude that rounds beyond the
largest finite number becomes infinity. -/
def nearestBits (m : Nat) (e : Int) : Nat :=
  if m = 0 then 0
  else
    let exponent := max (e + m.log2 - 23) minExponent
    let mantissa :=
      if exponent ≤ e then m <<< (e - exponent).toNat
      else shiftNearest m (exponent - e).toNat
    min (((exponent - minExponent).toNat <<< 23) + mantissa) infinityBits

/-- The binary32 number nearest to `m * 2 ^ e`, with the given sign. -/
def nearest (negative : Bool) (m : Nat) (e : Int) : Float32 :=
  Float32.ofBits (nearestBits m e + if negative then 1 <<< 31 else 0).toUInt32

/-- The binary32 number nearest to a binary64 number. -/
def ofBinary64 (x : Float) : Float32 :=
  let bits : Nat := x.toBits.toNat
  let negative := decide (1 <<< 63 ≤ bits)
  let exponent : Nat := (bits >>> 52) % (1 <<< 11)
  let fraction : Nat := bits % (1 <<< 52)
  if exponent = 2047 then
    if fraction = 0 then (if negative then negInfinity else infinity)
    else Float32.ofBits 0x7FC00000
  else if exponent = 0 then nearest negative fraction (-1074)
  else nearest negative ((1 <<< 52) + fraction) ((exponent : Int) - 1075)

/-- A finite binary32 number as `mantissa * 2 ^ exponent` with a sign. -/
structure Parts where
  /-- Whether the sign bit is set. -/
  negative : Bool
  /-- The mantissa, below `2 ^ 24`. -/
  mantissa : Nat
  /-- The exponent of the mantissa's last place. -/
  exponent : Int
deriving DecidableEq, Repr

/-- The parts of a finite number.  An infinity or a NaN has none. -/
def parts? (x : Float32) : Option Parts :=
  let bits : Nat := x.toBits.toNat
  let negative := decide (1 <<< 31 ≤ bits)
  let exponent : Nat := (bits >>> 23) % (1 <<< 8)
  let fraction : Nat := bits % (1 <<< 23)
  if exponent = 255 then none
  else if exponent = 0 then some ⟨negative, fraction, minExponent⟩
  else some ⟨negative, (1 <<< 23) + fraction, (exponent : Int) - 1 + minExponent⟩

/-- The largest count that fits in 32 bits. -/
def maxCount : Nat := UInt32.size - 1

/-- The least natural number not below `m * 2 ^ e`. -/
def ceilScaled (m : Nat) (e : Int) : Nat :=
  if 0 ≤ e then m <<< e.toNat else (m + (1 <<< (-e).toNat - 1)) >>> (-e).toNat

/-- The least count not below `x`, at most `maxCount`.  Nothing that is not above zero counts,
and neither does a NaN. -/
def ceilCount (x : Float32) : Nat :=
  if 0 < x then
    match parts? x with
    | some p => min (ceilScaled p.mantissa p.exponent) maxCount
    | none => maxCount
  else 0

/-!
## Shortest decimal digits

Every finite binary32 number above zero is the nearest one to each real number of an interval
around it.  `Shortest.ofParts` finds the decimals with the fewest digits in that interval, and
among them the one closest to the number.

A decimal `digits * 10 ^ exponent` is sought for one exponent after the other, from the largest
downwards.  For a given exponent only the two neighbours of the number on the grid of multiples
of `10 ^ exponent` have to be tried: if any point of the grid lies in the interval, so does one
of them.
-/

/-- The decimal `digits * 10 ^ exponent`. -/
structure Decimal where
  digits : Nat
  exponent : Int
deriving DecidableEq, Repr

namespace Shortest

/-- The interval of real numbers that round to a number, measured in units of
`10 ^ exponent / scale`. -/
structure Interval where
  /-- The number itself. -/
  center : Nat
  /-- The lower end. -/
  lower : Nat
  /-- The upper end. -/
  upper : Nat
  /-- Whether the ends belong to the interval. -/
  closed : Bool
  /-- How many units make one step of the decimal grid. -/
  scale : Nat

/-- The interval of `m * 2 ^ e` on the grid of multiples of `10 ^ k`.  It ends halfway to the
neighbouring numbers, which below a power of two are only half as far, and its ends round to the
number itself when its mantissa is even. -/
def interval (m : Nat) (e k : Int) : Interval :=
  let unit := Nat.pow 10 (-k).toNat <<< (e - 2).toNat
  let gapBelow := if m = 1 <<< 23 ∧ minExponent < e then 1 else 2
  { center := 4 * m * unit
    lower := (4 * m - gapBelow) * unit
    upper := (4 * m + 2) * unit
    closed := m % 2 == 0
    scale := Nat.pow 10 k.toNat <<< (2 - e).toNat }

/-- Whether the grid point with number `n` lies in the interval. -/
def Interval.contains (i : Interval) (n : Nat) : Bool :=
  let point := n * i.scale
  if i.closed then i.lower ≤ point && point ≤ i.upper else i.lower < point && point < i.upper

/-- The grid point of the interval that is closest to its centre, the even one of two that are
equally close. -/
def Interval.closest? (i : Interval) : Option Nat :=
  let below := i.center / i.scale
  let above := below + 1
  match i.contains below, i.contains above with
  | false, false => none
  | true, false => some below
  | false, true => some above
  | true, true =>
    let fromBelow := i.center - below * i.scale
    let toAbove := above * i.scale - i.center
    if fromBelow < toAbove ∨ (fromBelow = toAbove ∧ below % 2 = 0) then some below
    else some above

/-- The largest power of ten that any binary32 number may need. -/
def maxDecimalExponent : Nat := 39

/-- The shortest decimal of `m * 2 ^ e`.  At the exponent `min e 0` the number itself is a point
of the grid, so the search ends there at the latest. -/
def ofParts (m : Nat) (e : Int) : Decimal :=
  let last := min e 0
  let exponents :=
    (List.range (maxDecimalExponent + last.natAbs + 1)).map fun (i : Nat) =>
      (maxDecimalExponent : Int) - i
  let found? := exponents.findSome? fun k =>
    (interval m e k).closest?.bind fun n => if n = 0 then none else some ⟨n, k⟩
  found?.getD ⟨m, 0⟩

end Shortest

end LatticeScene.Binary32
