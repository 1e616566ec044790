import LatticeScene.Binary32
import LatticeScene.Json.Tree

/-!
# What numbers mean and how they are spelled

A spelled number is read in one of three ways.  `int?` takes integer literals only, those
without point, exponent or signed zero.  `toBinary64?` takes any number and `toBinary32?` any
number too, going by way of binary64 unless it is an integer literal of 64 bits.

`ofNat` and `ofInt` spell integers.  `ofBinary32?` spells a finite binary32 number with its
shortest decimal digits, plainly between a millionth and ten million million, with an exponent
outside of that range.
-/

namespace LatticeScene.Json.Number

/-! ### Integers -/

/-- Whether a number has neither point nor exponent. -/
def isLiteral (n : Number) : Bool := n.fraction.isEmpty && n.exponent.isNone

/-- The value of the digits before the point. -/
def magnitude (n : Number) : Nat := Nat.ofDigitChars 10 n.whole 0

/-- The value of an integer literal.  A zero with a minus sign is none. -/
def int? (n : Number) : Option Int :=
  if n.isLiteral then
    if n.negative then (if n.magnitude = 0 then none else some (-n.magnitude))
    else some n.magnitude
  else none

/-- The value of an integer literal from zero up to `max`. -/
def natUpTo? (max : Nat) (n : Number) : Option Nat :=
  match n.int? with
  | some (.ofNat k) => if k ≤ max then some k else none
  | _ => none

/-- The value of an integer literal of 64 bits with a sign. -/
def int64? (n : Number) : Option Int :=
  match n.int? with
  | some i => if Int64.minValue.toInt ≤ i ∧ i ≤ Int64.maxValue.toInt then some i else none
  | none => none

/-- The spelling of a natural number. -/
def ofNat (k : Nat) : Number := ⟨false, Nat.toDigits 10 k, [], none⟩

/-- The spelling of an integer. -/
def ofInt (i : Int) : Number := ⟨decide (i < 0), Nat.toDigits 10 i.natAbs, [], none⟩

/-! ### Binary64

The digits of a number are taken into a significand of 64 bits while they fit.  Once a digit
before the point does not fit, it and those after it only raise the exponent; once a digit after
the point does not fit, it and those after it count for nothing.  The significand is rounded to
binary64 and then multiplied or divided by a power of ten.
-/

/-- A significand with one more digit, if it still has 64 bits. -/
def pushDigit? (significand : Nat) (c : Char) : Option Nat :=
  let next := 10 * significand + (c.toNat - '0'.toNat)
  if next < UInt64.size then some next else none

/-- Take digits before the point.  Gives the significand and the number of digits left out. -/
def takeWhole (significand : Nat) : List Char → Nat × Nat
  | [] => (significand, 0)
  | c :: cs =>
    match pushDigit? significand c with
    | some next => takeWhole next cs
    | none => (significand, cs.length + 1)

/-- Take digits after the point, when `taken` of them are in already.  Gives the significand and
the number of digits taken. -/
def takeFraction (significand taken : Nat) : List Char → Nat × Nat
  | [] => (significand, taken)
  | c :: cs =>
    match pushDigit? significand c with
    | some next => takeFraction next (taken + 1) cs
    | none => (significand, taken)

/-- The largest power of ten that binary64 holds. -/
def maxPowerOfTen : Nat := 308

/-- A power of ten. -/
def powerOfTen (e : Nat) : Float := OfScientific.ofScientific 1 false e

/-- `x * 10 ^ e`, with one multiplication or as few divisions as possible.  A product that is
not finite has no value; a quotient may come down to zero. -/
def scale? (x : Float) (e : Int) : Option Float :=
  if 0 ≤ e then
    if e ≤ maxPowerOfTen then
      let product := x * powerOfTen e.toNat
      if product.isInf then none else some product
    else if x == 0 then some x else none
  else if -maxPowerOfTen ≤ e then some (x / powerOfTen (-e).toNat)
  else if x == 0 then some x
  else scale? (x / powerOfTen maxPowerOfTen) (e + maxPowerOfTen)
termination_by (-e).toNat
decreasing_by simp only [maxPowerOfTen] at *; omega

/-- The value of an exponent, zero where none is written. -/
def exponentValue (n : Number) : Int :=
  match n.exponent with
  | none => 0
  | some e =>
    let value : Nat := Nat.ofDigitChars 10 e.digits 0
    if e.negative then -(value : Int) else value

/-- The binary64 value of a number, none when it is too large for one. -/
def toBinary64? (n : Number) : Option Float := do
  let (significand, leftOut) := takeWhole 0 n.whole
  let (significand, taken) := takeFraction significand 0 n.fraction
  let x ← scale? significand.toUInt64.toFloat (leftOut - taken + n.exponentValue)
  some (if n.negative then -x else x)

/-! ### Binary32 -/

/-- Whether a number is an integer literal that 64 bits hold, with a sign if it has one. -/
def isLiteral64 (n : Number) : Bool :=
  n.isLiteral && (if n.negative then n.magnitude ≤ 1 <<< 63 else n.magnitude < UInt64.size)

/-- The binary32 value of a number.  Integer literals of 64 bits are rounded once and all other
numbers by way of binary64, so that only a number too large for binary64 has no value. -/
def toBinary32? (n : Number) : Option Float32 :=
  if n.isLiteral64 then some (Binary32.nearest n.negative n.magnitude 0)
  else n.toBinary64?.map Binary32.ofBinary64

/-- Decimals with the point at most this many places to the right of their first digit are
spelled plainly. -/
def maxPlainPoint : Int := 13

/-- Decimals with the point more than this many places to the left of their first digit are
spelled with an exponent. -/
def minPlainPoint : Int := -5

/-- The spelling of a decimal: at least one digit after the point in plain notation, and no
point after a single digit in front of an exponent. -/
def ofDecimal (negative : Bool) (d : Binary32.Decimal) : Number :=
  let digits := Nat.toDigits 10 d.digits
  let point : Int := digits.length + d.exponent
  if minPlainPoint ≤ point ∧ point ≤ maxPlainPoint then
    if 0 ≤ d.exponent then
      ⟨negative, digits ++ List.replicate d.exponent.toNat '0', ['0'], none⟩
    else if 0 < point then
      ⟨negative, digits.take point.toNat, digits.drop point.toNat, none⟩
    else ⟨negative, ['0'], List.replicate (-point).toNat '0' ++ digits, none⟩
  else
    ⟨negative, digits.take 1, digits.drop 1,
      some ⟨decide (point - 1 < 0), Nat.toDigits 10 (point - 1).natAbs⟩⟩

/-- The spelling of a finite binary32 number with its shortest decimal digits. -/
def ofBinary32? (x : Float32) : Option Number :=
  (Binary32.parts? x).map fun p =>
    if p.mantissa = 0 then ⟨p.negative, ['0'], ['0'], none⟩
    else ofDecimal p.negative (Binary32.Shortest.ofParts p.mantissa p.exponent)

end LatticeScene.Json.Number
