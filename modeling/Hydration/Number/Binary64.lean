/-!
# Number/Binary64 — double-precision numbers by their bits

A number literal is never calculated with: it is read from a decimal, compared, written to a
program and printed. So a double is its 64 bits, and reading a decimal is exact arithmetic on
naturals: the quotient `num / den` is expressed in units of `2⁻¹⁰⁷⁴` (the least positive double),
shifted until its integer part has at most 53 bits, and rounded once, a half going to the even
neighbour. Shift and significand then add up to the bits.
-/

namespace Hydration

/-- **A double-precision number**, by its IEEE 754 bits: a sign, eleven bits of exponent and
fifty-two of fraction. -/
structure Binary64 where
  bits : UInt64
deriving DecidableEq, Repr

/-- The natural nearest to `num / den`; a half goes to the even neighbour. -/
def roundHalfEven (num den : Nat) : Nat :=
  let floor := num / den
  let twice := 2 * (num % den)
  if twice < den then floor
  else if den < twice then floor + 1
  else if floor % 2 = 0 then floor
  else floor + 1

/-- The number of decimal digits of `n`; zero has none. -/
def digitCount (n : Nat) : Nat :=
  if n = 0 then 0 else (Nat.toDigits 10 n).length

namespace Binary64

/-- The least positive double is two to the minus this. It stays folded, so that no proof writes a
power of it out. -/
@[irreducible] def leastExponent : Nat := 1074

/-- The bits of positive infinity, above those of every finite magnitude. -/
def infinityBits : Nat := 0x7FF * Nat.pow 2 52

/-- The bits without the sign. -/
def magnitude (x : Binary64) : Nat := x.bits.toNat % Nat.pow 2 63

/-- The sign bit is set. -/
def isNegative (x : Binary64) : Bool := Nat.pow 2 63 ≤ x.bits.toNat

/-- Not a number. -/
def isNaN (x : Binary64) : Bool := infinityBits < x.magnitude

/-- Neither infinite nor NaN. -/
def isFinite (x : Binary64) : Bool := x.magnitude < infinityBits

/-- Zero of either sign. -/
def isZero (x : Binary64) : Bool := x.magnitude == 0

/-- The double with the given sign and magnitude bits. -/
def ofParts (negative : Bool) (magnitude : Nat) : Binary64 :=
  ⟨UInt64.ofNat (magnitude + if negative then Nat.pow 2 63 else 0)⟩

/-- **Equality of numbers**: a NaN equals nothing, and the two zeros are equal. -/
def equals (x y : Binary64) : Bool :=
  (x.isZero && y.isZero) || (x.bits == y.bits && !x.isNaN)

/-- The significand and exponent of a finite magnitude: its value is `m * 2 ^ (e - leastExponent)`
for the result `(m, e)`. -/
def unpack (magnitude : Nat) : Nat × Nat :=
  let exponent := magnitude / Nat.pow 2 52
  let fraction := magnitude % Nat.pow 2 52
  if exponent = 0 then (fraction, 0) else (fraction + Nat.pow 2 52, exponent - 1)

/-- **The magnitude bits nearest to `num / den`**, for a positive `den`; a half goes to the even
neighbour. From `infinityBits` on the quotient is too large for a double. -/
def nearest (num den : Nat) : Nat :=
  let units := num * Nat.pow 2 leastExponent
  let shift := Nat.log2 (units / den) - 52
  shift * Nat.pow 2 52 + roundHalfEven units (den * Nat.pow 2 shift)

/-- **The magnitude bits nearest to `digits * 10 ^ exponent`.** A decimal whose first digit is
beyond the range of doubles is settled without writing its power of ten out. -/
def nearestDecimal (digits : Nat) (exponent : Int) : Nat :=
  let top := exponent + digitCount digits
  if digits = 0 ∨ top < -330 then 0
  else if 310 < top then infinityBits
  else if 0 ≤ exponent then nearest (digits * Nat.pow 10 exponent.toNat) 1
  else nearest digits (Nat.pow 10 (-exponent).toNat)

/-- The double nearest to a decimal, unless its magnitude is too large. -/
def ofDecimal? (negative : Bool) (digits : Nat) (exponent : Int) : Option Binary64 :=
  let magnitude := nearestDecimal digits exponent
  if magnitude < infinityBits then some (ofParts negative magnitude) else none

/-- The double nearest to an integer of at most 64 bits. -/
def ofInt (n : Int) : Binary64 :=
  ofParts (n < 0) (nearest n.natAbs 1)

end Binary64

end Hydration
