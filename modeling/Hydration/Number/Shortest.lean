import Hydration.Number.Binary64

/-!
# Number/Shortest — the fewest digits that read back

A finite double is printed with the fewest decimal digits from which it can be read back, and of
the candidates with that many digits the one nearest to it. For `1, 2, … 17` digits the two
neighbours of the double on that decimal grid are read back with `Binary64.nearestDecimal`; the
first grid with a hit settles the digits. Seventeen digits always suffice for a double, and all
digits of its exact decimal expansion stand behind them.

The digits are written positionally: no exponent, no decimal point in a whole number.
-/

namespace Hydration

/-- **A decimal**: `digits * 10 ^ exponent`. -/
structure Decimal where
  digits : Nat
  exponent : Int
deriving DecidableEq, Repr

namespace Decimal

/-- Takes zeros off the end of the digits, at most so many. -/
def trim (d : Decimal) : Nat → Decimal
  | 0 => d
  | most + 1 =>
    if d.digits ≠ 0 ∧ d.digits % 10 = 0 then trim ⟨d.digits / 10, d.exponent + 1⟩ most else d

/-- The same decimal without zeros at the end of its digits. -/
def trimmed (d : Decimal) : Decimal := d.trim (digitCount d.digits)

/-- **Positional notation**: zeros fill up to the point, and a whole number has none. -/
def render (d : Decimal) : List Char :=
  let digits := Nat.toDigits 10 d.digits
  if 0 ≤ d.exponent then
    digits ++ List.replicate d.exponent.toNat '0'
  else
    let places := (-d.exponent).toNat
    let padded := List.replicate (places + 1 - digits.length) '0' ++ digits
    let whole := padded.length - places
    padded.take whole ++ '.' :: padded.drop whole

end Decimal

namespace Binary64

/-- The exponent `p` with `10 ^ p ≤ num / den < 10 ^ (p + 1)`, for positive arguments: the
difference of the digit counts is at most one too high. -/
def decimalExponent (num den : Nat) : Int :=
  let guess : Int := (digitCount num : Int) - digitCount den
  let reached := if 0 ≤ guess then den * Nat.pow 10 guess.toNat ≤ num
    else den ≤ num * Nat.pow 10 (-guess).toNat
  if reached then guess else guess - 1

/-- A decimal reads back as a magnitude. -/
def readsAs (magnitude : Nat) (d : Decimal) : Bool :=
  nearestDecimal d.digits d.exponent == magnitude

/-- **The candidate with `count` digits**: of the two neighbours of `num / den` on the grid of
that many digits, the one that reads back as `magnitude`; if both do the nearer, and the upper of
two equally near. -/
def candidate? (magnitude num den : Nat) (top : Int) (count : Nat) : Option Decimal :=
  let exponent := top + 1 - count
  let (n, d) := if 0 ≤ exponent then (num, den * Nat.pow 10 exponent.toNat)
    else (num * Nat.pow 10 (-exponent).toNat, den)
  let lower := Decimal.trimmed ⟨n / d, exponent⟩
  let upper := Decimal.trimmed ⟨n / d + 1, exponent⟩
  let upperIsNear : Bool := d ≤ 2 * (n % d)
  if readsAs magnitude upper && (upperIsNear || !readsAs magnitude lower) then some upper
  else if readsAs magnitude lower then some lower
  else none

/-- The exact decimal expansion of a finite magnitude. -/
def expansion (magnitude : Nat) : Decimal :=
  let (m, e) := unpack magnitude
  Decimal.trimmed ⟨m * Nat.pow 2 e * Nat.pow 5 leastExponent, -leastExponent⟩

/-- **The shortest decimal that reads back as a finite magnitude.** -/
def shortest (magnitude : Nat) : Decimal :=
  if magnitude = 0 then ⟨0, 0⟩
  else
    let (m, e) := unpack magnitude
    let num := m * Nat.pow 2 e
    let den := Nat.pow 2 leastExponent
    let top := decimalExponent num den
    let found := (List.range 17).findSome? fun i => candidate? magnitude num den top (i + 1)
    found.getD (expansion magnitude)

/-- **The text of a double**: the shortest digits, positionally, after a minus sign if the sign
bit is set (of zero too). -/
def render (x : Binary64) : List Char :=
  if x.isNaN then "NaN".toList
  else
    let sign := if x.isNegative then ['-'] else []
    if x.isFinite then sign ++ (shortest x.magnitude).render
    else sign ++ "inf".toList

end Binary64

end Hydration
