/-!
# Counter — the numbers a program counts with

Sibling positions, morph numbers, element references and operand counts are all numbers of one
type `ι`. The runtime takes 32-bit words; the theory is simplest over `ℕ`. Everything that counts
is therefore written once, over any `ι` with a reading into the naturals and a way back.
-/

namespace Hydration

/-- **A counting type**: naturals go in (`ofNat`, reduced if `ι` is bounded) and come out
(`toNat`). -/
class Counter (ι : Type) where
  ofNat : Nat → ι
  toNat : ι → Nat

namespace Counter

instance : Counter Nat where
  ofNat n := n
  toNat n := n

instance : Counter UInt32 where
  ofNat := UInt32.ofNat
  toNat := UInt32.toNat

variable {ι : Type} [Counter ι]

/-- The first number. -/
def zero : ι := ofNat 0

/-- The number after `i`; a bounded type starts over at zero. -/
def next (i : ι) : ι := ofNat (toNat i + 1)

/-- The number after the last one given out, starting at zero. -/
def after : Option ι → ι
  | none => zero
  | some i => next i

@[simp] theorem toNat_nat (n : Nat) : toNat n = n := rfl

@[simp] theorem ofNat_nat (n : Nat) : (ofNat n : Nat) = n := rfl

end Counter

end Hydration
