import Hydration.Compile.Cursor
import Mathlib.Algebra.Order.Ring.Nat

/-!
# Proofs/Counting — numbers given out in order

The compiler counts by taking the number after the last one. Once `n` numbers are given out the last
one is `last? n`, and the next is the `n`-th: `after_last?`. This holds of 32-bit words too, which
start over at zero; only reading a number back needs it to fit (`toNat_ofNat_of_lt`).

A cursor counts in the same way. `Cursor.past path i` has `i` siblings behind it, under the element
at `path`, and `visit_past`, `descend_past` and `ascend_past` say where it goes from there.
-/

namespace Hydration

namespace Counter

/-- **A counter that does not lose count**: the number after the `n`-th is the next one, also where
a bounded type starts over. -/
class Lawful (ι : Type) [Counter ι] : Prop where
  next_ofNat : ∀ n : Nat, next (ofNat n : ι) = ofNat (n + 1)

export Lawful (next_ofNat)

instance : Lawful Nat where
  next_ofNat _ := rfl

instance : Lawful UInt32 where
  next_ofNat n := by
    change UInt32.ofNat ((UInt32.ofNat n).toNat + 1) = UInt32.ofNat (n + 1)
    refine UInt32.toNat_inj.mp ?_
    rw [UInt32.toNat_ofNat', UInt32.toNat_ofNat', UInt32.toNat_ofNat', Nat.mod_add_mod]

/-- A number that fits in a word is read back. -/
theorem toNat_ofNat_of_lt {n : Nat} (h : n < 2 ^ 32) : toNat (ofNat n : UInt32) = n := by
  change (UInt32.ofNat n).toNat = n
  rw [UInt32.toNat_ofNat', Nat.mod_eq_of_lt h]

/-- …and so are all numbers of a list. -/
theorem map_toNat_map_ofNat {ns : List Nat} (h : ∀ n ∈ ns, n < 2 ^ 32) :
    (ns.map (ofNat : Nat → UInt32)).map toNat = ns := by
  rw [List.map_map]
  exact (List.map_congr_left fun n hn => toNat_ofNat_of_lt (h n hn)).trans (List.map_id ns)

/-- Naturals are their own numbers. -/
@[simp] theorem map_ofNat_nat (ns : List Nat) : ns.map (ofNat : Nat → Nat) = ns := List.map_id ns

variable {ι : Type} [Counter ι]

/-- **The number given out last**, once `n` of them are. -/
def last? : Nat → Option ι
  | 0 => none
  | n + 1 => some (ofNat n)

/-- The next number is the `n`-th. -/
@[simp] theorem after_last? [Lawful ι] (n : Nat) : after (last? n : Option ι) = ofNat n := by
  cases n with
  | zero => rfl
  | succ n => exact next_ofNat n

end Counter

namespace Cursor

open Counter

variable {ι : Type} [Counter ι]

/-- **The cursor past the first `i` children of the element at `path`.** -/
def past (path : List Nat) (i : Nat) : Cursor ι where
  current := last? i
  path := path.map ofNat

@[simp] theorem path_past (path : List Nat) (i : Nat) :
    (past path i : Cursor ι).path = path.map ofNat := rfl

@[simp] theorem visit_past [Lawful ι] (path : List Nat) (i : Nat) :
    (past path i : Cursor ι).visit = (ofNat i, past path (i + 1)) := by
  have h : after (past path i : Cursor ι).current = ofNat i := after_last? i
  simp only [visit, h]
  rfl

@[simp] theorem descend_past (path : List Nat) (i j : Nat) :
    (past path j : Cursor ι).descend (ofNat i) = past (path ++ [i]) 0 := by
  simp [past, descend, last?]

/-- **Leaving an element is having visited it**, whatever was visited inside. -/
@[simp] theorem ascend_past (path : List Nat) (i j : Nat) :
    (past (path ++ [i]) j : Cursor ι).ascend = past path (i + 1) := by
  simp [past, ascend, last?]

end Cursor

end Hydration
