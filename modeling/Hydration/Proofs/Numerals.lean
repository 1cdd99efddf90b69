import Hydration.Number.Shortest
import Mathlib.Algebra.Order.Ring.Nat
import Mathlib.Data.List.TakeWhile
import Mathlib.Tactic.Ring

/-!
# Proofs/Numerals — a double is known by its text

The text of a finite double is a decimal that reads back as its magnitude: the candidates that
`shortest` goes through are checked, and the exact expansion behind them is rounded to where it came
from (`nearest_unpack`). How a decimal is rounded depends on its value alone, not on how many zeros
stand at the end of its digits (`nearestDecimal_mul_ten`), so it can be told from its text, and with
it the double (`render_injective`).
-/

namespace Hydration

/-! ## Rounding quotients -/

theorem roundHalfEven_mul {c : Nat} (hc : 0 < c) (num den : Nat) :
    roundHalfEven (num * c) (den * c) = roundHalfEven num den := by
  have hl : 2 * (num % den * c) < den * c ↔ 2 * (num % den) < den := by
    rw [← Nat.mul_assoc, Nat.mul_lt_mul_right hc]
  have hr : den * c < 2 * (num % den * c) ↔ den < 2 * (num % den) := by
    rw [← Nat.mul_assoc, Nat.mul_lt_mul_right hc]
  simp only [roundHalfEven, Nat.mul_div_mul_right num den hc, Nat.mul_mod_mul_right, hl, hr]

theorem roundHalfEven_one (n : Nat) : roundHalfEven n 1 = n := by
  simp [roundHalfEven, Nat.mod_one]

namespace Binary64

/-- **Rounding depends on the quotient alone.** -/
theorem nearest_mul {c : Nat} (hc : 0 < c) (num den : Nat) :
    nearest (num * c) (den * c) = nearest num den := by
  have hp (n k : Nat) : n * c * Nat.pow 2 k = n * Nat.pow 2 k * c := Nat.mul_right_comm ..
  simp only [nearest, hp, Nat.mul_div_mul_right _ _ hc, roundHalfEven_mul hc]

/-! ### Magnitudes -/

/-- **A magnitude is its significand on top of its exponent**, and the significand has all its bits
unless the exponent is least. -/
theorem unpack_spec (magnitude : Nat) {s e : Nat} (h : unpack magnitude = (s, e)) :
    s < 2 ^ 53 ∧ (e = 0 ∨ 2 ^ 52 ≤ s) ∧ e * 2 ^ 52 + s = magnitude := by
  have hdiv := Nat.div_add_mod magnitude (2 ^ 52)
  have hmod : magnitude % 2 ^ 52 < 2 ^ 52 := Nat.mod_lt _ (by decide)
  change (if magnitude / 2 ^ 52 = 0 then (magnitude % 2 ^ 52, 0)
    else (magnitude % 2 ^ 52 + 2 ^ 52, magnitude / 2 ^ 52 - 1)) = (s, e) at h
  split at h
  next hz =>
    obtain ⟨rfl, rfl⟩ := Prod.mk.inj h
    rw [hz] at hdiv
    omega
  next hz =>
    obtain ⟨rfl, rfl⟩ := Prod.mk.inj h
    omega

/-- A significand with all its bits, or one on the least exponent, is not shifted further. -/
theorem log2_mul_two_pow {s e : Nat} (hs : s ≠ 0) (hlt : s < 2 ^ 53) (hfull : e = 0 ∨ 2 ^ 52 ≤ s) :
    Nat.log2 (s * 2 ^ e) - 52 = e := by
  rcases hfull with rfl | hfull
  · have hl : Nat.log2 s < 53 := (Nat.log2_lt hs).mpr hlt
    rw [Nat.pow_zero, Nat.mul_one]
    omega
  · have hl : Nat.log2 (s * 2 ^ e) = 52 + e := by
      refine (Nat.log2_eq_iff (Nat.mul_ne_zero hs (Nat.two_pow_pos e).ne')).mpr ⟨?_, ?_⟩
      · rw [Nat.pow_add]
        exact Nat.mul_le_mul_right _ hfull
      · rw [Nat.add_right_comm, Nat.pow_add]
        exact Nat.mul_lt_mul_of_pos_right hlt (Nat.two_pow_pos e)
    omega

/-- **The value of a magnitude is rounded to that magnitude.** -/
theorem nearest_unpack {magnitude s e : Nat} (h : unpack magnitude = (s, e)) (hs : s ≠ 0) :
    nearest (s * Nat.pow 2 e) (Nat.pow 2 leastExponent) = magnitude := by
  obtain ⟨hlt, hfull, hsum⟩ := unpack_spec magnitude h
  -- The value is so many units, and it does not matter how small a unit is.
  have hunits (unit : Nat) (hpos : 0 < unit) :
      (Nat.log2 (s * 2 ^ e * unit / unit) - 52) * 2 ^ 52 +
        roundHalfEven (s * 2 ^ e * unit)
          (unit * 2 ^ (Nat.log2 (s * 2 ^ e * unit / unit) - 52)) = magnitude := by
    have hround : roundHalfEven (s * 2 ^ e * unit) (unit * 2 ^ e) = s := by
      rw [Nat.mul_comm unit, roundHalfEven_mul hpos]
      have hone := roundHalfEven_mul (Nat.two_pow_pos e) s 1
      rwa [Nat.one_mul, roundHalfEven_one] at hone
    rw [Nat.mul_div_cancel _ hpos, log2_mul_two_pow hs hlt hfull, hround, hsum]
  exact hunits (Nat.pow 2 leastExponent) (Nat.pow_pos Nat.two_pos)

/-! ### Decimals -/

theorem digitCount_of_ne_zero {n : Nat} (hn : n ≠ 0) :
    digitCount n = (Nat.toDigits 10 n).length := if_neg hn

theorem digitCount_le_iff {n k : Nat} (hn : n ≠ 0) (hk : 0 < k) :
    digitCount n ≤ k ↔ n < 10 ^ k := by
  rw [digitCount_of_ne_zero hn, Nat.length_toDigits_le_iff (by decide) hk]

/-- A zero at the end is a digit more. -/
theorem digitCount_mul_ten {n : Nat} (hn : n ≠ 0) : digitCount (n * 10) = digitCount n + 1 := by
  have hdigits : Nat.toDigits 10 (n * 10) = Nat.toDigits 10 n ++ [Nat.digitChar 0] := by
    rw [Nat.toDigits_of_base_le (by decide) (by omega), Nat.mul_div_cancel _ (by decide),
      Nat.mul_mod_left]
  rw [digitCount_of_ne_zero hn, digitCount_of_ne_zero (by omega), hdigits, List.length_append,
    List.length_singleton]

/-- The magnitude nearest to `digits * 10 ^ exponent`, the power of ten written out. -/
def nearestScaled (digits : Nat) (exponent : Int) : Nat :=
  if 0 ≤ exponent then nearest (digits * Nat.pow 10 exponent.toNat) 1
  else nearest digits (Nat.pow 10 (-exponent).toNat)

theorem nearestScaled_mul_ten (digits : Nat) (exponent : Int) :
    nearestScaled (digits * 10) exponent = nearestScaled digits (exponent + 1) := by
  have hten (n : Nat) : Nat.pow 10 (n + 1) = Nat.pow 10 n * 10 := rfl
  unfold nearestScaled
  by_cases hn : 0 ≤ exponent
  · rw [if_pos hn, if_pos (by omega), show (exponent + 1).toNat = exponent.toNat + 1 by omega,
      hten, Nat.mul_assoc, Nat.mul_comm 10]
  · rw [if_neg hn, show (-exponent).toNat = (-(exponent + 1)).toNat + 1 by omega, hten,
      nearest_mul (by decide)]
    split
    next hz =>
      rw [show exponent + 1 = 0 by omega]
      change nearest digits 1 = nearest (digits * 1) 1
      rw [Nat.mul_one]
    next => rfl

/-- Tenths of fives are halves. -/
theorem nearestScaled_mul_five (digits k : Nat) :
    nearestScaled (digits * Nat.pow 5 k) (-(k : Int)) = nearest digits (Nat.pow 2 k) := by
  unfold nearestScaled
  split
  next hk =>
    obtain rfl : k = 0 := by omega
    change nearest (digits * 1 * 1) 1 = nearest digits 1
    rw [Nat.mul_one, Nat.mul_one]
  next =>
    have hten : Nat.pow 10 k = Nat.pow 2 k * Nat.pow 5 k := Nat.mul_pow 2 5 k
    have hfive : 0 < Nat.pow 5 k := Nat.pow_pos (by decide)
    rw [Int.neg_neg, Int.toNat_natCast, hten, nearest_mul hfive]

/-- Within the range of doubles the power of ten is written out. -/
theorem nearestDecimal_of_ne_zero {digits : Nat} (hd : digits ≠ 0) (exponent : Int) :
    nearestDecimal digits exponent =
      if exponent + digitCount digits < -330 then 0
      else if 310 < exponent + digitCount digits then infinityBits
      else nearestScaled digits exponent := by
  simp [nearestDecimal, nearestScaled, hd]

/-- **A zero at the end of the digits does not change what a decimal is rounded to**, if the
exponent makes up for it. -/
theorem nearestDecimal_mul_ten (digits : Nat) (exponent : Int) :
    nearestDecimal (digits * 10) exponent = nearestDecimal digits (exponent + 1) := by
  by_cases hd : digits = 0
  · simp [nearestDecimal, hd]
  · have htop : exponent + (digitCount (digits * 10) : Int) = exponent + 1 + digitCount digits := by
      rw [digitCount_mul_ten hd]
      omega
    rw [nearestDecimal_of_ne_zero hd, nearestDecimal_of_ne_zero (by omega), htop,
      nearestScaled_mul_ten]

theorem nearestDecimal_mul_pow (digits k : Nat) (exponent : Int) :
    nearestDecimal (digits * 10 ^ k) exponent = nearestDecimal digits (exponent + k) := by
  induction k generalizing exponent with
  | zero => simp
  | succ k ih =>
    rw [Nat.pow_succ, ← Nat.mul_assoc, nearestDecimal_mul_ten, ih]
    congr 1
    omega

/-- **A decimal without its zeros at the end is rounded in the same way.** -/
theorem nearestDecimal_trim (d : Decimal) (most : Nat) :
    nearestDecimal (d.trim most).digits (d.trim most).exponent =
      nearestDecimal d.digits d.exponent := by
  induction most generalizing d with
  | zero => rfl
  | succ most ih =>
    rw [Decimal.trim]
    split
    next h => rw [ih, ← nearestDecimal_mul_ten, Nat.div_mul_cancel (Nat.dvd_of_mod_eq_zero h.2)]
    next => rfl

/-! ### Reading back -/

/-- The exact expansion of a magnitude, before its zeros at the end are dropped, is within the range
of doubles. -/
theorem digitCount_expansion {s e : Nat} (hs : s ≠ 0) (hlt : s < 2 ^ 53) (he : e < 2046) :
    744 ≤ digitCount (s * Nat.pow 2 e * Nat.pow 5 leastExponent) ∧
      digitCount (s * Nat.pow 2 e * Nat.pow 5 leastExponent) ≤ 1384 := by
  have hfive : 10 ^ 743 ≤ Nat.pow 5 leastExponent := by decide +kernel
  have hlast := Nat.pow_le_pow_right Nat.two_pos he.le
  -- The power is a bound only: under a name it is not multiplied out.
  obtain ⟨top, htop, hten⟩ :
      ∃ top, 2 ^ e ≤ top ∧ 2 ^ 53 * top * Nat.pow 5 leastExponent < 10 ^ 1384 :=
    ⟨_, hlast, by decide +kernel⟩
  generalize Nat.pow 5 leastExponent = fives at hfive hten ⊢
  have hpos : 0 < s * Nat.pow 2 e := Nat.mul_pos (Nat.pos_of_ne_zero hs) (Nat.pow_pos Nat.two_pos)
  have hlow : fives ≤ s * Nat.pow 2 e * fives := Nat.le_mul_of_pos_left fives hpos
  have hhigh : s * Nat.pow 2 e * fives ≤ 2 ^ 53 * top * fives :=
    Nat.mul_le_mul_right _ (Nat.mul_le_mul hlt.le htop)
  have hne : s * Nat.pow 2 e * fives ≠ 0 :=
    (Nat.lt_of_lt_of_le (Nat.lt_of_lt_of_le (Nat.pow_pos (by decide)) hfive) hlow).ne'
  constructor
  · by_contra hfew
    have hless := (digitCount_le_iff hne (by decide)).mp (Nat.le_of_lt_succ (Nat.lt_of_not_le hfew))
    exact absurd hless (Nat.not_lt.mpr (Nat.le_trans hfive hlow))
  · exact (digitCount_le_iff hne (by decide)).mpr (Nat.lt_of_le_of_lt hhigh hten)

/-- **The exact expansion of a magnitude reads back.** -/
theorem nearestDecimal_expansion {magnitude : Nat} (hz : magnitude ≠ 0)
    (hf : magnitude < infinityBits) :
    nearestDecimal (expansion magnitude).digits (expansion magnitude).exponent = magnitude := by
  obtain ⟨⟨s, e⟩, hu⟩ : ∃ u, unpack magnitude = u := ⟨_, rfl⟩
  obtain ⟨hlt, hfull, hsum⟩ := unpack_spec magnitude hu
  have hs : s ≠ 0 := by omega
  have he : e < 2046 := by
    have hf : magnitude < 0x7FF * 2 ^ 52 := hf
    omega
  obtain ⟨hlow, hhigh⟩ := digitCount_expansion hs hlt he
  have hleast : leastExponent = 1074 := by rw [leastExponent]
  have hne : s * Nat.pow 2 e * Nat.pow 5 leastExponent ≠ 0 := by
    intro hz
    rw [hz] at hlow
    exact absurd hlow (by decide)
  rw [expansion, hu]
  simp only [Decimal.trimmed, nearestDecimal_trim]
  rw [nearestDecimal_of_ne_zero hne, if_neg (by omega), if_neg (by omega), nearestScaled_mul_five,
    nearest_unpack hu hs]

/-- Whichever of two decimals is chosen, it was read back before. -/
theorem readsAs_of_choice {magnitude : Nat} {lower upper d : Decimal} {upperIsNear : Bool}
    (h : (if readsAs magnitude upper && (upperIsNear || !readsAs magnitude lower) then some upper
      else if readsAs magnitude lower then some lower else none) = some d) :
    readsAs magnitude d = true := by
  split at h
  next hupper =>
    rw [← Option.some.inj h]
    exact (Bool.and_eq_true_iff.mp hupper).1
  next =>
    split at h
    next hlower => rwa [← Option.some.inj h]
    next => cases h

theorem readsAs_candidate {magnitude num den count : Nat} {top : Int} {d : Decimal}
    (h : candidate? magnitude num den top count = some d) : readsAs magnitude d = true :=
  readsAs_of_choice h

/-- **The shortest decimal of a finite magnitude reads back.** -/
theorem nearestDecimal_shortest {magnitude : Nat} (hf : magnitude < infinityBits) :
    nearestDecimal (shortest magnitude).digits (shortest magnitude).exponent = magnitude := by
  by_cases hz : magnitude = 0
  · subst hz
    simp [shortest, nearestDecimal]
  · rw [shortest, if_neg hz]
    simp only
    cases hfound : (List.range 17).findSome? _ with
    | none =>
      rw [Option.getD_none]
      exact nearestDecimal_expansion hz hf
    | some d =>
      obtain ⟨i, -, hi⟩ := List.exists_of_findSome?_eq_some hfound
      rw [Option.getD_some]
      exact beq_iff_eq.mp (readsAs_candidate hi)

end Binary64

/-! ## Texts -/

namespace Decimal

open Binary64

/-- **The decimal that a positional notation stands for**: its digits in a row, and as many decimal
places as there are digits behind the point. -/
def ofText (text : List Char) : Decimal where
  digits := Nat.ofDigitChars 10 (text.filter (· ≠ '.')) 0
  exponent := -((text.dropWhile (· ≠ '.')).tail.length : Int)

theorem isDigit_of_mem_fill {n k : Nat} {c : Char}
    (hc : c ∈ List.replicate k '0' ++ Nat.toDigits 10 n) : c.isDigit = true := by
  rcases List.mem_append.mp hc with hc | hc
  · rw [List.eq_of_mem_replicate hc]
    decide
  · exact Nat.isDigit_of_mem_toDigits (by decide) (by decide) hc

theorem ne_point_of_isDigit {c : Char} (hc : c.isDigit = true) : c ≠ '.' := by
  rintro rfl
  exact absurd hc (by decide)

/-- Digits in a row are a whole number. -/
theorem ofText_digits {text : List Char} (h : ∀ c ∈ text, c.isDigit = true) :
    ofText text = ⟨Nat.ofDigitChars 10 text 0, 0⟩ := by
  have hp : ∀ c ∈ text, decide (c ≠ '.') = true := fun c hc =>
    decide_eq_true (ne_point_of_isDigit (h c hc))
  rw [ofText, List.filter_eq_self.mpr hp, List.dropWhile_eq_nil_iff.mpr hp]
  rfl

/-- Digits with a point in them are so many decimal places. -/
theorem ofText_point {text : List Char} (h : ∀ c ∈ text, c.isDigit = true) (whole : Nat) :
    ofText (text.take whole ++ '.' :: text.drop whole) =
      ⟨Nat.ofDigitChars 10 text 0, -((text.length - whole : Nat) : Int)⟩ := by
  have hp : ∀ c ∈ text, decide (c ≠ '.') = true := fun c hc =>
    decide_eq_true (ne_point_of_isDigit (h c hc))
  rw [ofText, List.filter_append, List.filter_cons_of_neg (by decide), ← List.filter_append,
    List.take_append_drop, List.filter_eq_self.mpr hp,
    List.dropWhile_append_of_pos fun c hc => hp c (List.mem_of_mem_take hc),
    List.dropWhile_cons_of_neg (by decide), List.tail_cons, List.length_drop]

/-- **A decimal can be told from its text**, as far as it is rounded. -/
theorem nearestDecimal_ofText (d : Decimal) :
    nearestDecimal (ofText d.render).digits (ofText d.render).exponent =
      nearestDecimal d.digits d.exponent := by
  obtain ⟨digits, exponent⟩ := d
  rw [render]
  dsimp only
  split
  next he =>
    have hd : ∀ c ∈ Nat.toDigits 10 digits ++ List.replicate exponent.toNat '0',
        c.isDigit = true := fun c hc =>
      isDigit_of_mem_fill (List.mem_append.mpr (List.mem_append.mp hc).symm)
    rw [ofText_digits hd, Nat.ofDigitChars_append, Nat.ofDigitChars_replicate_zero,
      Nat.ofDigitChars_ten_toDigits, Nat.mul_comm, nearestDecimal_mul_pow, Int.zero_add,
      Int.toNat_of_nonneg he]
  next he =>
    generalize hp : List.replicate ((-exponent).toNat + 1 - (Nat.toDigits 10 digits).length) '0' ++
      Nat.toDigits 10 digits = padded
    have hd : ∀ c ∈ padded, c.isDigit = true := fun c hc => isDigit_of_mem_fill (hp ▸ hc)
    have hlength : (-exponent).toNat ≤ padded.length := by
      rw [← hp, List.length_append, List.length_replicate]
      omega
    have hvalue : Nat.ofDigitChars 10 padded 0 = digits := by
      rw [← hp, Nat.ofDigitChars_append, Nat.ofDigitChars_replicate_zero, Nat.mul_zero,
        Nat.ofDigitChars_ten_toDigits]
    rw [ofText_point hd, hvalue]
    dsimp only
    congr 1
    omega

/-- The text of a decimal has digits and a point. -/
theorem isDigit_or_of_mem_render {d : Decimal} {c : Char} (hc : c ∈ d.render) :
    c.isDigit = true ∨ c = '.' := by
  rw [render] at hc
  dsimp only at hc
  split at hc
  next => exact .inl (isDigit_of_mem_fill (List.mem_append.mpr (List.mem_append.mp hc).symm))
  next =>
    rcases List.mem_append.mp hc with hc | hc
    · exact .inl (isDigit_of_mem_fill (List.mem_of_mem_take hc))
    · rcases List.mem_cons.mp hc with hc | hc
      · exact .inr hc
      · exact .inl (isDigit_of_mem_fill (List.mem_of_mem_drop hc))

theorem render_ne_nil (d : Decimal) : d.render ≠ [] := by
  rw [render]
  dsimp only
  split
  next => exact List.append_ne_nil_of_left_ne_nil Nat.toDigits_ne_nil _
  next => exact List.append_ne_nil_of_right_ne_nil _ (by simp)

end Decimal

namespace Binary64

/-- The text of a magnitude that is a number. -/
def spelling (magnitude : Nat) : List Char :=
  if magnitude < infinityBits then (shortest magnitude).render else "inf".toList

theorem render_of_not_isNaN {x : Binary64} (hx : x.isNaN = false) :
    x.render = (if x.isNegative then ['-'] else []) ++ spelling x.magnitude := by
  by_cases hf : x.magnitude < infinityBits <;> simp [render, hx, isFinite, spelling, hf]

/-- A double that is a number is at most infinite. -/
theorem magnitude_le_of_not_isNaN {x : Binary64} (hx : x.isNaN = false) :
    x.magnitude ≤ infinityBits :=
  Nat.le_of_not_lt (of_decide_eq_false hx)

/-- The text of a magnitude has digits, a point, and the letters of infinity. -/
theorem isDigit_or_of_mem_spelling {magnitude : Nat} {c : Char} (hc : c ∈ spelling magnitude) :
    c.isDigit = true ∨ c ∈ ".inf".toList := by
  rw [spelling] at hc
  split at hc
  next =>
    rcases Decimal.isDigit_or_of_mem_render hc with hc | rfl
    · exact .inl hc
    · exact .inr (by decide)
  next => exact .inr (List.mem_cons_of_mem '.' hc)

theorem minus_not_mem_spelling (magnitude : Nat) : '-' ∉ spelling magnitude := fun h => by
  rcases isDigit_or_of_mem_spelling h with h | h <;> exact absurd h (by decide)

/-- **The magnitude can be told from its text.** -/
theorem spelling_injective {m n : Nat} (hm : m ≤ infinityBits) (hn : n ≤ infinityBits)
    (h : spelling m = spelling n) : m = n := by
  have hletter (k : Nat) : 'i' ∉ (shortest k).render := fun hi => by
    rcases Decimal.isDigit_or_of_mem_render hi with hi | hi <;> exact absurd hi (by decide)
  have hinf : 'i' ∈ "inf".toList := by decide
  by_cases hfm : m < infinityBits <;> by_cases hfn : n < infinityBits
  · rw [spelling, if_pos hfm, spelling, if_pos hfn] at h
    rw [← nearestDecimal_shortest hfm, ← nearestDecimal_shortest hfn,
      ← Decimal.nearestDecimal_ofText, h, Decimal.nearestDecimal_ofText]
  · rw [spelling, if_pos hfm, spelling, if_neg hfn] at h
    exact absurd (h ▸ hinf) (hletter m)
  · rw [spelling, if_neg hfm, spelling, if_pos hfn] at h
    exact absurd (h ▸ hinf) (hletter n)
  · exact (Nat.le_antisymm hm (Nat.le_of_not_lt hfm)).trans
      (Nat.le_antisymm hn (Nat.le_of_not_lt hfn)).symm

/-- A double is its sign and its magnitude. -/
theorem eq_of_parts {x y : Binary64} (hs : x.isNegative = y.isNegative)
    (hm : x.magnitude = y.magnitude) : x = y := by
  obtain ⟨x⟩ := x
  obtain ⟨y⟩ := y
  have hs : 2 ^ 63 ≤ x.toNat ↔ 2 ^ 63 ≤ y.toNat := decide_eq_decide.mp hs
  have hm : x.toNat % 2 ^ 63 = y.toNat % 2 ^ 63 := hm
  have hx := x.toNat_lt
  have hy := y.toNat_lt
  exact congrArg Binary64.mk (UInt64.toNat_inj.mp (by omega))

/-- **A double that is a number can be told from its text.** -/
theorem render_injective {x y : Binary64} (hx : x.isNaN = false) (hy : y.isNaN = false)
    (h : x.render = y.render) : x = y := by
  rw [render_of_not_isNaN hx, render_of_not_isNaN hy] at h
  have hsign : x.isNegative = y.isNegative := by
    have hmem : '-' ∈ (if x.isNegative then ['-'] else []) ++ spelling x.magnitude ↔
        '-' ∈ (if y.isNegative then ['-'] else []) ++ spelling y.magnitude := by rw [h]
    simpa [minus_not_mem_spelling] using hmem
  rw [hsign] at h
  exact eq_of_parts hsign (spelling_injective (magnitude_le_of_not_isNaN hx)
    (magnitude_le_of_not_isNaN hy) (List.append_cancel_left h))

/-- The text of a double has digits, a point, a minus sign, and the letters of infinity and NaN. -/
theorem isDigit_or_of_mem_render {x : Binary64} {c : Char} (hc : c ∈ x.render) :
    c.isDigit = true ∨ c ∈ "-.infNaN".toList := by
  cases hx : x.isNaN with
  | true =>
    rw [render, if_pos hx] at hc
    exact .inr (List.mem_append_right "-.inf".toList hc)
  | false =>
    rw [render_of_not_isNaN hx] at hc
    rcases List.mem_append.mp hc with hc | hc
    · split at hc
      · exact .inr (List.mem_append_left ".infNaN".toList hc)
      · exact absurd hc List.not_mem_nil
    · exact (isDigit_or_of_mem_spelling hc).imp_right fun hc =>
        List.mem_cons_of_mem '-' (List.mem_append_left "NaN".toList hc)

theorem render_ne_nil (x : Binary64) : x.render ≠ [] := by
  cases hx : x.isNaN with
  | true =>
    rw [render, if_pos hx]
    decide
  | false =>
    rw [render_of_not_isNaN hx, spelling]
    refine List.append_ne_nil_of_right_ne_nil _ ?_
    split
    · exact Decimal.render_ne_nil _
    · decide

end Binary64

end Hydration
