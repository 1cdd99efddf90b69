import Hydration.Program.Listing
import Mathlib.Data.List.Basic

/-!
# Proofs/Tokens — a line falls apart into its words in one way

The words of a listing are of three kinds (`Token`): plain words, which have no blank, comma,
bracket or quote in them; quotations, which end at the first quote that is not escaped; and
bracketed lists of these. A token is known from any text that it begins, as long as it does not go
on there (`cancels_token`), and so are all tokens of a line (`joined_inj`).
-/

namespace Hydration

/-! ## Where a text ends -/

section Ceases

variable {α : Type} {p : α → Bool} {r r' : List α}

/-- The list does not go on with an item of this kind. -/
def Ceases (p : α → Bool) (r : List α) : Prop := ∀ c ∈ r.head?, p c = false

@[simp] theorem ceases_nil : Ceases p [] := fun _ h => absurd h (by simp)

@[simp] theorem ceases_cons {c : α} : Ceases p (c :: r) ↔ p c = false := by simp [Ceases]

/-- **A list begins with items of one kind in one way**, up to where it does not go on so. -/
theorem append_inj_of_ceases {xs ys : List α} (hx : ∀ c ∈ xs, p c = true)
    (hy : ∀ c ∈ ys, p c = true) (hr : Ceases p r) (hr' : Ceases p r') (h : xs ++ r = ys ++ r') :
    xs = ys ∧ r = r' := by
  induction xs generalizing ys with
  | nil =>
    cases ys with
    | nil => exact ⟨rfl, h⟩
    | cons y ys =>
      rw [List.nil_append, List.cons_append] at h
      rw [h, ceases_cons, hy y List.mem_cons_self] at hr
      cases hr
  | cons x xs ih =>
    cases ys with
    | nil =>
      rw [List.nil_append, List.cons_append] at h
      rw [← h, ceases_cons, hx x List.mem_cons_self] at hr'
      cases hr'
    | cons y ys =>
      obtain ⟨hxy, h⟩ := List.cons.inj h
      obtain ⟨hs, hr⟩ := ih (fun c hc => hx c (List.mem_cons_of_mem x hc))
        (fun c hc => hy c (List.mem_cons_of_mem y hc)) h
      exact ⟨congrArg₂ List.cons hxy hs, hr⟩

end Ceases

/-! ## Digits -/

theorem digitChar_inj {m n : Nat} (hm : m < 16) (hn : n < 16)
    (h : Nat.digitChar m = Nat.digitChar n) : m = n := by
  have all : ∀ m < 16, ∀ n < 16, Nat.digitChar m = Nat.digitChar n → m = n := by decide
  exact all m hm n hn h

/-- Digits are those of numbers below the base. -/
theorem exists_digitChar_of_mem_toDigits {b : Nat} (hb : 1 < b) {n : Nat} {c : Char}
    (hc : c ∈ Nat.toDigits b n) : ∃ d < b, c = Nat.digitChar d := by
  induction n using Nat.strongRecOn with
  | ind n ih =>
    by_cases hn : n < b
    · rw [Nat.toDigits_of_lt_base hn] at hc
      exact ⟨n, hn, List.mem_singleton.mp hc⟩
    · rw [Nat.toDigits_of_base_le hb (Nat.le_of_not_lt hn), List.mem_append,
        List.mem_singleton] at hc
      rcases hc with hc | hc
      · exact ih (n / b) (Nat.div_lt_self (by omega) hb) hc
      · exact ⟨n % b, Nat.mod_lt n (by omega), hc⟩

/-- **A number is known by its digits.** -/
theorem toDigits_inj {b : Nat} (hb : 1 < b) (hb' : b ≤ 16) {m n : Nat}
    (h : Nat.toDigits b m = Nat.toDigits b n) : m = n := by
  have hlong {k : Nat} (hk : b ≤ k) : 1 < (Nat.toDigits b k).length := by
    by_contra hle
    exact absurd ((Nat.length_toDigits_le_iff hb Nat.one_pos).mp (Nat.le_of_not_lt hle))
      (by rw [Nat.pow_one]; omega)
  induction m using Nat.strongRecOn generalizing n with
  | ind m ih =>
    by_cases hm : m < b <;> by_cases hn : n < b
    · rw [Nat.toDigits_of_lt_base hm, Nat.toDigits_of_lt_base hn] at h
      exact digitChar_inj (by omega) (by omega) (List.singleton_inj.mp h)
    · have hl := hlong (Nat.le_of_not_lt hn)
      rw [← h, Nat.toDigits_of_lt_base hm] at hl
      exact absurd hl (by simp)
    · have hl := hlong (Nat.le_of_not_lt hm)
      rw [h, Nat.toDigits_of_lt_base hn] at hl
      exact absurd hl (by simp)
    · rw [Nat.toDigits_of_base_le hb (Nat.le_of_not_lt hm),
        Nat.toDigits_of_base_le hb (Nat.le_of_not_lt hn)] at h
      obtain ⟨hdiv, hmod⟩ := List.append_inj' h rfl
      have hdiv := ih (m / b) (Nat.div_lt_self (by omega) hb) hdiv
      have hmod := digitChar_inj (Nat.lt_of_lt_of_le (Nat.mod_lt m (by omega)) hb')
        (Nat.lt_of_lt_of_le (Nat.mod_lt n (by omega)) hb') (List.singleton_inj.mp hmod)
      rw [← Nat.div_add_mod m b, ← Nat.div_add_mod n b, hdiv, hmod]

/-! ## Quotations -/

namespace Text

/-- The characters that are escaped by a letter, with their letters. -/
def letters : List (Char × Char) :=
  [('"', '"'), ('\\', '\\'), ('\x00', '0'), ('\t', 't'), ('\n', 'n'), ('\r', 'r')]

/-- **The three forms of a character in a quotation**: a backslash and a letter, the character
itself, or its code point. -/
theorem escape_cases (c : Char) :
    (∃ l, (c, l) ∈ letters ∧ escape c = ['\\', l]) ∨
      ((∀ l, (c, l) ∉ letters) ∧ escape c = [c]) ∨ escape c = escapeCode c := by
  unfold escape
  split_ifs <;> simp_all [letters]

/-- A character that stands for itself is neither a quote nor a backslash. -/
theorem ne_of_not_mem_letters {c : Char} (hc : ∀ l, (c, l) ∉ letters) : c ≠ '"' ∧ c ≠ '\\' :=
  ⟨fun h => hc '"' (by rw [h]; decide), fun h => hc '\\' (by rw [h]; decide)⟩

theorem letter_inj {c d l : Char} (hc : (c, l) ∈ letters) (hd : (d, l) ∈ letters) : c = d := by
  have all : ∀ x ∈ letters, ∀ y ∈ letters, x.2 = y.2 → x.1 = y.1 := by decide
  exact all _ hc _ hd rfl

theorem letter_ne_u {c l : Char} (hc : (c, l) ∈ letters) : l ≠ 'u' := by
  have all : ∀ x ∈ letters, x.2 ≠ 'u' := by decide
  exact all _ hc

theorem ne_of_mem_hex {n : Nat} {c : Char} (hc : c ∈ Nat.toDigits 16 n) :
    c ≠ '\x7d' ∧ c ≠ '\n' := by
  obtain ⟨d, hd, rfl⟩ := exists_digitChar_of_mem_toDigits (by decide) hc
  have all : ∀ d < 16, Nat.digitChar d ≠ '\x7d' ∧ Nat.digitChar d ≠ '\n' := by decide
  exact all d hd

/-- The brace ends the digits of a code point. -/
theorem escapeCode_append_inj {c d : Char} {r r' : List Char}
    (h : escapeCode c ++ r = escapeCode d ++ r') : c = d ∧ r = r' := by
  simp only [escapeCode, List.cons_append, List.append_assoc, List.nil_append, List.cons.injEq,
    true_and] at h
  have hdigits (k : Nat) : ∀ x ∈ Nat.toDigits 16 k, decide (x ≠ '\x7d') = true := fun x hx =>
    decide_eq_true (ne_of_mem_hex hx).1
  obtain ⟨hc, hr⟩ := append_inj_of_ceases (hdigits _) (hdigits _) (by simp) (by simp) h
  exact ⟨Char.toNat_inj.mp (toDigits_inj (by decide) (by decide) hc), (List.cons.inj hr).2⟩

/-- **A character is known by its form in a quotation**, whatever follows it. -/
theorem escape_append_inj {c d : Char} {r r' : List Char}
    (h : escape c ++ r = escape d ++ r') : c = d ∧ r = r' := by
  rcases escape_cases c with ⟨l, hl, hc⟩ | ⟨hl, hc⟩ | hc <;>
    rcases escape_cases d with ⟨l', hl', hd⟩ | ⟨hl', hd⟩ | hd <;> rw [hc, hd] at h
  · simp only [List.cons_append, List.nil_append, List.cons.injEq, true_and] at h
    exact ⟨letter_inj hl (h.1 ▸ hl'), h.2⟩
  · exact absurd (List.cons.inj h).1.symm (ne_of_not_mem_letters hl').2
  · exact absurd (List.cons.inj (List.cons.inj h).2).1 (letter_ne_u hl)
  · exact absurd (List.cons.inj h).1 (ne_of_not_mem_letters hl).2
  · exact List.cons.inj h
  · exact absurd (List.cons.inj h).1 (ne_of_not_mem_letters hl).2
  · exact absurd (List.cons.inj (List.cons.inj h).2).1.symm (letter_ne_u hl')
  · exact absurd (List.cons.inj h).1.symm (ne_of_not_mem_letters hl').2
  · exact escapeCode_append_inj h

/-- An unescaped quote does not stand for a character. -/
theorem escape_append_ne_quote {c : Char} {r r' : List Char} : escape c ++ r ≠ '"' :: r' := by
  intro h
  rcases escape_cases c with ⟨l, -, hc⟩ | ⟨hl, hc⟩ | hc <;> rw [hc] at h
  · exact absurd (List.cons.inj h).1 (by decide)
  · exact absurd (List.cons.inj h).1 (ne_of_not_mem_letters hl).1
  · exact absurd (List.cons.inj h).1 (by decide)

theorem flatMap_escape_append_inj {cs ds r r' : List Char}
    (h : cs.flatMap escape ++ '"' :: r = ds.flatMap escape ++ '"' :: r') : cs = ds ∧ r = r' := by
  induction cs generalizing ds with
  | nil =>
    cases ds with
    | nil => exact ⟨rfl, (List.cons.inj h).2⟩
    | cons d ds =>
      rw [List.flatMap_cons, List.append_assoc] at h
      exact absurd h.symm escape_append_ne_quote
  | cons c cs ih =>
    rw [List.flatMap_cons, List.append_assoc] at h
    cases ds with
    | nil => exact absurd h escape_append_ne_quote
    | cons d ds =>
      rw [List.flatMap_cons, List.append_assoc] at h
      obtain ⟨hc, h⟩ := escape_append_inj h
      obtain ⟨hcs, hr⟩ := ih h
      exact ⟨congrArg₂ List.cons hc hcs, hr⟩

/-- **A string is known by its quotation**, whatever follows it. -/
theorem quote_append_inj {s t : String} {r r' : List Char} (h : quote s ++ r = quote t ++ r') :
    s = t ∧ r = r' := by
  simp only [quote, List.cons_append, List.append_assoc, List.nil_append, List.cons.injEq,
    true_and] at h
  obtain ⟨hs, hr⟩ := flatMap_escape_append_inj h
  exact ⟨String.toList_inj.mp hs, hr⟩

theorem quote_injective {s t : String} (h : quote s = quote t) : s = t :=
  (quote_append_inj (congrArg (· ++ []) h)).1

/-- **A quotation is within one line.** -/
theorem feed_not_mem_quote (s : String) : '\n' ∉ quote s := by
  have hescape (c : Char) : '\n' ∉ escape c := fun h => by
    rcases escape_cases c with ⟨l, hl, hc⟩ | ⟨hl, hc⟩ | hc <;> rw [hc] at h
    · have all : ∀ x ∈ letters, '\n' ∉ ['\\', x.2] := by decide
      exact all _ hl h
    · exact hl 'n' (by rw [← List.mem_singleton.mp h]; decide)
    · simp only [escapeCode, List.cons_append, List.mem_cons, List.mem_append] at h
      rcases h with h | h | h | h | h | h
      · exact absurd h (by decide)
      · exact absurd h (by decide)
      · exact absurd h (by decide)
      · exact (ne_of_mem_hex h).2 rfl
      · exact absurd h (by decide)
      · exact absurd h List.not_mem_nil
  simp [quote, hescape]

end Text

/-! ## Tokens -/

namespace Listing

/-- A character of plain words: no blank, comma, bracket or quote. -/
def isPlain (c : Char) : Bool := c ∉ [' ', ',', '[', ']', '"', '\n']

/-- **A word without parts**: plain characters in a row, or a quotation. -/
inductive Atom : List Char → Prop where
  | plain {w : List Char} (chars : ∀ c ∈ w, isPlain c = true) (nonempty : w ≠ []) : Atom w
  | quotation (s : String) : Atom (Text.quote s)

/-- **A word of a listing**: one without parts, or such words in brackets. -/
inductive Token : List Char → Prop where
  | atom {w : List Char} (h : Atom w) : Token w
  | list {items : List (List Char)} (h : ∀ w ∈ items, Atom w) : Token (bracketed items)

/-- Words of a kind are known from any text that they begin, as long as they do not go on there. -/
def Cancels (kind : List Char → Prop) : Prop :=
  ∀ {v w r r' : List Char}, kind v → kind w → Ceases isPlain r → Ceases isPlain r' →
    v ++ r = w ++ r' → v = w ∧ r = r'

theorem joined_cons (separator w : List Char) (ws : List (List Char)) :
    joined separator (w :: ws) = w ++ ws.flatMap (separator ++ ·) := by
  induction ws generalizing w with
  | nil => simp [joined]
  | cons v ws ih =>
    rw [List.flatMap_cons, List.append_assoc, ← ih]
    simp [joined]

theorem ceases_separated {first : Char} (hf : isPlain first = false) {separator : List Char}
    (ws : List (List Char)) {r : List Char} (hr : Ceases isPlain r) :
    Ceases isPlain (ws.flatMap (first :: separator ++ ·) ++ r) := by
  cases ws with
  | nil => exact hr
  | cons w ws => exact ceases_cons.mpr hf

section Separated

variable {kind : List Char → Prop} {first : Char} {separator r r' : List Char}
  {ws ws' : List (List Char)}

/-- **Words behind separators are known one by one**, up to where no separator follows. -/
theorem Cancels.separated (cancels : Cancels kind) (hf : isPlain first = false)
    (hw : ∀ w ∈ ws, kind w) (hw' : ∀ w ∈ ws', kind w) (hr : Ceases isPlain r)
    (hr' : Ceases isPlain r') (hs : Ceases (· == first) r) (hs' : Ceases (· == first) r')
    (h : ws.flatMap (first :: separator ++ ·) ++ r = ws'.flatMap (first :: separator ++ ·) ++ r') :
    ws = ws' ∧ r = r' := by
  induction ws generalizing ws' with
  | nil =>
    cases ws' with
    | nil => exact ⟨rfl, h⟩
    | cons w' ws' =>
      rw [List.flatMap_nil, List.nil_append] at h
      rw [h] at hs
      exact absurd (ceases_cons.mp hs) (by simp)
  | cons w ws ih =>
    cases ws' with
    | nil =>
      rw [List.flatMap_nil, List.nil_append] at h
      rw [← h] at hs'
      exact absurd (ceases_cons.mp hs') (by simp)
    | cons w' ws' =>
      simp only [List.flatMap_cons, List.append_assoc, List.append_cancel_left_eq] at h
      obtain ⟨hww, h⟩ := cancels (hw w List.mem_cons_self) (hw' w' List.mem_cons_self)
        (ceases_separated hf ws hr) (ceases_separated hf ws' hr') h
      obtain ⟨hws, hrr⟩ := ih (fun v hv => hw v (List.mem_cons_of_mem w hv))
        (fun v hv => hw' v (List.mem_cons_of_mem w' hv)) h
      exact ⟨congrArg₂ List.cons hww hws, hrr⟩

/-- **Words with separators between them are known one by one**, if there are any. -/
theorem Cancels.joined (cancels : Cancels kind) (hf : isPlain first = false) {w w' : List Char}
    (hw : ∀ v ∈ w :: ws, kind v) (hw' : ∀ v ∈ w' :: ws', kind v) (hr : Ceases isPlain r)
    (hr' : Ceases isPlain r') (hs : Ceases (· == first) r) (hs' : Ceases (· == first) r')
    (h : joined (first :: separator) (w :: ws) ++ r =
      joined (first :: separator) (w' :: ws') ++ r') :
    w :: ws = w' :: ws' ∧ r = r' := by
  rw [joined_cons, joined_cons, List.append_assoc, List.append_assoc] at h
  obtain ⟨hww, h⟩ := cancels (hw w List.mem_cons_self) (hw' w' List.mem_cons_self)
    (ceases_separated hf ws hr) (ceases_separated hf ws' hr') h
  obtain ⟨hws, hrr⟩ := cancels.separated hf (fun v hv => hw v (List.mem_cons_of_mem w hv))
    (fun v hv => hw' v (List.mem_cons_of_mem w' hv)) hr hr' hs hs' h
  exact ⟨congrArg₂ List.cons hww hws, hrr⟩

end Separated

/-- An atom begins with a plain character or a quote. -/
theorem Atom.exists_cons {w : List Char} (h : Atom w) :
    ∃ c cs, w = c :: cs ∧ (isPlain c = true ∨ c = '"') := by
  cases h with
  | plain chars nonempty =>
    obtain ⟨c, cs, rfl⟩ := List.exists_cons_of_ne_nil nonempty
    exact ⟨c, cs, rfl, .inl (chars c List.mem_cons_self)⟩
  | quotation s => exact ⟨'"', _, rfl, .inr rfl⟩

theorem Atom.append_ne_cons {w : List Char} (h : Atom w) {c : Char} (hc : isPlain c = false)
    (hq : c ≠ '"') {r r' : List Char} : w ++ r ≠ c :: r' := by
  obtain ⟨d, ds, rfl, hd⟩ := h.exists_cons
  intro h
  obtain rfl : d = c := (List.cons.inj h).1
  rcases hd with hd | hd
  · exact absurd (hc.symm.trans hd) Bool.false_ne_true
  · exact hq hd

/-- A plain word is no quotation. -/
theorem plain_append_ne_quote {w : List Char} (chars : ∀ c ∈ w, isPlain c = true)
    (nonempty : w ≠ []) {r r' : List Char} {s : String} : w ++ r ≠ Text.quote s ++ r' := by
  obtain ⟨c, cs, rfl⟩ := List.exists_cons_of_ne_nil nonempty
  intro h
  have hc := chars c List.mem_cons_self
  rw [show c = '"' from (List.cons.inj h).1] at hc
  exact absurd hc (by decide)

/-- **Atoms are known from the text they begin.** -/
theorem cancels_atom : Cancels Atom := by
  intro v w r r' hv hw hr hr' h
  cases hv with
  | plain chars nonempty =>
    cases hw with
    | plain chars' nonempty' => exact append_inj_of_ceases chars chars' hr hr' h
    | quotation t => exact absurd h (plain_append_ne_quote chars nonempty)
  | quotation s =>
    cases hw with
    | plain chars' nonempty' => exact absurd h.symm (plain_append_ne_quote chars' nonempty')
    | quotation t =>
      obtain ⟨hst, hr⟩ := Text.quote_append_inj h
      exact ⟨congrArg Text.quote hst, hr⟩

/-- **A list of atoms is known by its brackets.** -/
theorem bracketed_append_inj {ws ws' : List (List Char)} (hw : ∀ w ∈ ws, Atom w)
    (hw' : ∀ w ∈ ws', Atom w) {r r' : List Char} (h : bracketed ws ++ r = bracketed ws' ++ r') :
    ws = ws' ∧ r = r' := by
  simp only [bracketed, List.cons_append, List.append_assoc, List.nil_append, List.cons.injEq,
    true_and] at h
  have closing {w s s' : List Char} (hw : Atom w) : w ++ s ≠ ']' :: s' :=
    hw.append_ne_cons (by decide) (by decide)
  cases ws with
  | nil =>
    cases ws' with
    | nil => exact ⟨rfl, (List.cons.inj h).2⟩
    | cons w' ws' =>
      rw [joined_cons, List.append_assoc] at h
      exact absurd h.symm (closing (hw' w' List.mem_cons_self))
  | cons w ws =>
    cases ws' with
    | nil =>
      rw [joined_cons, List.append_assoc] at h
      exact absurd h (closing (hw w List.mem_cons_self))
    | cons w' ws' =>
      obtain ⟨hws, hr⟩ := cancels_atom.joined (by decide) hw hw' (ceases_cons.mpr (by decide))
        (ceases_cons.mpr (by decide)) (ceases_cons.mpr (by decide)) (ceases_cons.mpr (by decide)) h
      exact ⟨hws, (List.cons.inj hr).2⟩

theorem bracketed_inj {ws ws' : List (List Char)} (hw : ∀ w ∈ ws, Atom w)
    (hw' : ∀ w ∈ ws', Atom w) (h : bracketed ws = bracketed ws') : ws = ws' :=
  (bracketed_append_inj hw hw' (congrArg (· ++ []) h)).1

/-- **Tokens are known from the text they begin**: only lists begin with a bracket. -/
theorem cancels_token : Cancels Token := by
  intro v w r r' hv hw hr hr' h
  have opening {v s s' : List Char} (hv : Atom v) : v ++ s ≠ '[' :: s' :=
    hv.append_ne_cons (by decide) (by decide)
  cases hv with
  | atom hv =>
    cases hw with
    | atom hw => exact cancels_atom hv hw hr hr' h
    | list hw => exact absurd h (opening hv)
  | list hv =>
    cases hw with
    | atom hw => exact absurd h.symm (opening hw)
    | list hw =>
      obtain ⟨hvw, hr⟩ := bracketed_append_inj hv hw h
      exact ⟨congrArg bracketed hvw, hr⟩

/-- **The tokens of a line are known one by one.** -/
theorem joined_inj {w w' : List Char} {ws ws' : List (List Char)} (hw : ∀ v ∈ w :: ws, Token v)
    (hw' : ∀ v ∈ w' :: ws', Token v) (h : joined [' '] (w :: ws) = joined [' '] (w' :: ws')) :
    w :: ws = w' :: ws' :=
  (cancels_token.joined (by decide) hw hw' ceases_nil ceases_nil ceases_nil ceases_nil
    (congrArg (· ++ []) h)).1

/-! ### Line feeds -/

theorem Atom.feed_not_mem {w : List Char} (h : Atom w) : '\n' ∉ w := by
  cases h with
  | plain chars _ => exact fun h => absurd (chars '\n' h) (by decide)
  | quotation s => exact Text.feed_not_mem_quote s

theorem feed_not_mem_joined {separator : List Char} (hs : '\n' ∉ separator)
    {ws : List (List Char)} (hw : ∀ w ∈ ws, '\n' ∉ w) : '\n' ∉ joined separator ws := by
  cases ws with
  | nil => exact List.not_mem_nil
  | cons w ws =>
    rw [joined_cons, List.mem_append, List.mem_flatMap]
    rintro (h | ⟨v, hv, h⟩)
    · exact hw w List.mem_cons_self h
    · rcases List.mem_append.mp h with h | h
      · exact hs h
      · exact hw v (List.mem_cons_of_mem w hv) h

/-- **A token is within one line.** -/
theorem Token.feed_not_mem {w : List Char} (h : Token w) : '\n' ∉ w := by
  cases h with
  | atom h => exact h.feed_not_mem
  | list h =>
    have hj : '\n' ∉ joined [',', ' '] _ :=
      feed_not_mem_joined (by decide) fun v hv => (h v hv).feed_not_mem
    simp [bracketed, hj]

end Listing

end Hydration
