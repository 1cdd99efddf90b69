/-!
# Text/Bytes — byte offsets into a list of characters

Spans count the bytes of the UTF-8 form of a text. Texts are lists of characters here, so an offset
is a cut between two characters, if it is one at all: `cut?` gives the two sides, and `none` for an
offset beyond the end or inside a character.
-/

namespace Hydration.Text

/-- The number of UTF-8 bytes of a text. -/
def byteLength (cs : List Char) : Nat :=
  cs.foldr (fun c bytes => c.utf8Size + bytes) 0

@[simp] theorem byteLength_nil : byteLength [] = 0 := rfl

@[simp] theorem byteLength_cons (c : Char) (cs : List Char) :
    byteLength (c :: cs) = c.utf8Size + byteLength cs := rfl

@[simp] theorem byteLength_append (as bs : List Char) :
    byteLength (as ++ bs) = byteLength as + byteLength bs := by
  induction as with
  | nil => simp
  | cons c as ih => simp [ih, Nat.add_assoc]

/-- **The two sides of a byte offset**, if it lies between two characters or at an end. -/
def cut? : Nat → List Char → Option (List Char × List Char)
  | 0, cs => some ([], cs)
  | _ + 1, [] => none
  | k + 1, c :: cs =>
    if c.utf8Size ≤ k + 1 then
      (cut? (k + 1 - c.utf8Size) cs).map fun (before, behind) => (c :: before, behind)
    else
      none

/-- The offset lies between two characters of the text or at an end of it. -/
def isBoundary (k : Nat) (cs : List Char) : Bool := (cut? k cs).isSome

/-- **A cut loses nothing**: the two sides are the text, and the first has as many bytes as the
offset says. -/
theorem cut?_eq_some {k : Nat} {cs before behind : List Char}
    (h : cut? k cs = some (before, behind)) :
    before ++ behind = cs ∧ byteLength before = k := by
  induction cs generalizing k before behind with
  | nil =>
    cases k with
    | zero => simp_all [cut?]
    | succ k => simp [cut?] at h
  | cons c cs ih =>
    cases k with
    | zero => simp_all [cut?]
    | succ k =>
      rw [cut?] at h
      split at h
      · next hc =>
        simp only [Option.map_eq_some_iff, Prod.exists, Prod.mk.injEq] at h
        obtain ⟨a, b, hab, rfl, rfl⟩ := h
        obtain ⟨happ, hlen⟩ := ih hab
        refine ⟨by rw [List.cons_append, happ], ?_⟩
        rw [byteLength_cons]
        omega
      · exact absurd h (by simp)

/-- A text is cut behind any part that it begins with. -/
theorem cut?_append (before behind : List Char) :
    cut? (byteLength before) (before ++ behind) = some (before, behind) := by
  induction before with
  | nil => cases behind <;> rfl
  | cons c before ih =>
    obtain ⟨k, hk⟩ : ∃ k, byteLength (c :: before) = k + 1 := by
      have := c.utf8Size_pos
      exact Nat.exists_eq_add_one.mpr (by rw [byteLength_cons]; omega)
    have hc : c.utf8Size ≤ k + 1 := by
      rw [← hk, byteLength_cons]
      exact Nat.le_add_right ..
    have hr : k + 1 - c.utf8Size = byteLength before := by
      rw [← hk, byteLength_cons, Nat.add_sub_cancel_left]
    rw [hk, List.cons_append, cut?, if_pos hc, hr, ih]
    rfl

/-- **Boundaries are where a text can be cut.** -/
theorem isBoundary_iff {k : Nat} {cs : List Char} :
    isBoundary k cs ↔ ∃ before behind, before ++ behind = cs ∧ byteLength before = k := by
  rw [isBoundary, Option.isSome_iff_exists, Prod.exists]
  constructor
  · rintro ⟨before, behind, h⟩
    exact ⟨before, behind, cut?_eq_some h⟩
  · rintro ⟨before, behind, rfl, rfl⟩
    exact ⟨before, behind, cut?_append before behind⟩

end Hydration.Text
