import Mathlib.Data.List.Induction

/-!
# Proofs/Precedence — what comes before what

An instruction that uses something has to come after the one that provides it. `Preceded R p xs`
says so of a list: whatever satisfies `p` comes after something to which it is related by `R`. The
list may grow at its end (`preceded_concat`), or anywhere by what asks for nothing
(`Preceded.insert`).
-/

namespace Hydration

variable {α : Type} {R : α → α → Prop} {p : α → Prop} {x y : α} {xs ys : List α}

/-- **Whatever satisfies `p` comes after something to which it is related.** -/
def Preceded (R : α → α → Prop) (p : α → Prop) (xs : List α) : Prop :=
  ∀ front x back, xs = front ++ x :: back → p x → ∃ y ∈ front, R y x

theorem preceded_nil : Preceded R p [] := by
  intro front x back h
  exact absurd h (by simp)

/-- **A list may grow by what finds in it what it asks for.** -/
theorem preceded_concat :
    Preceded R p (xs ++ [x]) ↔ Preceded R p xs ∧ (p x → ∃ y ∈ xs, R y x) := by
  constructor
  · intro h
    refine ⟨fun front z back hz => ?_, h xs x [] rfl⟩
    exact h front z (back ++ [x]) (by rw [hz, List.append_assoc, List.cons_append])
  · rintro ⟨hxs, hx⟩ front z back hz
    rcases List.eq_nil_or_concat back with rfl | ⟨back, w, rfl⟩
    · obtain ⟨rfl, hw⟩ := List.append_inj' hz rfl
      obtain rfl : x = z := List.singleton_inj.mp hw
      exact hx
    · have hw : xs ++ [x] = (front ++ z :: back) ++ [w] := by simpa using hz
      exact hxs front z back (List.append_inj' hw rfl).1

/-- Lists in a row. -/
theorem Preceded.append (hxs : Preceded R p xs) (hys : Preceded R p ys) :
    Preceded R p (xs ++ ys) := by
  induction ys using List.reverseRecOn with
  | nil => simpa using hxs
  | append_singleton ys y ih =>
    obtain ⟨hys, hy⟩ := preceded_concat.mp hys
    rw [← List.append_assoc]
    refine preceded_concat.mpr ⟨ih hys, fun hp => ?_⟩
    obtain ⟨z, hz, hR⟩ := hy hp
    exact ⟨z, List.mem_append_right xs hz, hR⟩

/-- What provides for all that follow it. -/
theorem preceded_cons (hx : ¬ p x) (hxs : ∀ y ∈ xs, p y → R x y) : Preceded R p (x :: xs) := by
  intro front z back hz hp
  cases front with
  | nil =>
    obtain ⟨rfl, -⟩ := List.cons.inj hz
    exact absurd hp hx
  | cons w front =>
    obtain ⟨rfl, rfl⟩ := List.cons.inj hz
    exact ⟨x, List.mem_cons_self, hxs z (by simp) hp⟩

/-- **What asks for nothing may be put anywhere.** -/
theorem Preceded.insert (h : Preceded R p (xs ++ ys)) (hx : ¬ p x) :
    Preceded R p (xs ++ x :: ys) := by
  induction ys using List.reverseRecOn with
  | nil =>
    rw [List.append_nil] at h
    exact preceded_concat.mpr ⟨h, fun hp => absurd hp hx⟩
  | append_singleton ys y ih =>
    rw [← List.append_assoc] at h
    obtain ⟨h, hy⟩ := preceded_concat.mp h
    rw [← List.cons_append, ← List.append_assoc]
    refine preceded_concat.mpr ⟨ih h, fun hp => ?_⟩
    obtain ⟨z, hz, hR⟩ := hy hp
    refine ⟨z, ?_, hR⟩
    rcases List.mem_append.mp hz with hz | hz
    · exact List.mem_append_left _ hz
    · exact List.mem_append_right _ (List.mem_cons_of_mem x hz)

/-- What is left out asks for nothing. -/
theorem Preceded.of_filter {q : α → Bool} (hq : ∀ x, p x → q x) (h : Preceded R p (xs.filter q)) :
    Preceded R p xs := by
  intro front x back hx hp
  have hf : xs.filter q = front.filter q ++ x :: back.filter q := by
    rw [hx, List.filter_append, List.filter_cons_of_pos (hq x hp)]
  obtain ⟨y, hy, hR⟩ := h _ x _ hf hp
  exact ⟨y, (List.mem_filter.mp hy).1, hR⟩

end Hydration
