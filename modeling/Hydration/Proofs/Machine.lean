import Mathlib.Data.Option.Basic

/-!
# Proofs/Machine — machines that read a stream

A machine reads a stream one instruction at a time. Each step changes its state and gives some
output, or gets stuck. `run` is all the output together and the state in the end, if the machine
does not get stuck; runs of parts of a stream follow one another (`run_append`).
-/

namespace Hydration

variable {σ α β : Type}

/-- **The output of a machine that reads a whole stream**, and the state in the end. -/
def run (step : σ → α → Option (List β × σ)) : σ → List α → Option (List β × σ)
  | s, [] => some ([], s)
  | s, a :: as => do
    let (here, next) ← step s a
    let (rest, final) ← run step next as
    return (here ++ rest, final)

variable {step : σ → α → Option (List β × σ)} {s final : σ} {a : α} {as bs : List α} {out : List β}

/-- **A step, and the rest.** -/
theorem run_cons :
    run step s (a :: as) = some (out, final) ↔ ∃ here next rest,
      step s a = some (here, next) ∧ run step next as = some (rest, final) ∧
        out = here ++ rest := by
  rw [run, Option.bind_eq_bind, Option.bind_eq_some_iff]
  constructor
  · rintro ⟨⟨here, next⟩, hs, h⟩
    obtain ⟨⟨rest, last⟩, hr, h⟩ := Option.bind_eq_some_iff.mp h
    obtain ⟨rfl, rfl⟩ : here ++ rest = out ∧ last = final := by simpa using h
    exact ⟨here, next, rest, hs, hr, rfl⟩
  · rintro ⟨here, next, rest, hs, hr, rfl⟩
    exact ⟨(here, next), hs, Option.bind_eq_some_iff.mpr ⟨(rest, final), hr, rfl⟩⟩

/-- **One stream after another.** -/
theorem run_append :
    run step s (as ++ bs) = some (out, final) ↔ ∃ front mid back,
      run step s as = some (front, mid) ∧ run step mid bs = some (back, final) ∧
        out = front ++ back := by
  induction as generalizing s out with
  | nil =>
    constructor
    · intro h
      exact ⟨[], s, out, rfl, h, rfl⟩
    · rintro ⟨front, mid, back, hx, hy, rfl⟩
      obtain ⟨rfl, rfl⟩ := Prod.mk.inj (Option.some.inj hx)
      exact hy
  | cons a as ih =>
    rw [List.cons_append, run_cons]
    constructor
    · rintro ⟨here, next, rest, hs, hr, rfl⟩
      obtain ⟨front, mid, back, hx, hy, rfl⟩ := ih.mp hr
      exact ⟨here ++ front, mid, back, run_cons.mpr ⟨here, next, front, hs, hx, rfl⟩, hy,
        (List.append_assoc _ _ _).symm⟩
    · rintro ⟨front, mid, back, hx, hy, rfl⟩
      obtain ⟨here, next, rest, hs, hr, rfl⟩ := run_cons.mp hx
      exact ⟨here, next, rest ++ back, hs, ih.mpr ⟨rest, mid, back, hr, hy, rfl⟩,
        List.append_assoc _ _ _⟩

/-- Instructions that leave the state alone. -/
theorem run_of_idle {f : α → List β} (h : ∀ a ∈ as, step s a = some (f a, s)) :
    run step s as = some (as.flatMap f, s) := by
  induction as with
  | nil => rfl
  | cons a as ih =>
    have hr := ih fun b hb => h b (List.mem_cons_of_mem a hb)
    exact run_cons.mpr ⟨f a, s, _, h a List.mem_cons_self, hr, List.flatMap_cons⟩

/-- Instructions that do nothing at all may be left out. -/
theorem run_filter {p : α → Bool} (h : ∀ s a, p a = false → step s a = some ([], s)) (s : σ)
    (as : List α) : run step s (as.filter p) = run step s as := by
  induction as generalizing s with
  | nil => rfl
  | cons a as ih =>
    cases hp : p a with
    | true =>
      rw [List.filter_cons_of_pos hp, run, run]
      simp only [ih]
    | false =>
      rw [List.filter_cons_of_neg (by simp [hp]), run, h s a hp, ih]
      change _ = (run step s as).bind fun r => some ([] ++ r.1, r.2)
      cases run step s as <;> rfl

end Hydration
