import Hydration.Program.Basic
import Mathlib.Data.List.Basic

/-!
# Proofs/Hoist — moving morphs up to the anchor before them

A stream is cut before each anchor, and inside each segment the morphs are moved to the front, right
behind the anchor: `hoist`. Neither the order of the morphs nor that of the other instructions
changes (`filterMap_hoistBy`), and an anchor splits the work in two (`hoistBy_append_cons`).

The same is done to instructions that carry more than themselves along, so all of it is stated for
lists of any kind, with a test for anchors and one for what moves.
-/

namespace Hydration

section

variable {α β : Type} (anchor held : α → Bool)

/-- **A list cut before each anchor**: what stands before the first one, and each anchor with what
follows it. -/
def segments : List α → List α × List (α × List α)
  | [] => ([], [])
  | x :: xs =>
    if anchor x then ([], (x, (segments xs).1) :: (segments xs).2)
    else (x :: (segments xs).1, (segments xs).2)

/-- What is held first, then the rest, each in order. -/
def gather (xs : List α) : List α := xs.filter held ++ xs.filter (!held ·)

/-- **What is held moves up to the anchor before it**, or to the front where there is none. -/
def hoistBy (xs : List α) : List α :=
  gather held (segments anchor xs).1 ++
    (segments anchor xs).2.flatMap fun (a, body) => a :: gather held body

/-- **A list is free of anchors, or has a first one.** -/
@[elab_as_elim]
theorem anchor_induction {motive : List α → Prop}
    (free : ∀ xs, (∀ x ∈ xs, anchor x = false) → motive xs)
    (cut : ∀ xs a ys, (∀ x ∈ xs, anchor x = false) → anchor a = true → motive ys →
      motive (xs ++ a :: ys)) (xs : List α) : motive xs := by
  suffices h : ∀ front, (∀ x ∈ front, anchor x = false) → motive (front ++ xs) from h [] (by simp)
  induction xs with
  | nil => exact fun front hf => by simpa using free front hf
  | cons x xs ih =>
    intro front hf
    cases hx : anchor x with
    | true => exact cut front x xs hf hx (ih [] (by simp))
    | false =>
      rw [List.append_cons]
      refine ih (front ++ [x]) fun y hy => ?_
      rcases List.mem_append.mp hy with hy | hy
      · exact hf y hy
      · rwa [List.mem_singleton.mp hy]

variable {anchor held}

@[simp] theorem hoistBy_nil : hoistBy anchor held ([] : List α) = [] := rfl

theorem segments_of_forall {xs : List α} (h : ∀ x ∈ xs, anchor x = false) :
    segments anchor xs = (xs, []) := by
  induction xs with
  | nil => rfl
  | cons x xs ih =>
    rw [segments, ih fun y hy => h y (List.mem_cons_of_mem x hy), h x List.mem_cons_self]
    rfl

/-- Without an anchor, what is held moves to the front. -/
theorem hoistBy_of_forall {xs : List α} (h : ∀ x ∈ xs, anchor x = false) :
    hoistBy anchor held xs = gather held xs := by
  rw [hoistBy, segments_of_forall h, List.flatMap_nil, List.append_nil]

/-- The anchors after a point do not reach over the anchor there. -/
theorem segments_append_cons {a : α} (ha : anchor a) (xs ys : List α) :
    segments anchor (xs ++ a :: ys) = ((segments anchor xs).1,
      (segments anchor xs).2 ++ (a, (segments anchor ys).1) :: (segments anchor ys).2) := by
  induction xs with
  | nil => simp [segments, ha]
  | cons x xs ih => cases hx : anchor x <;> simp [segments, hx, ih]

/-- **An anchor splits the work in two.** -/
theorem hoistBy_append_cons {a : α} (ha : anchor a) (xs ys : List α) :
    hoistBy anchor held (xs ++ a :: ys) =
      hoistBy anchor held xs ++ a :: hoistBy anchor held ys := by
  rw [hoistBy, segments_append_cons ha, hoistBy, hoistBy]
  simp [List.flatMap_append]

theorem filterMap_eq_self {f : α → Option α} {xs : List α} (h : ∀ x ∈ xs, f x = some x) :
    xs.filterMap f = xs :=
  (List.filterMap_congr h).trans List.filterMap_some

theorem filterMap_filter_of_isSome {f : α → Option β} {p : α → Bool}
    (h : ∀ x, (f x).isSome → p x) (xs : List α) :
    (xs.filter p).filterMap f = xs.filterMap f := by
  rw [List.filterMap_filter]
  refine congrArg (List.filterMap · xs) (funext fun x => ?_)
  split
  next => rfl
  next hp => exact (Option.not_isSome_iff_eq_none.mp fun hs => hp (h x hs)).symm

theorem filterMap_filter_eq_nil {f : α → Option β} {p : α → Bool}
    (h : ∀ x, (f x).isSome → p x = false) (xs : List α) : (xs.filter p).filterMap f = [] := by
  refine List.filterMap_eq_nil_iff.mpr fun x hx => Option.not_isSome_iff_eq_none.mp fun hs => ?_
  exact Bool.false_ne_true ((h x hs).symm.trans (List.mem_filter.mp hx).2)

/-- Gathering keeps the order among what is held, and among what is not. -/
theorem filterMap_gather {f : α → Option β} {b : Bool} (hf : ∀ x, (f x).isSome → held x = b)
    (xs : List α) : (gather held xs).filterMap f = xs.filterMap f := by
  rw [gather, List.filterMap_append]
  cases b with
  | true =>
    rw [filterMap_filter_of_isSome hf, filterMap_filter_eq_nil fun x hx => by simp [hf x hx],
      List.append_nil]
  | false =>
    rw [filterMap_filter_eq_nil hf, filterMap_filter_of_isSome fun x hx => by simp [hf x hx],
      List.nil_append]

/-- **Hoisting keeps the order among what is held, and among what is not.** -/
theorem filterMap_hoistBy {f : α → Option β} {b : Bool} (hf : ∀ x, (f x).isSome → held x = b)
    (xs : List α) : (hoistBy anchor held xs).filterMap f = xs.filterMap f := by
  induction xs using anchor_induction anchor with
  | free xs h => rw [hoistBy_of_forall h, filterMap_gather hf]
  | cut xs a ys h ha ih =>
    rw [hoistBy_append_cons ha, hoistBy_of_forall h, List.filterMap_append, List.filterMap_append,
      filterMap_gather hf, List.filterMap_cons, List.filterMap_cons, ih]

/-- What is not held stays in order. -/
theorem filter_hoistBy {p : α → Bool} (hp : ∀ x, p x → held x = false) (xs : List α) :
    (hoistBy anchor held xs).filter p = xs.filter p := by
  have hg : ∀ x, (Option.guard p x).isSome → held x = false := by
    intro x hx
    exact hp x (by simpa using hx)
  rw [← List.filterMap_eq_filter, filterMap_hoistBy hg]

/-- **Hoisting passes through a partial map** that keeps what is an anchor and what is held, and
leaves no anchor out. -/
theorem hoistBy_filterMap {anchor' held' : β → Bool} {f : α → Option β}
    (ha : ∀ x y, f x = some y → anchor' y = anchor x) (hh : ∀ x y, f x = some y → held' y = held x)
    (hs : ∀ x, anchor x → (f x).isSome) (xs : List α) :
    hoistBy anchor' held' (xs.filterMap f) = (hoistBy anchor held xs).filterMap f := by
  have hp : ∀ (p : Bool → Bool) (ys : List α),
      (ys.filterMap f).filter (fun y => p (held' y)) =
        (ys.filter fun x => p (held x)).filterMap f := by
    intro p ys
    rw [List.filter_filterMap, List.filterMap_filter]
    refine congrArg (List.filterMap · ys) (funext fun x => ?_)
    cases hx : f x with
    | none => exact (ite_self _).symm
    | some y => simp [hh x y hx, Option.filter_some]
  have hg : ∀ ys : List α, gather held' (ys.filterMap f) = (gather held ys).filterMap f := by
    intro ys
    rw [gather, gather, List.filterMap_append, ← hp not]
    exact congrArg (· ++ _) (hp id ys)
  have hf : ∀ ys : List α, (∀ y ∈ ys, anchor y = false) →
      ∀ z ∈ ys.filterMap f, anchor' z = false := by
    intro ys h z hz
    obtain ⟨y, hy, hyz⟩ := List.mem_filterMap.mp hz
    rw [ha y z hyz, h y hy]
  induction xs using anchor_induction anchor with
  | free xs h => rw [hoistBy_of_forall h, hoistBy_of_forall (hf xs h), hg]
  | cut xs a ys h hx ih =>
    obtain ⟨b, hb⟩ := Option.isSome_iff_exists.mp (hs a hx)
    rw [List.filterMap_append, List.filterMap_cons_some hb,
      hoistBy_append_cons ((ha a b hb).trans hx), hoistBy_append_cons hx, hoistBy_of_forall h,
      hoistBy_of_forall (hf xs h), hg, ih, List.filterMap_append, List.filterMap_cons_some hb]

/-- **Hoisting passes through a map** that keeps what is an anchor and what is held. -/
theorem hoistBy_map {anchor' held' : β → Bool} {f : α → β} (ha : ∀ x, anchor' (f x) = anchor x)
    (hh : ∀ x, held' (f x) = held x) (xs : List α) :
    hoistBy anchor' held' (xs.map f) = (hoistBy anchor held xs).map f := by
  rw [← List.filterMap_eq_map]
  refine hoistBy_filterMap (fun x y h => ?_) (fun x y h => ?_) (fun _ _ => rfl) xs
  · rw [← Option.some.inj h, ha]
  · rw [← Option.some.inj h, hh]

/-- **Hoisting loses nothing and adds nothing.** -/
theorem hoistBy_perm (xs : List α) : (hoistBy anchor held xs).Perm xs := by
  induction xs using anchor_induction anchor with
  | free xs h =>
    rw [hoistBy_of_forall h]
    exact List.filter_append_perm held xs
  | cut xs a ys h ha ih =>
    rw [hoistBy_append_cons ha, hoistBy_of_forall h]
    exact (List.filter_append_perm held xs).append (ih.cons a)

end

/-! ## Streams of instructions -/

namespace Opcode

variable {ι : Type}

/-- The instruction creates a morph. -/
def isMorph (op : Opcode ι) : Bool := op.morph?.isSome

/-- The instruction neither is an anchor nor moves up to one. -/
def Plain (op : Opcode ι) : Prop := op.isAnchor = false ∧ op.isMorph = false

end Opcode

/-- **A stream with its morphs moved up**, each right behind the last anchor before it. -/
def hoist {ι : Type} (ops : List (Opcode ι)) : List (Opcode ι) :=
  hoistBy Opcode.isAnchor Opcode.isMorph ops

variable {ι : Type}

/-- Hoisting keeps the order of the morphs. -/
theorem filterMap_morph?_hoist (ops : List (Opcode ι)) :
    (hoist ops).filterMap Opcode.morph? = ops.filterMap Opcode.morph? :=
  filterMap_hoistBy (b := true) (fun _ h => h) ops

end Hydration
