import Hydration.Proofs.Counting
import Mathlib.Data.List.Induction

/-!
# Proofs/Reckoning — a cursor finds its count in its path

A cursor has one list, its path, and comes back up to the position that stands there. A *reckoner*
keeps its count apart: it has a running index, `-1` before the first sibling, puts it aside on the
way down and takes it back on the way up, and notes the path besides. On a *route*, where one goes
down only to the sibling visited last, what was put aside is the path itself, and so a cursor is a
reckoner that has thrown one of two equal lists away (`Cursor.reckoner`).

Which sibling was visited last is a matter of the moves made so far (`lastReturned`): going back
through them, it is the first visit on the level at hand, past everything that was done below. That
a cursor knows it without going back is `IsRoute.lastReturned_eq`, for every level above too.

* `cursor_reckons`: on any route a cursor shows what a reckoner shows, move for move, and a balanced
  tour below a node leaves no trace.
-/

namespace Hydration

open Counter

variable {ι : Type}

/-! ## Moves -/

/-- **What a cursor can be told to do.** -/
inductive Move (ι : Type) where
  /-- On to the next sibling. -/
  | visit
  /-- Down to the children of the node at a position. -/
  | descend (index : ι)
  /-- Back up. -/
  | ascend
deriving DecidableEq, Repr

namespace Move

def isDescent : Move ι → Bool
  | .descend _ => true
  | _ => false

def isAscent : Move ι → Bool
  | .ascend => true
  | _ => false

/-- A move with its position read. -/
def map {κ : Type} (f : ι → κ) : Move ι → Move κ
  | .visit => .visit
  | .descend index => .descend (f index)
  | .ascend => .ascend

end Move

/-- **Moves that come back to where they start**, and never go above it. -/
inductive Balanced : List (Move ι) → Prop
  | nil : Balanced []
  | visit {moves : List (Move ι)} : Balanced moves → Balanced (.visit :: moves)
  | enclose {inner after : List (Move ι)} (index : ι) :
      Balanced inner → Balanced after → Balanced (.descend index :: (inner ++ .ascend :: after))

/-- **What is seen of a move**: the position returned, by a visit only, and the path and the current
index after it; the index is `-1` before the first sibling. -/
structure Sight where
  returned : Option Int
  path : List Int
  index : Int
deriving DecidableEq, Repr

/-! ## Reckoners -/

/-- **A position with its count kept apart.** -/
structure Reckoner where
  /-- The index of the sibling last visited on this level, or `-1`. -/
  running : Int := -1
  /-- The running indices put aside, that of the level right above first. -/
  saved : List Int := []
  /-- The positions of the open elements, outermost first. -/
  path : List Int := []

namespace Reckoner

/-- **What a move returns, and the reckoner after it.** With nothing put aside there is no way
up. -/
def move? (r : Reckoner) : Move Int → Option (Option Int × Reckoner)
  | .visit => some (some (r.running + 1), { r with running := r.running + 1 })
  | .descend index => some (none, ⟨-1, r.running :: r.saved, r.path ++ [index]⟩)
  | .ascend =>
    match r.saved with
    | [] => none
    | index :: saved => some (none, ⟨index, saved, r.path.dropLast⟩)

/-- What is seen of each move. -/
def sights? (r : Reckoner) : List (Move Int) → Option (List Sight)
  | [] => some []
  | m :: moves =>
    (r.move? m).bind fun step =>
      (step.2.sights? moves).map (⟨step.1, step.2.path, step.2.running⟩ :: ·)

end Reckoner

/-! ## Cursors on the move -/

section Moving

variable [Counter ι]

/-- A number as an integer. -/
def Counter.toInt (i : ι) : Int := Counter.toNat i

namespace Cursor

/-- **What a move returns, and the cursor after it.** -/
def move (c : Cursor ι) : Move ι → Option ι × Cursor ι
  | .visit => (some c.visit.1, c.visit.2)
  | .descend index => (none, c.descend index)
  | .ascend => (none, c.ascend)

/-- The cursor after some moves. -/
def run (c : Cursor ι) (moves : List (Move ι)) : Cursor ι :=
  moves.foldl (fun c m => (c.move m).2) c

/-- The current index. -/
def index (c : Cursor ι) : Int :=
  match c.current with
  | none => -1
  | some i => Counter.toInt i

/-- What is seen of each move. -/
def sights (c : Cursor ι) : List (Move ι) → List Sight
  | [] => []
  | m :: moves =>
    let step := c.move m
    ⟨step.1.map Counter.toInt, step.2.path.map Counter.toInt, step.2.index⟩ ::
      step.2.sights moves

@[simp] theorem run_nil (c : Cursor ι) : c.run [] = c := rfl

@[simp] theorem run_cons (c : Cursor ι) (m : Move ι) (moves : List (Move ι)) :
    c.run (m :: moves) = (c.move m).2.run moves := rfl

@[simp] theorem run_append (c : Cursor ι) (moves more : List (Move ι)) :
    c.run (moves ++ more) = (c.run moves).run more :=
  List.foldl_append

/-- A descent makes the path longer by one, and an ascent shorter. -/
theorem length_path_move {c : Cursor ι} {m : Move ι} (h : m.isAscent → 0 < c.path.length) :
    (c.move m).2.path.length + (if m.isAscent then 1 else 0) =
      c.path.length + (if m.isDescent then 1 else 0) := by
  cases m with
  | visit => rfl
  | descend index => exact List.length_append
  | ascend =>
    have hl : 0 < c.path.length := h rfl
    change c.path.dropLast.length + 1 = c.path.length
    rw [List.length_dropLast]
    omega

end Cursor

/-! ## The sibling visited last -/

/-- The moves before the last visit on a level, latest first: on the level at hand for `0`, or so
many levels above. Going back through the moves, an ascent leads down, and a descent up. -/
def beforeVisit : Nat → List (Move ι) → Option (List (Move ι))
  | _, [] => none
  | up, .ascend :: back => beforeVisit (up + 1) back
  | 0, .visit :: back => some back
  | 0, .descend _ :: _ => none
  | up + 1, .visit :: back => beforeVisit (up + 1) back
  | up + 1, .descend _ :: back => beforeVisit up back

/-- **The position returned last on a level**, the one at hand or so many levels above, of those
returned since the level was entered. -/
def lastReturned (up : Nat) (moves : List (Move ι)) : Option ι :=
  (beforeVisit up moves.reverse).map fun back => (Cursor.run {} back.reverse).visit.1

theorem lastReturned_nil (up : Nat) : lastReturned up ([] : List (Move ι)) = none := by
  simp [lastReturned, beforeVisit]

theorem lastReturned_visit (moves : List (Move ι)) :
    lastReturned 0 (moves ++ [.visit]) = some (Cursor.run {} moves).visit.1 := by
  simp [lastReturned, beforeVisit]

theorem lastReturned_succ_visit (up : Nat) (moves : List (Move ι)) :
    lastReturned (up + 1) (moves ++ [.visit]) = lastReturned (up + 1) moves := by
  simp [lastReturned, beforeVisit]

theorem lastReturned_descend (moves : List (Move ι)) (index : ι) :
    lastReturned 0 (moves ++ [.descend index]) = none := by
  simp [lastReturned, beforeVisit]

theorem lastReturned_succ_descend (up : Nat) (moves : List (Move ι)) (index : ι) :
    lastReturned (up + 1) (moves ++ [.descend index]) = lastReturned up moves := by
  simp [lastReturned, beforeVisit]

theorem lastReturned_ascend (up : Nat) (moves : List (Move ι)) :
    lastReturned up (moves ++ [.ascend]) = lastReturned (up + 1) moves := by
  simp [lastReturned, beforeVisit]

namespace Cursor

omit [Counter ι]

/-- **The sibling a cursor has as the one last visited**, so many levels above: above the level at
hand, it is read from the path. -/
def lastVisited (c : Cursor ι) : Nat → Option ι
  | 0 => c.current
  | up + 1 => c.path.reverse[up]?

/-- Going down adds a level, if it is to the sibling visited last. -/
theorem lastVisited_descend {c : Cursor ι} {index : ι} (hc : c.current = some index) (up : Nat) :
    (c.descend index).lastVisited (up + 1) = c.lastVisited up := by
  cases up with
  | zero => simp [lastVisited, descend, hc]
  | succ up => simp [lastVisited, descend]

/-- Going up takes one away. -/
theorem lastVisited_ascend (c : Cursor ι) (up : Nat) :
    c.ascend.lastVisited up = c.lastVisited (up + 1) := by
  cases up with
  | zero => simp [lastVisited, ascend, ← List.head?_eq_getElem?]
  | succ up => simp [lastVisited, ascend, ← List.tail_reverse]

end Cursor

end Moving

/-! ## Routes -/

/-- **A move that may come next**: the number a visit returns fits in a word, one goes down to the
sibling visited last on this level, and up no more often than down. -/
def Move.Allowed (before : List (Move UInt32)) : Move UInt32 → Prop
  | .visit => ∀ i ∈ (Cursor.run {} before).current, toNat i + 1 < 2 ^ 32
  | .descend index => lastReturned 0 before = some index
  | .ascend => before.countP isAscent < before.countP isDescent

/-- **A route**: every move may come after those before it. -/
def IsRoute (moves : List (Move UInt32)) : Prop :=
  ∀ before m after, moves = before ++ m :: after → m.Allowed before

instance (before : List (Move UInt32)) (m : Move UInt32) : Decidable (m.Allowed before) :=
  match m with
  -- Named here, since a search may find the instance that goes through all words.
  | .visit => Option.decidableForallMem _
  | .descend index => inferInstanceAs (Decidable (lastReturned 0 before = some index))
  | .ascend => Nat.decLt _ _

theorem isRoute_iff_forall_lt {moves : List (Move UInt32)} :
    IsRoute moves ↔ ∀ k, ∀ h : k < moves.length, moves[k].Allowed (moves.take k) := by
  constructor
  · intro hr k hk
    refine hr (moves.take k) moves[k] (moves.drop (k + 1)) ?_
    rw [List.getElem_cons_drop, List.take_append_drop]
  · rintro hr before m after rfl
    have hm := hr before.length (by simp)
    simpa using hm

instance (moves : List (Move UInt32)) : Decidable (IsRoute moves) :=
  decidable_of_iff _ isRoute_iff_forall_lt.symm

namespace IsRoute

variable {moves : List (Move UInt32)}

theorem of_append {more : List (Move UInt32)} (h : IsRoute (moves ++ more)) : IsRoute moves := by
  rintro before m after rfl
  exact h before m (after ++ more) (by simp)

theorem allowed {m : Move UInt32} (h : IsRoute (moves ++ [m])) : m.Allowed moves :=
  h moves m [] rfl

/-- **On a route a cursor knows the sibling visited last**, on its own level and on every level
above: what was returned there is what one then went down to. -/
theorem lastReturned_eq (h : IsRoute moves) (up : Nat) :
    lastReturned up moves = (Cursor.run {} moves).lastVisited up := by
  induction moves using List.reverseRecOn generalizing up with
  | nil => rw [lastReturned_nil]; cases up <;> rfl
  | append_singleton moves m ih =>
    have ih := ih h.of_append
    rw [Cursor.run_append]
    cases m with
    | visit =>
      cases up with
      | zero => exact lastReturned_visit moves
      | succ up => exact (lastReturned_succ_visit up moves).trans (ih (up + 1))
    | descend index =>
      have hi : lastReturned 0 moves = some index := h.allowed
      cases up with
      | zero => exact lastReturned_descend moves index
      | succ up =>
        -- One level up is the level just left, where the end of the path was visited last.
        rw [lastReturned_succ_descend, ih]
        exact (Cursor.lastVisited_descend ((ih 0).symm.trans hi) up).symm
    | ascend =>
      rw [lastReturned_ascend, ih]
      exact (Cursor.lastVisited_ascend _ up).symm

/-- **A route is as deep as its path is long.** -/
theorem length_path (h : IsRoute moves) :
    (Cursor.run {} moves).path.length + moves.countP Move.isAscent =
      moves.countP Move.isDescent := by
  induction moves using List.reverseRecOn with
  | nil => rfl
  | append_singleton moves m ih =>
    have ih := ih h.of_append
    have hm : m.isAscent → 0 < (Cursor.run {} moves).path.length := by
      intro hm
      have ha : m.Allowed moves := h.allowed
      cases m with
      | ascend =>
        have hlt : moves.countP Move.isAscent < moves.countP Move.isDescent := ha
        omega
      | visit | descend => contradiction
    have hl := Cursor.length_path_move hm
    rw [Cursor.run_append, List.countP_append, List.countP_append, List.countP_singleton,
      List.countP_singleton, ← ih]
    change ((Cursor.run {} moves).move m).2.path.length + _ = _
    omega

end IsRoute

/-! ## Cursors read as reckoners -/

namespace Cursor

/-- **A cursor with its count kept apart**: what was put aside is what the path says. -/
def reckoner [Counter ι] (c : Cursor ι) : Reckoner where
  running := c.index
  saved := (c.path.map Counter.toInt).reverse
  path := c.path.map Counter.toInt

/-- A move that a cursor and its reckoner make alike. -/
def Admits (c : Cursor UInt32) : Move UInt32 → Prop
  | .visit => ∀ i ∈ c.current, toNat i + 1 < 2 ^ 32
  | .descend index => c.current = some index
  | .ascend => c.path ≠ []

variable {c : Cursor UInt32}

theorem index_of_current [Counter ι] {c : Cursor ι} {i : ι} (h : c.current = some i) :
    c.index = Counter.toInt i := by
  rw [index, h]

/-- The number a visit returns is the index plus one, if it fits. -/
theorem toInt_visit (h : c.Admits .visit) : Counter.toInt c.visit.1 = c.index + 1 := by
  change ((toNat (after c.current) : Nat) : Int) = c.index + 1
  cases hc : c.current with
  | none => rw [index, hc]; rfl
  | some i =>
    have hi : toNat (after (some i)) = toNat i + 1 := toNat_ofNat_of_lt (h i hc)
    rw [hi, index_of_current hc]
    rfl

/-- **One move of a cursor is one of its reckoner.** -/
theorem move?_reckoner {m : Move UInt32} (h : c.Admits m) :
    c.reckoner.move? (m.map Counter.toInt) =
      some ((c.move m).1.map Counter.toInt, (c.move m).2.reckoner) := by
  cases m with
  | visit =>
    have hi : c.index + 1 = Counter.toInt c.visit.1 := (toInt_visit h).symm
    simp only [Move.map, Reckoner.move?, reckoner, hi]
    rfl
  | descend index =>
    have hc : c.index = Counter.toInt index := index_of_current h
    have hd : (c.descend index).index = -1 := rfl
    have hp : (c.descend index).path = c.path ++ [index] := rfl
    simp [Move.map, Reckoner.move?, reckoner, move, hc, hd, hp]
  | ascend =>
    obtain ⟨path, index, hp⟩ := (List.eq_nil_or_concat c.path).resolve_left h
    have ha : c.ascend = ⟨some index, path⟩ := by simp [ascend, hp]
    have hi : (⟨some index, path⟩ : Cursor UInt32).index = Counter.toInt index := rfl
    simp [Move.map, Reckoner.move?, reckoner, move, hp, ha, hi]

/-- **…and so is a run of them.** -/
theorem sights?_reckoner {moves : List (Move UInt32)}
    (h : ∀ before m after, moves = before ++ m :: after → (c.run before).Admits m) :
    c.reckoner.sights? (moves.map (Move.map Counter.toInt)) = some (c.sights moves) := by
  induction moves generalizing c with
  | nil => rfl
  | cons m moves ih =>
    have hm : c.Admits m := h [] m moves rfl
    have hrest : (c.move m).2.reckoner.sights? (moves.map (Move.map Counter.toInt)) =
        some ((c.move m).2.sights moves) := by
      refine ih fun before m' after hmoves => ?_
      exact h (m :: before) m' after (by rw [hmoves]; rfl)
    rw [List.map_cons, Reckoner.sights?, move?_reckoner hm, Option.bind_some, hrest]
    rfl

/-! ## Tours -/

/-- A balanced run ends under the elements it started under. -/
theorem path_run_of_balanced [Counter ι] {moves : List (Move ι)} (h : Balanced moves)
    (c : Cursor ι) : (c.run moves).path = c.path := by
  induction h generalizing c with
  | nil => rfl
  | visit _ ih => exact ih c.visit.2
  | enclose index _ _ ihInner ihAfter =>
    rw [run_cons, run_append, run_cons, ihAfter]
    change (Cursor.run (c.descend index) _).path.dropLast = c.path
    rw [ihInner]
    exact List.dropLast_concat

/-- **A tour below the sibling visited last leaves no trace.** -/
theorem run_tour [Counter ι] {c : Cursor ι} {index : ι} (hc : c.current = some index)
    {inner : List (Move ι)} (h : Balanced inner) :
    c.run (.descend index :: (inner ++ [.ascend])) = c := by
  have hp : ((c.descend index).run inner).path = c.path ++ [index] := path_run_of_balanced h _
  rw [run_cons, run_append]
  change ((c.descend index).run inner).ascend = c
  -- Whatever was visited below, only the path counts on the way up.
  generalize (c.descend index).run inner = d at hp ⊢
  obtain ⟨below, path⟩ := d
  obtain rfl : path = c.path ++ [index] := hp
  exact (ascend_descend c index below).trans (by rw [← hc])

end Cursor

/-- **A route asks of a cursor only what it admits.** -/
theorem IsRoute.admits {before after : List (Move UInt32)} {m : Move UInt32}
    (h : IsRoute (before ++ m :: after)) : (Cursor.run {} before).Admits m := by
  have ha : m.Allowed before := h before m after rfl
  have hb : IsRoute before := h.of_append
  cases m with
  | visit => exact ha
  | descend index => exact (hb.lastReturned_eq 0).symm.trans ha
  | ascend =>
    intro hp
    have hl := hb.length_path
    have hlt : before.countP Move.isAscent < before.countP Move.isDescent := ha
    rw [hp, List.length_nil] at hl
    omega

/-- **A cursor shows what a reckoner shows**: on a route, each move returns the same position and
leaves the same path and index. A balanced tour below a node, from going down to it until coming
back up, leaves the cursor as it was before. -/
theorem cursor_reckons {moves : List (Move UInt32)} (h : IsRoute moves) :
    Reckoner.sights? {} (moves.map (Move.map Counter.toInt)) = some (Cursor.sights {} moves) ∧
      ∀ before index inner after,
        moves = before ++ .descend index :: (inner ++ .ascend :: after) → Balanced inner →
          Cursor.run {} (before ++ .descend index :: (inner ++ [.ascend])) =
            Cursor.run {} before := by
  constructor
  · refine Cursor.sights?_reckoner (c := {}) ?_
    rintro before m after rfl
    exact h.admits
  · rintro before index inner after rfl hi
    rw [Cursor.run_append]
    exact Cursor.run_tour h.admits hi

/-- A route that goes down to the second root, and twice to the first node below it. -/
def detour : List (Move UInt32) :=
  [.visit, .visit, .descend 1, .visit, .descend 0, .visit, .visit, .ascend, .descend 0, .visit,
    .ascend, .visit, .ascend, .visit]

theorem cursor_reckons_detour :
    IsRoute detour ∧
      Reckoner.sights? {} (detour.map (Move.map Counter.toInt)) =
        some (Cursor.sights {} detour) ∧
      Cursor.run {} (detour.take 13) = Cursor.run {} [.visit, .visit] := by
  have h : IsRoute detour := by decide +kernel
  have hi : Balanced ((detour.drop 3).take 9) :=
    .visit (.enclose 0 (.visit (.visit .nil)) (.enclose 0 (.visit .nil) (.visit .nil)))
  exact ⟨h, (cursor_reckons h).1, (cursor_reckons h).2 [.visit, .visit] 1 _ [.visit] rfl hi⟩

/-- Off a route, a cursor comes back up to where it was told to go down. -/
example :
    let astray : List (Move UInt32) := [.visit, .visit, .descend 0, .ascend]
    (Cursor.run {} astray).index = 0 ∧
      (Reckoner.sights? {} (astray.map (Move.map Counter.toInt))).map
        (·.map Sight.index) = some [0, 1, -1, 1] := by
  decide

end Hydration
