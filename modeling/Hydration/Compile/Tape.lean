import Hydration.Counter
import Hydration.Program.Opcode

/-!
# Compile/Tape — a stream with morphs still to be placed

The instructions for a dynamic node are written when the node is met, but its morph can only be
created once the parent is current, and before whatever uses it. So morphs are held back, and put
into the stream together, right behind the last anchor before them. A tape that does not hold them
back writes each where it is met; the order it gives is what the placement is measured against.
-/

namespace Hydration

/-- **A stream of instructions and the morphs held back from it.** -/
structure Tape (ι : Type) where
  opcodes : List (Opcode ι) := []
  /-- Morphs still to be placed, oldest first. -/
  pending : List (Morph ι) := []
  /-- The number of the next morph. -/
  nextMorph : ι
  /-- The place right behind the last anchor. -/
  anchor : Nat := 0
  /-- Morphs are held back. -/
  deferring : Bool := true
deriving DecidableEq, Repr

namespace Tape

variable {ι : Type}

/-- The empty tape. -/
def empty [Counter ι] : Tape ι where
  nextMorph := Counter.zero

/-- Moves the anchor behind the last instruction if that is one. -/
def mark (t : Tape ι) : Tape ι :=
  if t.opcodes.getLast?.any Opcode.isAnchor then { t with anchor := t.opcodes.length } else t

/-- **Writes an instruction.** -/
def push (t : Tape ι) (op : Opcode ι) : Tape ι :=
  { t with opcodes := t.opcodes ++ [op] }.mark

/-- Writes instructions in order. -/
def append (t : Tape ι) (ops : List (Opcode ι)) : Tape ι := ops.foldl push t

/-- **Holds back a new morph**, or writes it on the spot; its number, and the tape. -/
def defer [Counter ι] (t : Tape ι) (path : List ι) (start stop : Option ι) (escaped : Bool) :
    ι × Tape ι :=
  let id := t.nextMorph
  let morph : Morph ι := { id, path, start, stop, escaped }
  let t := { t with nextMorph := Counter.next id }
  (id, if t.deferring then { t with pending := t.pending ++ [morph] } else t.push (.morph morph))

/-- **Places all morphs held back** behind the anchor, which stays where it is. -/
def flush (t : Tape ι) : Tape ι :=
  if t.pending.isEmpty then t
  else { t with
    opcodes := t.opcodes.take t.anchor ++ t.pending.map .morph ++ t.opcodes.drop t.anchor
    pending := [] }

/-! ### Written instructions -/

@[simp] theorem opcodes_mark (t : Tape ι) : t.mark.opcodes = t.opcodes := by
  unfold mark
  split <;> rfl

@[simp] theorem pending_mark (t : Tape ι) : t.mark.pending = t.pending := by
  unfold mark
  split <;> rfl

@[simp] theorem opcodes_push (t : Tape ι) (op : Opcode ι) :
    (t.push op).opcodes = t.opcodes ++ [op] := by
  simp [push]

@[simp] theorem pending_push (t : Tape ι) (op : Opcode ι) : (t.push op).pending = t.pending := by
  simp [push]

/-- **The anchor follows the anchors**, and stays where it is otherwise. -/
theorem anchor_push (t : Tape ι) (op : Opcode ι) :
    (t.push op).anchor = if op.isAnchor then t.opcodes.length + 1 else t.anchor := by
  cases h : op.isAnchor <;> simp [push, mark, h]

@[simp] theorem opcodes_append (t : Tape ι) (ops : List (Opcode ι)) :
    (t.append ops).opcodes = t.opcodes ++ ops := by
  induction ops generalizing t with
  | nil => simp [append]
  | cons op ops ih =>
    have h := ih (t.push op)
    simp only [append, List.foldl_cons] at h ⊢
    rw [h, opcodes_push, List.append_assoc, List.singleton_append]

end Tape

end Hydration
