import Hydration.Proofs.Deferral
import Mathlib.Data.List.DropRight

/-!
# Proofs/Anchor — the anchor that a tape remembers

A tape keeps the place behind its last anchor as a number, and never looks for it. A *backlog* keeps
no such number: whenever morphs are placed, it goes back from the end of the stream to the last
anchor there is. The number is a place in a stream that grows at its end and in the middle, so it
could go wrong in two ways: something is put in before it, or an anchor is put in behind it. Morphs
go right behind the anchor and are none themselves, and so neither happens (`lastAnchor_place`).

* `tape_eq_backlog`: whatever is done to a new tape, in whatever order, it has the stream and the
  morphs of a backlog, and its anchor is a place in the stream.
-/

namespace Hydration

open Counter

variable {ι : Type}

/-! ## Going back to the last anchor -/

/-- The instruction makes a parent current, by keeping an element, going down into one, or coming
back up. -/
def Opcode.makesParent : Opcode ι → Bool
  | .element _ => true
  | .consumeParent _ => true
  | .popParent => true
  | _ => false

/-- These are the anchors. -/
theorem Opcode.makesParent_eq (op : Opcode ι) : op.makesParent = op.isAnchor := by
  cases op <;> rfl

/-- The stream up to its last anchor. -/
def upToAnchor (ops : List (Opcode ι)) : List (Opcode ι) := ops.rdropWhile (!·.makesParent)

/-- The stream behind its last anchor; all of it where there is none. -/
def behindAnchor (ops : List (Opcode ι)) : List (Opcode ι) := ops.rtakeWhile (!·.makesParent)

/-- **The place right behind the last anchor**, or the start of the stream. -/
def lastAnchor (ops : List (Opcode ι)) : Nat := (upToAnchor ops).length

theorem upToAnchor_append_behindAnchor (ops : List (Opcode ι)) :
    upToAnchor ops ++ behindAnchor ops = ops :=
  List.rdropWhile_append_rtakeWhile

theorem isAnchor_of_mem_behindAnchor {ops : List (Opcode ι)} {op : Opcode ι}
    (h : op ∈ behindAnchor ops) : op.isAnchor = false := by
  rw [← Opcode.makesParent_eq]
  simpa using List.mem_rtakeWhile_imp h

theorem lastAnchor_le (ops : List (Opcode ι)) : lastAnchor ops ≤ ops.length :=
  (List.rdropWhile_prefix _ _).length_le

theorem take_lastAnchor (ops : List (Opcode ι)) : ops.take (lastAnchor ops) = upToAnchor ops := by
  have h : (upToAnchor ops ++ behindAnchor ops).take (lastAnchor ops) = _ := List.take_left
  rwa [upToAnchor_append_behindAnchor] at h

theorem drop_lastAnchor (ops : List (Opcode ι)) :
    ops.drop (lastAnchor ops) = behindAnchor ops := by
  have h : (upToAnchor ops ++ behindAnchor ops).drop (lastAnchor ops) = _ := List.drop_left
  rwa [upToAnchor_append_behindAnchor] at h

/-- One more instruction is the last anchor if it is one. -/
theorem lastAnchor_concat (ops : List (Opcode ι)) (op : Opcode ι) :
    lastAnchor (ops ++ [op]) = if op.isAnchor then ops.length + 1 else lastAnchor ops := by
  rw [lastAnchor, upToAnchor, List.rdropWhile_concat, op.makesParent_eq]
  cases op.isAnchor with
  | true => exact List.length_append
  | false => rfl

/-- What is no anchor does not move the last one. -/
theorem lastAnchor_append {ops back : List (Opcode ι)}
    (h : ∀ op ∈ back, op.isAnchor = false) : lastAnchor (ops ++ back) = lastAnchor ops := by
  induction back using List.reverseRecOn with
  | nil => rw [List.append_nil]
  | append_singleton back op ih =>
    have hop : op.isAnchor = false := h op (List.mem_append_right _ List.mem_cons_self)
    have hback : ∀ op ∈ back, op.isAnchor = false := fun op' h' => h op' (List.mem_append_left _ h')
    rw [← List.append_assoc, lastAnchor_concat, hop, if_neg Bool.false_ne_true, ih hback]

/-- **Morphs put in behind the last anchor leave it where it is.** -/
theorem lastAnchor_place (ops : List (Opcode ι)) (morphs : List (Morph ι)) :
    lastAnchor (upToAnchor ops ++ (morphs.map .morph ++ behindAnchor ops)) = lastAnchor ops := by
  have hb : ∀ op ∈ behindAnchor ops, op.isAnchor = false := fun _ => isAnchor_of_mem_behindAnchor
  have hm : ∀ op ∈ morphs.map .morph ++ behindAnchor ops, op.isAnchor = false := by
    intro op hop
    rcases List.mem_append.mp hop with hop | hop
    · obtain ⟨m, -, rfl⟩ := List.mem_map.mp hop
      rfl
    · exact hb op hop
  calc lastAnchor (upToAnchor ops ++ (morphs.map .morph ++ behindAnchor ops))
      = lastAnchor (upToAnchor ops) := lastAnchor_append hm
    _ = lastAnchor (upToAnchor ops ++ behindAnchor ops) := (lastAnchor_append hb).symm
    _ = lastAnchor ops := by rw [upToAnchor_append_behindAnchor]

/-! ## Tapes and backlogs -/

/-- **What can be done to a tape.** -/
inductive Action (ι : Type) where
  /-- Any instruction is written. -/
  | write (op : Opcode ι)
  /-- A new morph is held back. -/
  | hold (path : List ι) (start stop : Option ι) (escaped : Bool)
  /-- The morphs held back are placed. -/
  | place

/-- **A stream and the morphs to be put into it**, with no note of where. -/
structure Backlog (ι : Type) where
  opcodes : List (Opcode ι) := []
  pending : List (Morph ι) := []
  nextMorph : ι

variable [Counter ι]

/-- What an action does to a tape. -/
def Tape.act (t : Tape ι) : Action ι → Tape ι
  | .write op => t.push op
  | .hold path start stop escaped => (t.defer path start stop escaped).2
  | .place => t.flush

namespace Backlog

/-- The empty backlog. -/
def empty : Backlog ι where
  nextMorph := zero

/-- **What an action does to a backlog.** The last anchor is looked for when morphs are placed, and
at no other time. -/
def act (b : Backlog ι) : Action ι → Backlog ι
  | .write op => { b with opcodes := b.opcodes ++ [op] }
  | .hold path start stop escaped => { b with
      pending := b.pending ++ [⟨b.nextMorph, path, start, stop, escaped⟩]
      nextMorph := next b.nextMorph }
  | .place => { b with
      opcodes := upToAnchor b.opcodes ++ (b.pending.map .morph ++ behindAnchor b.opcodes)
      pending := [] }

end Backlog

/-- **A tape that could do without its anchor**: what it has is in the backlog, and the anchor is
where the backlog would find it. -/
structure Tape.Remembers (t : Tape ι) (b : Backlog ι) : Prop where
  deferring : t.deferring = true
  opcodes : t.opcodes = b.opcodes
  pending : t.pending = b.pending
  nextMorph : t.nextMorph = b.nextMorph
  anchor : t.anchor = lastAnchor b.opcodes

namespace Tape.Remembers

variable {t : Tape ι} {b : Backlog ι}

theorem write (h : t.Remembers b) (op : Opcode ι) : (t.push op).Remembers (b.act (.write op)) where
  deferring := (deferring_push t op).trans h.deferring
  opcodes := by rw [opcodes_push, h.opcodes]; rfl
  pending := (pending_push t op).trans h.pending
  nextMorph := (nextMorph_push t op).trans h.nextMorph
  anchor := by
    change _ = lastAnchor (b.opcodes ++ [op])
    rw [anchor_push, lastAnchor_concat, h.opcodes, h.anchor]

theorem hold (h : t.Remembers b) (path : List ι) (start stop : Option ι) (escaped : Bool) :
    (t.defer path start stop escaped).2.Remembers (b.act (.hold path start stop escaped)) := by
  rw [defer_of_deferring h.deferring]
  refine ⟨h.deferring, h.opcodes, ?_, ?_, h.anchor⟩
  · rw [h.pending, h.nextMorph]
    rfl
  · rw [h.nextMorph]
    rfl

theorem place (h : t.Remembers b) : t.flush.Remembers (b.act .place) where
  deferring := (deferring_flush t).trans h.deferring
  opcodes := by
    rw [opcodes_flush, h.anchor, h.opcodes, take_lastAnchor, drop_lastAnchor, h.pending]
    rfl
  pending := pending_flush t
  nextMorph := (nextMorph_flush t).trans h.nextMorph
  anchor := by
    rw [anchor_flush, h.anchor]
    exact (lastAnchor_place b.opcodes b.pending).symm

/-- **Every action keeps the two alike.** -/
theorem act (h : t.Remembers b) (a : Action ι) : (t.act a).Remembers (b.act a) := by
  cases a with
  | write op => exact h.write op
  | hold path start stop escaped => exact h.hold path start stop escaped
  | place => exact h.place

/-- **…and so does every run of them.** -/
theorem foldl (h : t.Remembers b) (actions : List (Action ι)) :
    (actions.foldl Tape.act t).Remembers (actions.foldl Backlog.act b) := by
  induction actions generalizing t b with
  | nil => exact h
  | cons a actions ih => exact ih (h.act a)

end Tape.Remembers

/-- **A tape places its morphs where a backlog would**: after any actions on a new tape, the stream
and the morphs held back are those of the backlog, which goes back to the last anchor each time, and
the place where the next morphs would go is inside the stream. -/
theorem tape_eq_backlog (actions : List (Action ι)) :
    let t : Tape ι := actions.foldl Tape.act Tape.empty
    let b : Backlog ι := actions.foldl Backlog.act Backlog.empty
    t.opcodes = b.opcodes ∧ t.pending = b.pending ∧ t.nextMorph = b.nextMorph ∧
      t.anchor = lastAnchor t.opcodes ∧ t.anchor ≤ t.opcodes.length := by
  intro t b
  have new : (Tape.empty : Tape ι).Remembers Backlog.empty := ⟨rfl, rfl, rfl, rfl, rfl⟩
  have h : t.Remembers b := new.foldl actions
  have ha : t.anchor = lastAnchor t.opcodes := by rw [h.anchor, h.opcodes]
  refine ⟨h.opcodes, h.pending, h.nextMorph, ha, ?_⟩
  rw [ha]
  exact lastAnchor_le t.opcodes

/-- Two batches behind one anchor change places. -/
example :
    let hold : Action Nat := .hold [0] none none true
    let t := [.write (.consumeParent 0), hold, .place, hold, .place].foldl Tape.act Tape.empty
    (t.opcodes.filterMap Opcode.morph?).map Morph.id = [1, 0] := by
  decide

end Hydration
