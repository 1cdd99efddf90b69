import Hydration.Proofs.Deferral
import Hydration.Proofs.Precedence

/-!
# Proofs/Splicing — morphs placed anywhere before their use

A tape that is written to in no particular order need not hoist: two batches of morphs behind one
anchor change places. What always holds is weaker. `Splices record stream` says that a stream comes
of a record, which has every morph where it was met, by putting morphs in further up. Nothing is
lost or changed (`Splices.perm`), all else keeps its order (`Splices.filter_eq`), and what came
after something it needs still does (`Splices.preceded`).

`Tape.Twins` relates a tape that holds morphs back to one that does not and is written to in the
same way. That one keeps the record, and what the first would place splices it.
-/

namespace Hydration

variable {ι : Type}

/-! ## Records and streams -/

/-- **A stream has the instructions of a record, morphs moved up.** -/
inductive Splices : List (Opcode ι) → List (Opcode ι) → Prop where
  | nil : Splices [] []
  | write {record stream : List (Opcode ι)} {op : Opcode ι} (hop : op.isMorph = false)
      (h : Splices record stream) : Splices (record ++ [op]) (stream ++ [op])
  | create {record front back : List (Opcode ι)} (m : Morph ι)
      (h : Splices record (front ++ back)) :
      Splices (record ++ [.morph m]) (front ++ .morph m :: back)

namespace Splices

variable {record stream : List (Opcode ι)}

/-- **Nothing is lost, added or changed.** -/
theorem perm (h : Splices record stream) : stream.Perm record := by
  induction h with
  | nil => exact .nil
  | write _ _ ih => exact ih.append_right _
  | create m _ ih =>
    have hm : (_ ++ Opcode.morph m :: _).Perm _ := List.perm_middle.trans (ih.cons _)
    exact hm.trans (List.perm_append_singleton _ _).symm

/-- **All but the morphs keep their order.** -/
theorem filter_eq (h : Splices record stream) :
    stream.filter (!·.isMorph) = record.filter (!·.isMorph) := by
  induction h with
  | nil => rfl
  | write _ _ ih => rw [List.filter_append, List.filter_append, ih]
  | create m _ ih =>
    rw [List.filter_append, List.filter_append, List.filter_cons_of_neg Bool.false_ne_true,
      List.filter_cons_of_neg Bool.false_ne_true, ← List.filter_append, ih, List.filter_nil,
      List.append_nil]

/-- **What came after something it needs still does**, morphs needing nothing. -/
theorem preceded {R : Opcode ι → Opcode ι → Prop} {p : Opcode ι → Prop}
    (hp : ∀ m, ¬ p (.morph m)) (h : Splices record stream) (hr : Preceded R p record) :
    Preceded R p stream := by
  induction h with
  | nil => exact preceded_nil
  | write _ h ih =>
    obtain ⟨hr, hop⟩ := preceded_concat.mp hr
    refine preceded_concat.mpr ⟨ih hr, fun hx => ?_⟩
    obtain ⟨y, hy, hR⟩ := hop hx
    exact ⟨y, h.perm.mem_iff.mpr hy, hR⟩
  | create m _ ih => exact (ih (preceded_concat.mp hr).1).insert (hp m)

end Splices

/-! ## Tapes -/

namespace Tape

/-- An instruction goes to the end of what would be placed; an anchor, if nothing is held back. -/
theorem opcodes_flush_push {t : Tape ι} {op : Opcode ι} (hw : t.anchor ≤ t.opcodes.length)
    (ha : op.isAnchor → t.pending = []) :
    (t.push op).flush.opcodes = t.flush.opcodes ++ [op] := by
  cases hop : op.isAnchor with
  | true =>
    have hp := ha hop
    rw [flush_of_pending hp, flush_of_pending ((pending_push t op).trans hp), opcodes_push]
  | false =>
    rw [opcodes_flush, opcodes_flush, anchor_push, hop, if_neg Bool.false_ne_true, opcodes_push,
      pending_push, List.take_append_of_le_length hw, List.drop_append_of_le_length hw]
    simp only [List.append_assoc]

/-- A tape that holds no morphs back writes them. -/
theorem defer_of_inPlace [Counter ι] {u : Tape ι} (hu : u.deferring = false) (path : List ι)
    (start stop : Option ι) (escaped : Bool) :
    (u.defer path start stop escaped).2 =
      { u with nextMorph := Counter.next u.nextMorph }.push
        (.morph ⟨u.nextMorph, path, start, stop, escaped⟩) := by
  rw [defer, hu]
  rfl

/-- Whether morphs are held back makes no difference to what else is written. -/
theorem append_inPlace (t : Tape ι) (ops : List (Opcode ι)) :
    { t with deferring := false }.append ops = { t.append ops with deferring := false } := by
  have hpush : ∀ (t : Tape ι) (op : Opcode ι),
      { t with deferring := false }.push op = { t.push op with deferring := false } := by
    intro t op
    unfold push mark
    dsimp only
    split <;> rfl
  induction ops generalizing t with
  | nil => rfl
  | cons op ops ih =>
    change ({ t with deferring := false }.push op).append ops = _
    rw [hpush]
    exact ih (t.push op)

/-- **A tape that holds morphs back and one that does not**, written to in the same way. -/
structure Twins (t u : Tape ι) : Prop where
  deferring : t.deferring = true
  inPlace : u.deferring = false
  pending : u.pending = []
  nextMorph : u.nextMorph = t.nextMorph
  /-- The anchor is a place in the stream. -/
  within : t.anchor ≤ t.opcodes.length
  /-- The second one keeps the record of what the first would place. -/
  splices : Splices u.opcodes t.flush.opcodes

namespace Twins

variable {t u : Tape ι}

/-- Anchors are written once all morphs are placed. -/
theorem push {op : Opcode ι} (h : t.Twins u) (hm : op.isMorph = false)
    (ha : op.isAnchor → t.pending = []) : (t.push op).Twins (u.push op) where
  deferring := (deferring_push t op).trans h.deferring
  inPlace := (deferring_push u op).trans h.inPlace
  pending := (pending_push u op).trans h.pending
  nextMorph := by rw [nextMorph_push, nextMorph_push, h.nextMorph]
  within := by
    have hw := h.within
    rw [anchor_push, opcodes_push, List.length_append, List.length_singleton]
    split <;> omega
  splices := by
    rw [opcodes_push, opcodes_flush_push h.within ha]
    exact h.splices.write hm

/-- **A new morph goes behind those held back**, and to the end of the record. -/
theorem defer [Counter ι] (h : t.Twins u) (path : List ι) (start stop : Option ι)
    (escaped : Bool) :
    (t.defer path start stop escaped).2.Twins (u.defer path start stop escaped).2 := by
  rw [defer_of_deferring h.deferring, defer_of_inPlace h.inPlace]
  refine ⟨h.deferring, (deferring_push _ _).trans h.inPlace, (pending_push _ _).trans h.pending,
    ?_, h.within, ?_⟩
  · rw [nextMorph_push, h.nextMorph]
  · -- What is held back goes between the anchor and what follows it, the new morph last.
    have hs := h.splices
    rw [opcodes_flush, ← List.append_assoc] at hs
    rw [opcodes_flush, opcodes_push, h.nextMorph, List.map_append, List.append_assoc,
      ← List.append_assoc]
    exact hs.create _

/-- Placing the morphs changes nothing of what would be placed. -/
theorem flush (h : t.Twins u) : t.flush.Twins u where
  deferring := (deferring_flush t).trans h.deferring
  inPlace := h.inPlace
  pending := h.pending
  nextMorph := by rw [nextMorph_flush, h.nextMorph]
  within := by
    have hw := h.within
    rw [anchor_flush, opcodes_flush, List.length_append, List.length_append, List.length_take,
      List.length_drop]
    omega
  splices := by
    rw [flush_of_pending (pending_flush t)]
    exact h.splices

end Twins

end Tape

end Hydration
