import Hydration.Compile.Tape
import Hydration.Proofs.Hoist

/-!
# Proofs/Deferral — the stream a tape stands for

A tape is written to as if every morph were put down where it is met. `Carries` relates it to the
stream that would have come of that. What stands behind the last anchor is kept apart, its morphs
held back; what stands before it is final, and hoisted already.

Placing the morphs gives the hoisted stream (`Carries.flush`), but the tape is then `Settled`:
another morph behind the same anchor would be placed before those, out of order. Only the next
anchor makes it fit for morphs again (`Settled.push`).
-/

namespace Hydration

variable {ι : Type}

/-- **The order a tape gives to a stream**: its morphs moved up if they are held back. -/
def arrange (deferring : Bool) (stream : List (Opcode ι)) : List (Opcode ι) :=
  if deferring then hoist stream else stream

namespace Tape

/-- **A stream up to its last anchor and behind it**, as a tape that holds morphs back keeps it. -/
structure Defers (t : Tape ι) (final tail : List (Opcode ι)) : Prop where
  /-- What is final is empty or ends with an anchor. -/
  cut : final = [] ∨ ∃ ops a, final = ops ++ [a] ∧ a.isAnchor
  /-- No anchor follows. -/
  free : ∀ op ∈ tail, op.isAnchor = false
  opcodes : t.opcodes = hoist final ++ tail.filter (!·.isMorph)
  pending : t.pending.map .morph = tail.filter Opcode.isMorph
  anchor : t.anchor = (hoist final).length

/-- **The tape stands for a stream**, fit to be written to. -/
def Carries (t : Tape ι) (stream : List (Opcode ι)) : Prop :=
  if t.deferring then ∃ final tail, stream = final ++ tail ∧ t.Defers final tail
  else t.opcodes = stream ∧ t.pending = []

theorem carries_iff_defers {t : Tape ι} {stream : List (Opcode ι)} (hd : t.deferring = true) :
    t.Carries stream ↔ ∃ final tail, stream = final ++ tail ∧ t.Defers final tail := by
  rw [Carries, if_pos hd]

theorem carries_iff_writes {t : Tape ι} {stream : List (Opcode ι)} (hd : t.deferring = false) :
    t.Carries stream ↔ t.opcodes = stream ∧ t.pending = [] := by
  rw [Carries, hd, if_neg Bool.false_ne_true]

/-- **The tape has a stream placed**, and no morph to place. -/
structure Settled (t : Tape ι) (stream : List (Opcode ι)) : Prop where
  opcodes : t.opcodes = arrange t.deferring stream
  pending : t.pending = []

/-! ## What a step leaves alone -/

@[simp] theorem deferring_mark (t : Tape ι) : t.mark.deferring = t.deferring := by
  unfold mark
  split <;> rfl

@[simp] theorem nextMorph_mark (t : Tape ι) : t.mark.nextMorph = t.nextMorph := by
  unfold mark
  split <;> rfl

@[simp] theorem deferring_push (t : Tape ι) (op : Opcode ι) :
    (t.push op).deferring = t.deferring := deferring_mark _

@[simp] theorem nextMorph_push (t : Tape ι) (op : Opcode ι) :
    (t.push op).nextMorph = t.nextMorph := nextMorph_mark _

@[simp] theorem pending_append (t : Tape ι) (ops : List (Opcode ι)) :
    (t.append ops).pending = t.pending := by
  induction ops generalizing t with
  | nil => rfl
  | cons op ops ih => exact (ih (t.push op)).trans (pending_push t op)

@[simp] theorem deferring_flush (t : Tape ι) : t.flush.deferring = t.deferring := by
  unfold flush
  split <;> rfl

@[simp] theorem nextMorph_flush (t : Tape ι) : t.flush.nextMorph = t.nextMorph := by
  unfold flush
  split <;> rfl

/-- A tape that holds nothing back has nothing to place. -/
theorem flush_of_pending {t : Tape ι} (h : t.pending = []) : t.flush = t := by
  rw [flush, h]
  rfl

@[simp] theorem pending_flush (t : Tape ι) : t.flush.pending = [] := by
  unfold flush
  split
  next h => exact List.isEmpty_iff.mp h
  next => rfl

@[simp] theorem anchor_flush (t : Tape ι) : t.flush.anchor = t.anchor := by
  unfold flush
  split <;> rfl

/-- **The morphs are placed behind the anchor**, in the order in which they are held back. -/
theorem opcodes_flush (t : Tape ι) :
    t.flush.opcodes =
      t.opcodes.take t.anchor ++ (t.pending.map .morph ++ t.opcodes.drop t.anchor) := by
  unfold flush
  split
  next h => simp [List.isEmpty_iff.mp h]
  next => rw [← List.append_assoc]

@[simp] theorem deferring_defer [Counter ι] (t : Tape ι) (path : List ι) (start stop : Option ι)
    (escaped : Bool) : (t.defer path start stop escaped).2.deferring = t.deferring := by
  unfold defer
  dsimp only
  split
  · rfl
  · exact deferring_push _ _

@[simp] theorem nextMorph_defer [Counter ι] (t : Tape ι) (path : List ι) (start stop : Option ι)
    (escaped : Bool) :
    (t.defer path start stop escaped).2.nextMorph = Counter.next t.nextMorph := by
  unfold defer
  dsimp only
  split
  · rfl
  · exact nextMorph_push _ _

/-- A morph that is held back goes behind the others. -/
theorem defer_of_deferring [Counter ι] {t : Tape ι} (ht : t.deferring = true) (path : List ι)
    (start stop : Option ι) (escaped : Bool) :
    (t.defer path start stop escaped).2 = { t with
      nextMorph := Counter.next t.nextMorph
      pending := t.pending ++ [⟨t.nextMorph, path, start, stop, escaped⟩] } := by
  rw [defer, ht]
  rfl

/-! ## Hoisting behind the last anchor -/

/-- Behind an anchor, hoisting starts anew. -/
theorem hoist_append_of_cut {final tail : List (Opcode ι)}
    (hc : final = [] ∨ ∃ ops a, final = ops ++ [a] ∧ a.isAnchor)
    (hf : ∀ op ∈ tail, op.isAnchor = false) :
    hoist (final ++ tail) = hoist final ++ gather Opcode.isMorph tail := by
  rw [← hoistBy_of_forall hf]
  rcases hc with rfl | ⟨ops, a, rfl, ha⟩
  · rfl
  · rw [List.append_assoc, List.singleton_append, hoist, hoist, hoistBy_append_cons ha,
      hoistBy_append_cons ha]
    simp

namespace Defers

variable {t : Tape ι} {final tail : List (Opcode ι)}

/-- Placing what is held back hoists the stream. -/
theorem opcodes_flush (h : t.Defers final tail) : t.flush.opcodes = hoist (final ++ tail) := by
  rw [Tape.opcodes_flush, hoist_append_of_cut h.cut h.free, h.opcodes, h.anchor, h.pending,
    List.take_left, List.drop_left, gather]

/-- A plain instruction goes behind the others. -/
theorem push {op : Opcode ι} (h : t.Defers final tail) (hop : op.Plain) :
    (t.push op).Defers final (tail ++ [op]) where
  cut := h.cut
  free := by
    intro op' h'
    rcases List.mem_append.mp h' with h' | h'
    · exact h.free op' h'
    · rw [List.mem_singleton.mp h']
      exact hop.1
  opcodes := by simp [h.opcodes, hop.2]
  pending := by simp [h.pending, hop.2]
  anchor := by simp [anchor_push, hop.1, h.anchor]

/-- A morph that is held back goes behind the others. -/
theorem defer (h : t.Defers final tail) (m : Morph ι) (next : ι) :
    { t with nextMorph := next, pending := t.pending ++ [m] }.Defers final
      (tail ++ [Opcode.morph m]) where
  cut := h.cut
  free := by
    intro op h'
    rcases List.mem_append.mp h' with h' | h'
    · exact h.free op h'
    · rw [List.mem_singleton.mp h']
      rfl
  opcodes := by simp [h.opcodes, Opcode.isMorph, Opcode.morph?]
  pending := by
    rw [List.map_append, h.pending, List.filter_append]
    rfl
  anchor := h.anchor

/-- **An anchor makes all before it final**, once that is placed. -/
theorem of_push {op : Opcode ι} {stream : List (Opcode ι)} (ho : t.opcodes = hoist stream)
    (hp : t.pending = []) (ha : op.isAnchor) : (t.push op).Defers (stream ++ [op]) [] := by
  have hs : hoist (stream ++ [op]) = hoist stream ++ [op] := by
    rw [hoist, hoistBy_append_cons ha]
    rfl
  refine ⟨.inr ⟨stream, op, rfl, ha⟩, by simp, ?_, by simp [hp], ?_⟩
  · rw [hs, opcodes_push, ho, List.filter_nil, List.append_nil]
  · rw [hs, anchor_push, if_pos ha, ho, List.length_append, List.length_singleton]

end Defers

/-! ## Writing to a tape -/

theorem Settled.push {t : Tape ι} {stream : List (Opcode ι)} {op : Opcode ι}
    (h : t.Settled stream) (ha : op.isAnchor) : (t.push op).Carries (stream ++ [op]) := by
  have ho := h.opcodes
  cases hd : t.deferring with
  | true =>
    rw [hd] at ho
    refine (carries_iff_defers ((deferring_push t op).trans hd)).mpr ?_
    exact ⟨stream ++ [op], [], (List.append_nil _).symm, .of_push ho h.pending ha⟩
  | false =>
    rw [hd] at ho
    refine (carries_iff_writes ((deferring_push t op).trans hd)).mpr ⟨?_, ?_⟩
    · rw [opcodes_push, ho]
      rfl
    · rw [pending_push, h.pending]

namespace Carries

variable {t : Tape ι} {stream : List (Opcode ι)}

/-- **Placing the morphs gives the stream in order.** -/
theorem flush (h : t.Carries stream) : t.flush.Settled stream := by
  refine ⟨?_, ?_⟩
  · rw [deferring_flush]
    cases hd : t.deferring with
    | true =>
      obtain ⟨final, tail, rfl, hf⟩ := (carries_iff_defers hd).mp h
      exact hf.opcodes_flush
    | false =>
      obtain ⟨ho, hp⟩ := (carries_iff_writes hd).mp h
      rw [flush_of_pending hp]
      exact ho
  · exact pending_flush t

/-- With no morph held back the tape is settled already. -/
theorem settled (h : t.Carries stream) (hp : t.pending = []) : t.Settled stream := by
  rw [← flush_of_pending hp]
  exact h.flush

/-- **A plain instruction goes behind the others.** -/
theorem push {op : Opcode ι} (h : t.Carries stream) (hop : op.Plain) :
    (t.push op).Carries (stream ++ [op]) := by
  have hd' := deferring_push t op
  cases hd : t.deferring with
  | true =>
    obtain ⟨final, tail, rfl, hf⟩ := (carries_iff_defers hd).mp h
    refine (carries_iff_defers (hd'.trans hd)).mpr ?_
    exact ⟨final, tail ++ [op], List.append_assoc _ _ _, hf.push hop⟩
  | false =>
    obtain ⟨ho, hp⟩ := (carries_iff_writes hd).mp h
    refine (carries_iff_writes (hd'.trans hd)).mpr ⟨?_, ?_⟩
    · rw [opcodes_push, ho]
    · rw [pending_push, hp]

/-- With no morph held back, an anchor may be written too. -/
theorem push_of_pending {op : Opcode ι} (h : t.Carries stream) (hp : t.pending = [])
    (hm : op.isMorph = false) : (t.push op).Carries (stream ++ [op]) := by
  cases ha : op.isAnchor with
  | true => exact (h.settled hp).push ha
  | false => exact h.push ⟨ha, hm⟩

/-- Operands go behind the others. -/
theorem append {ops : List (Opcode ι)} (h : t.Carries stream)
    (hops : ∀ op ∈ ops, op.Plain) :
    (t.append ops).Carries (stream ++ ops) := by
  induction ops generalizing t stream with
  | nil =>
    rw [List.append_nil]
    exact h
  | cons op ops ih =>
    have h' := ih (h.push (hops op List.mem_cons_self)) fun op' h' =>
      hops op' (List.mem_cons_of_mem op h')
    rwa [List.append_assoc] at h'

/-- **A morph goes behind the others too**, whether it is held back or not. -/
theorem defer [Counter ι] (h : t.Carries stream) (path : List ι) (start stop : Option ι)
    (escaped : Bool) :
    (t.defer path start stop escaped).2.Carries
      (stream ++ [.morph ⟨t.nextMorph, path, start, stop, escaped⟩]) := by
  cases hd : t.deferring with
  | true =>
    obtain ⟨final, tail, rfl, hf⟩ := (carries_iff_defers hd).mp h
    rw [Tape.defer, if_pos hd]
    refine (carries_iff_defers ?_).mpr ⟨final, _, List.append_assoc _ _ _, hf.defer _ _⟩
    exact hd
  | false =>
    obtain ⟨ho, hp⟩ := (carries_iff_writes hd).mp h
    rw [Tape.defer, if_neg (by simp [hd])]
    refine (carries_iff_writes ?_).mpr ⟨?_, ?_⟩
    · rw [deferring_push, hd]
    · rw [opcodes_push, ho]
    · rw [pending_push, hp]

end Carries

end Tape

end Hydration
