import Hydration.Proofs.Reading

/-!
# Proofs/Mirror — an assembler with words beside one with naturals

The state of an assembler that counts with 32-bit words is read as that of one that counts with
naturals (`Assembler.read`). `Mirrors` says that a step takes the two the same way: to states of
which the second is the first one read, with the same result or up to the same violation. That holds
of every part of a step as long as the next numbers of each kind fit in a word, which
`Assembler.Within` keeps track of; no number has to be given out again, and none is cut off.
-/

namespace Hydration

open Template Counter

/-! ## States read as naturals -/

section Read

variable {ι : Type} [Counter ι]

mutual

/-- **A program with its numbers read**, those of nested programs included. -/
def Program.read : Program ι → Program Nat
  | ⟨ops, children⟩ => ⟨ops.map Opcode.read, Program.readAll children⟩

/-- Nested programs with their numbers read. -/
def Program.readAll : List (Program ι) → List (Program Nat)
  | [] => []
  | child :: children => child.read :: Program.readAll children

end

theorem Program.readAll_eq_map (children : List (Program ι)) :
    Program.readAll children = children.map Program.read := by
  induction children with
  | nil => rw [readAll, List.map_nil]
  | cons child children ih => rw [readAll, List.map_cons, ih]

/-- A cursor with its positions read. -/
def Cursor.read (c : Cursor ι) : Cursor Nat where
  current := c.current.map Counter.toNat
  path := c.path.map Counter.toNat

/-- A tape with its numbers read. -/
def Tape.read (t : Tape ι) : Tape Nat where
  opcodes := t.opcodes.map Opcode.read
  pending := t.pending.map (Morph.map Counter.toNat)
  nextMorph := Counter.toNat t.nextMorph
  anchor := t.anchor
  deferring := t.deferring

/-- **The state of an assembler with its numbers read.** -/
def Assembler.read (e : Assembler ι) : Assembler Nat where
  tape := e.tape.read
  children := e.children.map Program.read
  cursor := e.cursor.read
  reference? := e.reference?.map Counter.toNat
  unreferenced := e.unreferenced
  events := e.events

/-- What compiling gives, with the numbers of the program read. -/
def Compiled.read (c : Compiled ι) : Compiled Nat where
  result := c.result.map Program.read
  events := c.events

/-! ### Tapes -/

namespace Tape

theorem read_mark (t : Tape ι) : t.mark.read = t.read.mark := by
  have ha : t.read.opcodes.getLast?.any Opcode.isAnchor =
      t.opcodes.getLast?.any Opcode.isAnchor := by
    simp only [read, List.getLast?_map]
    cases t.opcodes.getLast? with
    | none => rfl
    | some op => exact op.isAnchor_map _
  rw [mark, mark, ha]
  split
  · simp [read]
  · rfl

theorem read_push (t : Tape ι) (op : Opcode ι) : (t.push op).read = t.read.push op.read := by
  rw [push, push, read_mark]
  simp [read]

theorem read_append (t : Tape ι) (ops : List (Opcode ι)) :
    (t.append ops).read = t.read.append (ops.map Opcode.read) := by
  induction ops generalizing t with
  | nil => rfl
  | cons op ops ih => exact (ih (t.push op)).trans (by rw [read_push]; rfl)

omit [Counter ι] in
theorem nextMorph_append (t : Tape ι) (ops : List (Opcode ι)) :
    (t.append ops).nextMorph = t.nextMorph := by
  induction ops generalizing t with
  | nil => rfl
  | cons op ops ih => exact (ih (t.push op)).trans (nextMorph_push t op)

theorem read_flush (t : Tape ι) : t.flush.read = t.read.flush := by
  have hp : t.read.pending.isEmpty = t.pending.isEmpty := List.isEmpty_map
  rw [flush, flush, hp]
  split
  · rfl
  · simp [read, List.map_take, List.map_drop, Opcode.read, Opcode.map, Function.comp_def]

end Tape

end Read

/-! ### Numbers that fit -/

/-- The number after one that does not fill a word is the next natural. -/
theorem toNat_next {i : UInt32} (h : toNat i + 1 < 2 ^ 32) : toNat (next i) = toNat i + 1 :=
  toNat_ofNat_of_lt h

theorem toNat_after {i? : Option UInt32} (h : after (i?.map Counter.toNat) < 2 ^ 32) :
    toNat (after i?) = after (i?.map Counter.toNat) := by
  cases i? with
  | none => rfl
  | some i => exact toNat_next h

theorem Cursor.read_visit {c : Cursor UInt32} (h : after c.read.current < 2 ^ 32) :
    c.read.visit = (toNat c.visit.1, c.visit.2.read) := by
  have ha : after c.read.current = toNat (after c.current) := (toNat_after h).symm
  rw [visit, ha]
  rfl

theorem Tape.read_defer {t : Tape UInt32} (h : toNat t.nextMorph + 1 < 2 ^ 32) (path : List UInt32)
    (start stop : Option UInt32) (escaped : Bool) :
    t.read.defer (path.map Counter.toNat) (start.map Counter.toNat) (stop.map Counter.toNat)
        escaped =
      (toNat (t.defer path start stop escaped).1, (t.defer path start stop escaped).2.read) := by
  have hn : next t.read.nextMorph = toNat (next t.nextMorph) := (toNat_next h).symm
  have hd : t.read.deferring = t.deferring := rfl
  rw [defer, defer, hn]
  simp only [hd]
  split
  · simp [read, Morph.map]
  · rw [read_push]
    rfl

/-! ## How far an assembler has counted -/

/-- **The next numbers of each kind are at most these**: positions, and what `n` says of morphs,
references and nested programs. -/
structure Assembler.Within (positions : Nat) (n : Numbers) (d : Assembler Nat) : Prop where
  current : after d.cursor.current ≤ positions
  path : ∀ i ∈ d.cursor.path, i < positions
  morphs : d.tape.nextMorph ≤ n.morphs
  references : after d.reference? ≤ n.references
  programs : d.children.length ≤ n.programs

namespace Assembler.Within

variable {positions : Nat} {n : Numbers} {d : Assembler Nat}

theorem mono (h : d.Within positions n) {positions' : Nat} (hp : positions ≤ positions')
    {n' : Numbers} (hm : n.morphs ≤ n'.morphs) (hr : n.references ≤ n'.references)
    (hc : n.programs ≤ n'.programs) : d.Within positions' n' where
  current := h.current.trans hp
  path i hi := (h.path i hi).trans_le hp
  morphs := h.morphs.trans hm
  references := h.references.trans hr
  programs := h.programs.trans hc

/-- Writing gives out no number. -/
theorem tape (h : d.Within positions n) {t : Tape Nat} (ht : t.nextMorph = d.tape.nextMorph) :
    Within positions n { d with tape := t } :=
  { h with morphs := ht.le.trans h.morphs }

/-- A visit takes the next position. -/
theorem visit (h : d.Within positions n) :
    Within (positions + 1) n { d with cursor := d.cursor.visit.2 } :=
  { h with
    current := Nat.succ_le_succ h.current
    path := fun i hi => (h.path i hi).trans (Nat.lt_succ_self _) }

theorem descend (h : d.Within positions n) {index : Nat} (hi : index < positions) :
    Within positions n { d with cursor := d.cursor.descend index } :=
  { h with
    current := Nat.zero_le _
    path := fun i hm => by
      rcases List.mem_append.mp hm with hm | hm
      · exact h.path i hm
      · rwa [List.mem_singleton.mp hm] }

/-- Going back up the next position is the one behind the parent. -/
theorem ascend (h : d.Within positions n) :
    Within positions n { d with cursor := d.cursor.ascend } :=
  { h with
    current := by
      change after d.cursor.path.getLast? ≤ positions
      cases hl : d.cursor.path.getLast? with
      | none => exact Nat.zero_le _
      | some i => exact Nat.succ_le_of_lt (h.path i (List.mem_of_getLast? hl))
    path := fun i hm => h.path i (List.dropLast_subset _ hm) }

end Assembler.Within

/-! ## Steps that mirror each other -/

open Assembler

section Rules

variable {α β γ δ : Type}

/-- **Two results of which the second is the first one read**, in a state that fulfils `Q` if there
is a value. -/
inductive Mirrored (r : α → β) (Q : β → Assembler Nat → Prop) :
    EStateM.Result Violation (Assembler UInt32) α → EStateM.Result Violation (Assembler Nat) β →
      Prop where
  | ok {a : α} {b : β} {e : Assembler UInt32} {d : Assembler Nat} (value : r a = b)
      (state : e.read = d) (h : Q b d) : Mirrored r Q (.ok a e) (.ok b d)
  | error {v : Violation} {e : Assembler UInt32} {d : Assembler Nat} (state : e.read = d) :
    Mirrored r Q (.error v e) (.error v d)

/-- **The step `y` over naturals is the step `x` over words**, from states that fulfil `P` to states
that fulfil `Q`; values are read by `r`. -/
def Mirrors (P : Assembler Nat → Prop) (x : Assemble UInt32 α) (y : Assemble Nat β) (r : α → β)
    (Q : β → Assembler Nat → Prop) : Prop :=
  ∀ e : Assembler UInt32, P e.read → Mirrored r Q (x e) (y e.read)

variable {P : Assembler Nat → Prop} {x : Assemble UInt32 α} {y : Assemble Nat β} {r : α → β}
  {Q : β → Assembler Nat → Prop}

/-- **Steps in a row.** -/
theorem Mirrors.bind {f : α → Assemble UInt32 γ} {g : β → Assemble Nat δ} {s : γ → δ}
    {T : δ → Assembler Nat → Prop} (hx : Mirrors P x y r Q)
    (hf : ∀ a, Mirrors (Q (r a)) (f a) (g (r a)) s T) : Mirrors P (x >>= f) (y >>= g) s T := by
  intro e h
  change Mirrored s T (EStateM.bind x f e) (EStateM.bind y g e.read)
  unfold EStateM.bind
  have hr := hx e h
  generalize x e = u, y e.read = v at hr ⊢
  cases hr with
  | ok value state h' =>
    subst value state
    exact hf _ _ h'
  | error state => exact .error state

theorem Mirrors.imp {Q' : β → Assembler Nat → Prop} (hx : Mirrors P x y r Q)
    (h : ∀ b d, Q b d → Q' b d) : Mirrors P x y r Q' := by
  intro e hP
  have hr := hx e hP
  generalize x e = u, y e.read = v at hr ⊢
  cases hr with
  | ok value state h' => exact .ok value state (h _ _ h')
  | error state => exact .error state

/-- What does not depend on the state is known beforehand. -/
theorem mirrors_of_and {φ : Prop} (h : φ → Mirrors P x y r Q) :
    Mirrors (fun d => φ ∧ P d) x y r Q :=
  fun e hP => h hP.1 e hP.2

theorem mirrors_pure {a : α} {b : β} (h : r a = b) :
    Mirrors P (pure a) (pure b) r fun _ => P :=
  fun _ hP => .ok h rfl hP

theorem mirrors_throw (v : Violation) :
    Mirrors P (throw v : Assemble UInt32 α) (throw v : Assemble Nat β) r Q :=
  fun _ _ => .error rfl

theorem mirrors_modifyGet {g : Assembler UInt32 → α × Assembler UInt32}
    {g' : Assembler Nat → β × Assembler Nat}
    (h : ∀ e : Assembler UInt32, P e.read →
      r (g e).1 = (g' e.read).1 ∧ (g e).2.read = (g' e.read).2 ∧ Q (g' e.read).1 (g' e.read).2) :
    Mirrors P (modifyGet g) (modifyGet g') r Q := by
  intro e hP
  obtain ⟨value, state, h'⟩ := h e hP
  exact .ok value state h'

theorem mirrors_modify {P' : Assembler Nat → Prop} {g : Assembler UInt32 → Assembler UInt32}
    {g' : Assembler Nat → Assembler Nat}
    (h : ∀ e : Assembler UInt32, P e.read → (g e).read = g' e.read ∧ P' (g' e.read)) :
    Mirrors P (modify g) (modify g') id fun _ => P' := by
  intro e hP
  obtain ⟨state, h'⟩ := h e hP
  exact .ok rfl state h'

theorem Mirrors.discard {P' : Assembler Nat → Prop} (hx : Mirrors P x y r Q)
    (h : ∀ b d, Q b d → P' d) : Mirrors P (discard x) (discard y) id fun _ => P' := by
  intro e hP
  change Mirrored id _ (EStateM.map (Function.const α PUnit.unit) x e)
    (EStateM.map (Function.const β PUnit.unit) y e.read)
  unfold EStateM.map
  have hr := hx e hP
  generalize x e = u, y e.read = v at hr ⊢
  cases hr with
  | ok value state h' => exact .ok rfl state (h _ _ h')
  | error state => exact .error state

end Rules

/-! ### Parts of steps -/

variable {p : Nat} {n : Numbers}

theorem mirrors_push (op : Opcode UInt32) :
    Mirrors (Within p n) (push op) (push op.read) id fun _ => Within p n := by
  refine mirrors_modify fun e h => ⟨?_, h.tape (Tape.nextMorph_push _ _)⟩
  simp only [Assembler.read, Tape.read_push]

/-- **Code is written up to its violation by both.** -/
theorem mirrors_write (code : Code UInt32) :
    Mirrors (Within p n) (write code) (write code.read) id fun _ => Within p n := by
  obtain ⟨opcodes, violation?⟩ := code
  have ha : Mirrors (Within p n)
      (modify fun e => { e with tape := e.tape.append opcodes } : Assemble UInt32 PUnit)
      (modify fun e => { e with tape := e.tape.append (opcodes.map Opcode.read) }) id
      fun _ => Within p n := by
    refine mirrors_modify fun e h => ⟨?_, h.tape (Tape.nextMorph_append _ _)⟩
    simp only [Assembler.read, Tape.read_append]
  refine ha.bind fun _ => ?_
  cases violation? with
  | some v => exact mirrors_throw v
  | none => exact mirrors_pure rfl

theorem mirrors_flush :
    Mirrors (Within p n) (flush : Assemble UInt32 Unit) flush id fun _ => Within p n := by
  refine mirrors_modify fun e h => ?_
  have hp : e.read.tape.pending.isEmpty = e.tape.pending.isEmpty := List.isEmpty_map
  have hl : e.read.tape.pending.length = e.tape.pending.length := List.length_map _
  rw [hp, hl]
  split
  · exact ⟨rfl, h⟩
  · refine ⟨?_, { h with morphs := ?_ }⟩
    · simp only [Assembler.read, Tape.read_flush]
      rfl
    · exact (Tape.nextMorph_flush _).le.trans h.morphs

/-- **The next position is the next natural.** -/
theorem mirrors_visit (hp : p < 2 ^ 32) :
    Mirrors (Within p n) (visit : Assemble UInt32 UInt32) visit Counter.toNat
      fun i d => i < p + 1 ∧ Within (p + 1) n d := by
  refine mirrors_modifyGet fun e h => ?_
  have hc : e.read.cursor.visit = (toNat e.cursor.visit.1, e.cursor.visit.2.read) :=
    Cursor.read_visit (h.current.trans_lt hp)
  refine ⟨?_, ?_, Nat.lt_succ_of_le h.current, h.visit⟩
  · exact (congrArg Prod.fst hc).symm
  · simp only [hc]
    rfl

/-- **The next reference is the next natural.** -/
theorem mirrors_reference (hr : n.references < 2 ^ 32) :
    Mirrors (Within p n) (reference : Assemble UInt32 UInt32) reference Counter.toNat
      fun _ => Within p { n with references := n.references + 1 } := by
  intro e h
  by_cases hu : e.reference? = none ∨ e.unreferenced = true
  · have hd : e.read.reference? = none ∨ e.read.unreferenced = true :=
      hu.imp_left fun h => by rw [Assembler.read, h]; rfl
    have ha : toNat (after e.reference?) = after e.read.reference? :=
      toNat_after (h.references.trans_lt hr)
    rw [reference_of_unreferenced hu, reference_of_unreferenced hd]
    refine .ok ha ?_ { h.tape (Tape.nextMorph_push _ _) with
      references := Nat.succ_le_succ h.references }
    rw [← ha]
    simp only [Assembler.read, Tape.read_push]
    rfl
  · rw [not_or, Bool.not_eq_true] at hu
    obtain ⟨number, hn⟩ := Option.ne_none_iff_exists'.mp hu.1
    have hd : e.read.reference? = some (toNat number) := by rw [Assembler.read, hn]; rfl
    rw [reference_of_referenced hn hu.2, reference_of_referenced hd hu.2]
    exact .ok rfl rfl (h.mono (Nat.le_refl _) (Nat.le_refl _) (Nat.le_succ _) (Nat.le_refl _))

/-- **The next nested program has the next natural for its number.** -/
theorem mirrors_addChild (q : Program UInt32) (hn : n.programs < 2 ^ 32) :
    Mirrors (Within p n) (addChild q) (addChild q.read) Counter.toNat
      fun _ => Within p { n with programs := n.programs + 1 } := by
  refine mirrors_modifyGet fun e h => ⟨?_, ?_, { h with programs := ?_ }⟩
  · have hl : e.read.children.length = e.children.length := List.length_map _
    have hc := h.programs
    rw [hl] at hc ⊢
    exact toNat_ofNat_of_lt (hc.trans_lt hn)
  · simp [Assembler.read]
  · rw [List.length_append]
    exact Nat.succ_le_succ h.programs

theorem mirrors_addChild_option (q? : Option (Program UInt32)) (hn : n.programs < 2 ^ 32) :
    Mirrors (Within p n) (q?.mapM addChild) ((q?.map Program.read).mapM addChild)
      (Option.map Counter.toNat)
      fun _ => Within p { n with programs := n.programs + q?.toList.length } := by
  cases q? with
  | none => exact mirrors_pure rfl
  | some q =>
    change Mirrors _ (addChild q >>= fun i => pure (some i))
      (addChild q.read >>= fun i => pure (some i)) _ _
    exact (mirrors_addChild q hn).bind fun i => mirrors_pure rfl

/-- **The morph of the node at hand has the next naturals for its number and its place.** -/
theorem mirrors_place (index length : Nat) (escaped : Bool) (hp : p + 1 < 2 ^ 32)
    (hm : n.morphs + 1 < 2 ^ 32) :
    Mirrors (Within p n) (place index length escaped : Assemble UInt32 UInt32)
      (place index length escaped) Counter.toNat
      fun _ => Within (p + 1) { n with morphs := n.morphs + 1 } := by
  refine (mirrors_visit (Nat.lt_of_succ_lt hp)).bind fun slot => mirrors_modifyGet fun e h => ?_
  obtain ⟨hs, h⟩ := h
  have hstart : (if toNat slot = 0 then none else some slot).map Counter.toNat =
      if toNat slot = 0 then none else some (toNat slot) := by split <;> rfl
  have hstop : (if index + 1 = length then none else some (next slot)).map Counter.toNat =
      if index + 1 = length then none else some (toNat slot + 1) := by
    split
    · rfl
    · exact congrArg some (toNat_next (by omega))
  have hd := Tape.read_defer (t := e.tape) (Nat.lt_of_le_of_lt (Nat.succ_le_succ h.morphs) hm)
    e.cursor.path (if toNat slot = 0 then none else some slot)
    (if index + 1 = length then none else some (next slot)) escaped
  rw [hstart, hstop] at hd
  refine ⟨(congrArg Prod.fst hd).symm, ?_, { h with morphs := ?_ }⟩
  · exact congrArg (fun t => { e.read with tape := t }) (congrArg Prod.snd hd).symm
  · exact (Tape.nextMorph_defer _ _ _ _ _).le.trans (Nat.succ_le_succ h.morphs)

/-! ### Phrases -/

theorem mirrors_forM_push (ops : List (Opcode UInt32)) :
    Mirrors (Within p n) (ops.forM push) ((ops.map Opcode.read).forM push) id
      fun _ => Within p n := by
  induction ops with
  | nil => exact mirrors_pure rfl
  | cons op ops ih => exact (mirrors_push op).bind fun _ => ih

theorem Phrase.Reads.read_verb {u : Phrase UInt32} {v : Phrase Nat} (h : u.Reads v)
    (target : UInt32) : (u.verb target).read = v.verb (toNat target) := by
  have ht : ofNat (toNat target) = target := UInt32.ofNat_toNat
  have hv := h.verb (toNat target) target.toNat_lt
  rwa [ht] at hv

/-- What is bound in a tag is bound to the same element. -/
theorem mirrors_attach {u : Phrase UInt32} {v : Phrase Nat} (h : u.Reads v)
    (hr : n.references < 2 ^ 32) :
    Mirrors (Within p n) (attach u) (attach v) id
      fun _ => Within p { n with references := n.references + 1 } := by
  unfold attach
  rw [← h.operands]
  refine (mirrors_write _).bind fun _ => (mirrors_reference hr).bind fun number => ?_
  rw [← h.read_verb]
  exact mirrors_push _

/-- …and so is everything in it. -/
theorem mirrors_forM_attach {us : List (Phrase UInt32)} {vs : List (Phrase Nat)}
    (h : List.Forall₂ Phrase.Reads us vs) (hr : n.references + us.length < 2 ^ 32) :
    Mirrors (Within p n) (us.forM attach) (vs.forM attach) id
      fun _ => Within p { n with references := n.references + us.length } := by
  induction h generalizing n with
  | nil => exact mirrors_pure rfl
  | @cons u v us vs huv _ ih =>
    rw [List.length_cons] at hr ⊢
    refine (mirrors_attach huv (by omega)).bind fun _ => ?_
    have hs := ih (n := { n with references := n.references + 1 }) (by simp only; omega)
    rw [show n.references + (us.length + 1) = n.references + 1 + us.length by omega]
    exact hs

/-- Operands are written and used up in the same morph. -/
theorem mirrors_fill {u : Phrase UInt32} {v : Phrase Nat} (h : u.Reads v) (morph : UInt32) :
    Mirrors (Within p n) (do write u.operands; push (u.verb morph))
      (do write v.operands; push (v.verb (toNat morph))) id fun _ => Within p n := by
  rw [← h.operands, ← h.read_verb]
  exact (mirrors_write _).bind fun _ => mirrors_push _

end Hydration
