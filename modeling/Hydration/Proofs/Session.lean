import Hydration.Proofs.Progress
import Hydration.Proofs.Splicing
import Hydration.Proofs.Run

/-!
# Proofs/Session — the assembler told of nodes in any order

A walk tells the assembler of nodes as they stand in a document. A session tells it of anything: any
nodes in any order, whether a step goes through or stops halfway. The stream is then not what any
document would give, but it can still be run, since nothing in it is used before it is there.

The argument follows two assemblers through the same session, the second one holding no morph back.
That one keeps the record of all that was written and created, in order. `Lockstep` says that a step
takes both the same way, and `Assembler.InStep` is what relates them between steps.

* `session_safe`: whatever an assembler is told, its stream is the record with morphs moved up;
  numbers are given out in order, and what uses a morph or an element comes after it.
-/

namespace Hydration

open Template Counter

variable {ι : Type}

/-! ## Sessions -/

/-- **What an assembler may be told of.** -/
inductive Notice (ι : Type) where
  /-- A text or comment. -/
  | pass
  /-- An element is opened. -/
  | startElement (element : Element) (single : Bool) (uses : ι) (blanks : List ι)
  /-- An element is closed. -/
  | endElement (single : Bool)
  | mustache (m : Mustache) (index length : Nat)
  | block (b : Block) (index length : Nat) (body : Program ι) (inverse : Option (Program ι))
  | component (c : Component) (index length : Nat) (body : Program ι)

section

variable [Counter ι]

/-- The step for what the assembler is told. -/
def Notice.perform (o : Options) : Notice ι → Assemble ι Unit
  | .pass => Assembler.pass
  | .startElement element single uses blanks =>
    Assembler.startElement o element single uses blanks
  | .endElement single => Assembler.endElement single
  | .mustache m index length => Assembler.mustache m index length
  | .block b index length body inverse => Assembler.block b index length body inverse
  | .component c index length body => Assembler.component c index length body

namespace Assembler

/-- The assembler after a step, whether that goes through or stops at a violation. -/
def tell (o : Options) (e : Assembler ι) (n : Notice ι) : Assembler ι :=
  match n.perform o e with
  | .ok _ e' => e'
  | .error _ e' => e'

/-- **The assembler after a session.** -/
def session (o : Options) (e : Assembler ι) (ns : List (Notice ι)) : Assembler ι :=
  ns.foldl (tell o) e

end Assembler

end

/-! ## Records -/

namespace Opcode

/-- The number of the morph an instruction creates. -/
def creates? (op : Opcode ι) : Option ι := op.morph?.map Morph.id

theorem eq_morph_of_creates? {op : Opcode ι} {id : ι} (h : op.creates? = some id) :
    ∃ m, op = .morph m ∧ m.id = id := by
  cases op with
  | morph m => exact ⟨m, rfl, Option.some.inj h⟩
  | _ => exact absurd h (by simp [creates?, morph?])

theorem eq_element_of_keeps? {op : Opcode ι} {number : ι} (h : op.keeps? = some number) :
    op = .element number := by
  cases op with
  | element number' => exact congrArg Opcode.element (Option.some.inj h)
  | _ => exact absurd h (by simp [keeps?])

/-- **An instruction that may be written as things stand**: it gives out no number, it uses only
morphs and elements that are there, and it is no anchor unless all morphs are placed. -/
structure Fits (placed : Bool) (morphs elements : List ι) (op : Opcode ι) : Prop where
  creates : op.creates? = none
  keeps : op.keeps? = none
  anchor : op.isAnchor → placed = true
  fills : ∀ id, op.fills? = some id → id ∈ morphs
  binds : ∀ number, op.bindsTo? = some number → number ∈ elements

variable {placed : Bool} {morphs elements : List ι} {op : Opcode ι}

theorem Fits.isMorph (h : op.Fits placed morphs elements) : op.isMorph = false := by
  have hc := h.creates
  cases op <;> first | rfl | exact absurd hc (by simp [creates?, morph?])

theorem fits_of_isOperand (h : op.isOperand) : op.Fits placed morphs elements := by
  cases op <;> first
    | exact absurd h Bool.false_ne_true
    | exact ⟨rfl, rfl, nofun, nofun, nofun⟩

theorem fits_of_fills? {id : ι} (h : op.fills? = some id) (hid : id ∈ morphs) :
    op.Fits placed morphs elements := by
  have hf : ∀ id', op.fills? = some id' → id' ∈ morphs := by
    intro id' h'
    rwa [← Option.some.inj (h.symm.trans h')]
  cases op with
  | helper _ _ _ | ambiguous _ | component _ _ => exact ⟨rfl, rfl, nofun, hf, nofun⟩
  | _ => exact absurd h (by simp [fills?])

theorem fits_of_bindsTo? {number : ι} (h : op.bindsTo? = some number) (hn : number ∈ elements) :
    op.Fits placed morphs elements := by
  have hb : ∀ number', op.bindsTo? = some number' → number' ∈ elements := by
    intro number' h'
    rwa [← Option.some.inj (h.symm.trans h')]
  cases op with
  | «attribute» _ _ _ _ | nodeHelper _ _ => exact ⟨rfl, rfl, nofun, nofun, hb⟩
  | _ => exact absurd h (by simp [bindsTo?])

end Opcode

theorem fits_blockParam {placed : Bool} {morphs elements : List ι} (name : String) (index : ι) :
    (Opcode.blockParam name index).Fits placed morphs elements :=
  ⟨rfl, rfl, nofun, nofun, nofun⟩

theorem fits_of_mem_repair {o : Options} {blanks : List ι} {checked placed : Bool}
    {morphs elements : List ι} {op : Opcode ι} (h : op ∈ Assembler.repair o blanks checked) :
    op.Fits placed morphs elements := by
  obtain ⟨_, _, rfl⟩ := eq_of_mem_repair h
  exact ⟨rfl, rfl, nofun, nofun, nofun⟩

/-- **Morphs and elements that are there**, by their numbers. -/
structure Known (record : List (Opcode ι)) (morphs elements : List ι) : Prop where
  created : ∀ id ∈ morphs, id ∈ record.filterMap Opcode.creates?
  kept : ∀ number ∈ elements, number ∈ record.filterMap Opcode.keeps?

namespace Known

variable {record : List (Opcode ι)} {morphs elements : List ι} {number : ι}

/-- Nothing is known to be there. -/
theorem nil : Known record [] [] := ⟨nofun, nofun⟩

/-- What is there stays there. -/
theorem grow (h : Known record morphs elements) (op : Opcode ι) :
    Known (record ++ [op]) morphs elements where
  created id hid := by
    rw [List.filterMap_append]
    exact List.mem_append_left _ (h.created id hid)
  kept number hn := by
    rw [List.filterMap_append]
    exact List.mem_append_left _ (h.kept number hn)

theorem create (h : Known record morphs elements) (m : Morph ι) :
    Known (record ++ [.morph m]) (m.id :: morphs) elements := by
  have hm : m.id ∈ (record ++ [Opcode.morph m]).filterMap Opcode.creates? :=
    List.mem_filterMap.mpr ⟨.morph m, by simp, rfl⟩
  exact ⟨List.forall_mem_cons.mpr ⟨hm, (h.grow _).created⟩, (h.grow _).kept⟩

theorem keep (h : Known record morphs elements) (hn : number ∈ record.filterMap Opcode.keeps?) :
    Known record morphs (number :: elements) :=
  ⟨h.created, List.forall_mem_cons.mpr ⟨hn, h.kept⟩⟩

theorem release (h : Known record morphs (number :: elements)) : Known record morphs elements :=
  ⟨h.created, (List.forall_mem_cons.mp h.kept).2⟩

end Known

variable [Counter ι]

/-- **A record in which nothing is used before it is there**, all numbers given out in order. -/
structure Orderly (record : List (Opcode ι)) (nextMorph : ι) (reference? : Option ι) : Prop where
  created : ∃ n, record.filterMap Opcode.creates? = (List.range n).map ofNat ∧
    nextMorph = ofNat n
  kept : ∃ n, record.filterMap Opcode.keeps? = (List.range n).map ofNat ∧ reference? = last? n
  filled : Preceded (fun y x => y.creates? = x.fills?) (·.fills?.isSome) record
  bound : Preceded (fun y x => y.keeps? = x.bindsTo?) (·.bindsTo?.isSome) record

namespace Orderly

variable {record : List (Opcode ι)} {nextMorph : ι} {reference? : Option ι}

/-- The reference given out last is to an element that is kept. -/
theorem mem_kept (h : Orderly record nextMorph reference?) {number : ι}
    (hr : reference? = some number) : number ∈ record.filterMap Opcode.keeps? := by
  obtain ⟨n, hn, hl⟩ := h.kept
  rw [hn, List.mem_map]
  cases n with
  | zero => exact absurd (hl.symm.trans hr) (by simp [last?])
  | succ n => exact ⟨n, by simp, Option.some.inj (hl.symm.trans hr)⟩

/-- What gives out no number is written at the end. -/
theorem write {op : Opcode ι} {placed : Bool} {morphs elements : List ι}
    (h : Orderly record nextMorph reference?) (hop : op.Fits placed morphs elements)
    (hk : Known record morphs elements) :
    Orderly (record ++ [op]) nextMorph reference? where
  created := by
    rw [List.filterMap_append, List.filterMap_cons_none hop.creates, List.filterMap_nil,
      List.append_nil]
    exact h.created
  kept := by
    rw [List.filterMap_append, List.filterMap_cons_none hop.keeps, List.filterMap_nil,
      List.append_nil]
    exact h.kept
  filled := by
    refine preceded_concat.mpr ⟨h.filled, fun hs => ?_⟩
    obtain ⟨id, hid⟩ := Option.isSome_iff_exists.mp hs
    obtain ⟨y, hy, hc⟩ := List.mem_filterMap.mp (hk.created id (hop.fills id hid))
    exact ⟨y, hy, hc.trans hid.symm⟩
  bound := by
    refine preceded_concat.mpr ⟨h.bound, fun hs => ?_⟩
    obtain ⟨number, hn⟩ := Option.isSome_iff_exists.mp hs
    obtain ⟨y, hy, hb⟩ := List.mem_filterMap.mp (hk.kept number (hop.binds number hn))
    exact ⟨y, hy, hb.trans hn.symm⟩

variable [Lawful ι]

/-- **A morph is created under the next number.** -/
theorem create {m : Morph ι} (h : Orderly record nextMorph reference?) (hm : m.id = nextMorph) :
    Orderly (record ++ [.morph m]) (next nextMorph) reference? where
  created := by
    obtain ⟨n, hn, rfl⟩ := h.created
    refine ⟨n + 1, ?_, next_ofNat n⟩
    rw [List.filterMap_append, hn, List.range_succ, List.map_append]
    exact congrArg ((List.range n).map ofNat ++ [·]) hm
  kept := by
    rw [List.filterMap_append, List.filterMap_cons_none rfl, List.filterMap_nil, List.append_nil]
    exact h.kept
  filled := preceded_concat.mpr ⟨h.filled, nofun⟩
  bound := preceded_concat.mpr ⟨h.bound, nofun⟩

/-- **An element is kept under the next number.** -/
theorem keep (h : Orderly record nextMorph reference?) :
    Orderly (record ++ [.element (after reference?)]) nextMorph (some (after reference?)) where
  created := by
    rw [List.filterMap_append, List.filterMap_cons_none rfl, List.filterMap_nil, List.append_nil]
    exact h.created
  kept := by
    obtain ⟨n, hn, rfl⟩ := h.kept
    refine ⟨n + 1, ?_, by rw [after_last?]; rfl⟩
    rw [List.filterMap_append, hn, List.range_succ, List.map_append, after_last?]
    rfl
  filled := preceded_concat.mpr ⟨h.filled, nofun⟩
  bound := preceded_concat.mpr ⟨h.bound, nofun⟩

end Orderly

/-! ## Two assemblers in step -/

/-- **An assembler that holds morphs back and one that does not**, told the same. All morphs may be
`placed`, and some morphs and elements are known to be there. -/
structure Assembler.InStep (placed : Bool) (morphs elements : List ι) (e d : Assembler ι) :
    Prop where
  children : d.children = e.children
  cursor : d.cursor = e.cursor
  reference : d.reference? = e.reference?
  unreferenced : d.unreferenced = e.unreferenced
  tapes : e.tape.Twins d.tape
  placed : placed = true → e.tape.pending = []
  orderly : Orderly d.tape.opcodes e.tape.nextMorph e.reference?
  known : Known d.tape.opcodes morphs elements

namespace Assembler.InStep

variable {placed : Bool} {morphs elements : List ι} {e d : Assembler ι}

/-- What is known is forgotten. -/
theorem forget (h : InStep placed morphs elements e d) : InStep false [] [] e d :=
  { h with placed := nofun, known := .nil }

theorem push {op : Opcode ι} (h : InStep placed morphs elements e d)
    (hop : op.Fits placed morphs elements) :
    InStep placed morphs elements { e with tape := e.tape.push op }
      { d with tape := d.tape.push op } where
  children := h.children
  cursor := h.cursor
  reference := h.reference
  unreferenced := h.unreferenced
  tapes := h.tapes.push hop.isMorph fun ha => h.placed (hop.anchor ha)
  placed hp := (Tape.pending_push _ _).trans (h.placed hp)
  orderly := by
    rw [Tape.opcodes_push, Tape.nextMorph_push]
    exact h.orderly.write hop h.known
  known := by
    rw [Tape.opcodes_push]
    exact h.known.grow op

theorem append {ops : List (Opcode ι)} (h : InStep placed morphs elements e d)
    (hops : ∀ op ∈ ops, op.Fits placed morphs elements) :
    InStep placed morphs elements { e with tape := e.tape.append ops }
      { d with tape := d.tape.append ops } := by
  induction ops generalizing e d with
  | nil => exact h
  | cons op ops ih =>
    exact ih (h.push (hops op List.mem_cons_self)) fun op' h' =>
      hops op' (List.mem_cons_of_mem op h')

/-- **The element opened last is kept**, all morphs being placed. -/
theorem keep [Lawful ι] (h : InStep true morphs elements e d) :
    InStep true morphs (after e.reference? :: elements)
      { e with
        reference? := some (after e.reference?)
        unreferenced := false
        tape := e.tape.push (.element (after e.reference?)) }
      { d with
        reference? := some (after e.reference?)
        unreferenced := false
        tape := d.tape.push (.element (after e.reference?)) } where
  children := h.children
  cursor := h.cursor
  reference := rfl
  unreferenced := rfl
  tapes := h.tapes.push rfl fun _ => h.placed rfl
  placed hp := (Tape.pending_push _ _).trans (h.placed hp)
  orderly := by
    rw [Tape.opcodes_push, Tape.nextMorph_push]
    exact h.orderly.keep
  known := by
    rw [Tape.opcodes_push]
    exact (h.known.grow _).keep (List.mem_filterMap.mpr ⟨.element _, by simp, rfl⟩)

/-- **A morph is created**, in both under the same number. -/
theorem create [Lawful ι] (h : InStep placed morphs elements e d) (path : List ι)
    (start stop : Option ι) (escaped : Bool) :
    InStep false (e.tape.nextMorph :: morphs) elements
      { e with tape := (e.tape.defer path start stop escaped).2 }
      { d with tape := (d.tape.defer path start stop escaped).2 } where
  children := h.children
  cursor := h.cursor
  reference := h.reference
  unreferenced := h.unreferenced
  tapes := h.tapes.defer path start stop escaped
  placed := nofun
  orderly := by
    rw [Tape.defer_of_inPlace h.tapes.inPlace, Tape.opcodes_push, Tape.nextMorph_defer]
    exact h.orderly.create h.tapes.nextMorph
  known := by
    rw [Tape.defer_of_inPlace h.tapes.inPlace, Tape.opcodes_push, ← h.tapes.nextMorph]
    exact h.known.create _

end Assembler.InStep

/-! ## Steps in lockstep -/

open Assembler

variable {α β : Type}

/-- Two results that agree: the same value and states in `S`, or the same violation and states in
step. -/
inductive Agree (S : α → Assembler ι → Assembler ι → Prop) :
    EStateM.Result Violation (Assembler ι) α → EStateM.Result Violation (Assembler ι) α →
      Prop where
  | ok {a : α} {e d : Assembler ι} (h : S a e d) : Agree S (.ok a e) (.ok a d)
  | error {v : Violation} {e d : Assembler ι} (h : InStep false [] [] e d) :
    Agree S (.error v e) (.error v d)

/-- **From states in `R` the step takes both assemblers the same way**: to states in `S` if it goes
through, and still in step if it stops. -/
def Lockstep (R : Assembler ι → Assembler ι → Prop) (x : Assemble ι α)
    (S : α → Assembler ι → Assembler ι → Prop) : Prop :=
  ∀ e d, R e d → Agree S (x e) (x d)

variable {R : Assembler ι → Assembler ι → Prop} {S : α → Assembler ι → Assembler ι → Prop}
  {T : β → Assembler ι → Assembler ι → Prop} {x : Assemble ι α}

/-- **Steps in a row.** -/
theorem Lockstep.bind {f : α → Assemble ι β} (hx : Lockstep R x S)
    (hf : ∀ a, Lockstep (S a) (f a) T) : Lockstep R (x >>= f) T := by
  intro e d h
  change Agree T (EStateM.bind x f e) (EStateM.bind x f d)
  unfold EStateM.bind
  have hr := hx e d h
  generalize x e = r, x d = r' at hr ⊢
  cases hr with
  | ok h' => exact hf _ _ _ h'
  | error h' => exact .error h'

theorem Lockstep.imp {S' : α → Assembler ι → Assembler ι → Prop} (hx : Lockstep R x S)
    (h : ∀ a e d, S a e d → S' a e d) : Lockstep R x S' := by
  intro e d hR
  have hr := hx e d hR
  generalize x e = r, x d = r' at hr ⊢
  cases hr with
  | ok h' => exact .ok (h _ _ _ h')
  | error h' => exact .error h'

theorem lockstep_pure (a : α) : Lockstep R (pure a) fun _ => R :=
  fun _ _ h => .ok h

theorem lockstep_throw (v : Violation) (h : ∀ e d, R e d → InStep false [] [] e d) :
    Lockstep R (throw v : Assemble ι α) S :=
  fun e d hR => .error (h e d hR)

theorem lockstep_modifyGet {g : Assembler ι → α × Assembler ι}
    (h : ∀ e d, R e d → (g d).1 = (g e).1 ∧ S (g e).1 (g e).2 (g d).2) :
    Lockstep R (modifyGet g) S := by
  intro e d hR
  obtain ⟨ha, hS⟩ := h e d hR
  change Agree S (.ok (g e).1 (g e).2) (.ok (g d).1 (g d).2)
  rw [ha]
  exact .ok hS

theorem lockstep_modify {R' : Assembler ι → Assembler ι → Prop} {g : Assembler ι → Assembler ι}
    (h : ∀ e d, R e d → R' (g e) (g d)) : Lockstep R (modify g) fun _ => R' :=
  fun e d hR => .ok (h e d hR)

theorem Lockstep.discard {R' : Assembler ι → Assembler ι → Prop} (hx : Lockstep R x S)
    (h : ∀ a e d, S a e d → R' e d) : Lockstep R (discard x) fun _ => R' := by
  intro e d hR
  change Agree _ (EStateM.map (Function.const α PUnit.unit) x e)
    (EStateM.map (Function.const α PUnit.unit) x d)
  unfold EStateM.map
  have hr := hx e d hR
  generalize x e = r, x d = r' at hr ⊢
  cases hr with
  | ok h' => exact .ok (h _ _ _ h')
  | error h' => exact .error h'

/-- **Steps for each of a list.** -/
theorem lockstep_forM {γ : Type} {f : γ → Assemble ι Unit} {xs : List γ}
    (h : ∀ y ∈ xs, Lockstep R (f y) fun _ => R) : Lockstep R (xs.forM f) fun _ => R := by
  induction xs with
  | nil => exact lockstep_pure _
  | cons y xs ih =>
    exact (h y List.mem_cons_self).bind fun _ => ih fun z hz => h z (List.mem_cons_of_mem y hz)

/-! ### Parts of steps -/

variable {placed : Bool} {morphs elements : List ι}

theorem lockstep_push {op : Opcode ι} (hop : op.Fits placed morphs elements) :
    Lockstep (InStep placed morphs elements) (push op) fun _ => InStep placed morphs elements :=
  lockstep_modify fun _ _ h => h.push hop

/-- **Code is written up to its violation by both.** -/
theorem lockstep_write {code : Code ι} (hc : code.IsOperands) :
    Lockstep (InStep placed morphs elements) (write code)
      fun _ => InStep placed morphs elements := by
  refine (lockstep_modify fun e d h => h.append fun op hop =>
    Opcode.fits_of_isOperand (hc op hop)).bind fun _ => ?_
  cases code.violation? with
  | some v => exact lockstep_throw v fun e d h => h.forget
  | none => exact lockstep_pure _

/-- **Morphs are placed by the first**, the second has none to place. -/
theorem lockstep_flush :
    Lockstep (InStep placed morphs elements) (flush : Assemble ι Unit)
      fun _ => InStep true morphs elements := by
  refine lockstep_modify fun e d h => ?_
  have hd : d.tape.pending.isEmpty = true := List.isEmpty_iff.mpr h.tapes.pending
  rw [if_pos hd]
  split
  next hp => exact { h with placed := fun _ => List.isEmpty_iff.mp hp }
  next =>
    refine { h with tapes := h.tapes.flush, placed := fun _ => Tape.pending_flush _, orderly := ?_ }
    rw [Tape.nextMorph_flush]
    exact h.orderly

theorem lockstep_visit :
    Lockstep (InStep placed morphs elements) (visit : Assemble ι ι)
      fun _ => InStep placed morphs elements := by
  refine lockstep_modifyGet fun e d h => ?_
  rw [h.cursor]
  exact ⟨rfl, { h with cursor := rfl }⟩

/-- The cursor is moved in both. -/
theorem lockstep_cursor (g : Cursor ι → Cursor ι) :
    Lockstep (InStep placed morphs elements)
      (modify fun e => { e with cursor := g e.cursor } : Assemble ι PUnit)
      fun _ => InStep placed morphs elements :=
  lockstep_modify fun _ _ h => { h with cursor := congrArg g h.cursor }

theorem lockstep_unreferenced :
    Lockstep (InStep placed morphs elements)
      (modify ({ · with unreferenced := true }) : Assemble ι PUnit)
      fun _ => InStep placed morphs elements :=
  lockstep_modify fun _ _ h => { h with unreferenced := rfl }

theorem lockstep_addChild (p : Program ι) :
    Lockstep (InStep placed morphs elements) (addChild p)
      fun _ => InStep placed morphs elements := by
  refine lockstep_modifyGet fun e d h => ?_
  rw [h.children]
  exact ⟨rfl, { h with children := rfl }⟩

theorem lockstep_addChild_option (p? : Option (Program ι)) :
    Lockstep (InStep placed morphs elements) (p?.mapM addChild)
      fun _ => InStep placed morphs elements := by
  cases p? with
  | none => exact lockstep_pure _
  | some p => exact (lockstep_addChild p).bind fun _ => lockstep_pure _

variable [Lawful ι]

/-- **The reference to the element opened last is one that is kept.** -/
theorem lockstep_reference :
    Lockstep (InStep true morphs elements) (reference : Assemble ι ι)
      fun number => InStep true morphs (number :: elements) := by
  intro e d h
  -- Both ask the same of their state. A reference that is given out again was kept before, since
  -- the record has all of them.
  by_cases hu : e.reference? = none ∨ e.unreferenced = true
  · have hd : d.reference? = none ∨ d.unreferenced = true := by rwa [h.reference, h.unreferenced]
    rw [reference_of_unreferenced hu, reference_of_unreferenced hd, h.reference]
    exact .ok h.keep
  · rw [not_or, Bool.not_eq_true] at hu
    obtain ⟨number, hn⟩ := Option.ne_none_iff_exists'.mp hu.1
    rw [reference_of_referenced hn hu.2,
      reference_of_referenced (h.reference.trans hn) (h.unreferenced.trans hu.2)]
    exact .ok { h with known := h.known.keep (h.orderly.mem_kept hn) }

/-- **A morph is created for the node at hand.** -/
theorem lockstep_place (index length : Nat) (escaped : Bool) :
    Lockstep (InStep placed morphs elements) (place index length escaped : Assemble ι ι)
      fun id => InStep false (id :: morphs) elements := by
  refine lockstep_visit.bind fun slot => lockstep_modifyGet fun e d h => ⟨h.tapes.nextMorph, ?_⟩
  rw [congrArg Cursor.path h.cursor]
  exact h.create _ _ _ _

/-! ### Steps -/

/-- What is bound in a tag is bound to an element that is kept. -/
theorem lockstep_attach {e : Element} {p : Phrase ι} (hp : p ∈ e.phrases) :
    Lockstep (InStep true morphs elements) (attach p) fun _ => InStep true morphs elements := by
  refine (lockstep_write p.isOperands).bind fun _ => lockstep_reference.bind fun number => ?_
  have hb := Element.bindsTo?_of_mem_phrases hp number
  exact (lockstep_push (Opcode.fits_of_bindsTo? hb List.mem_cons_self)).imp fun _ e d h =>
    { h with known := h.known.release }

theorem lockstep_arrive (o : Options) (single : Bool) (uses index : ι) :
    Lockstep (InStep true morphs elements) (arrive o single uses index)
      fun _ => InStep true morphs elements := by
  unfold arrive
  cases single with
  | true => exact lockstep_pure _
  | false =>
    refine (lockstep_push ⟨rfl, rfl, fun _ => rfl, nofun, nofun⟩).bind fun _ => ?_
    by_cases hu : o.cacheThreshold.toNat < toNat uses
    · rw [if_pos hu]
      exact lockstep_reference.discard fun _ e d h => { h with known := h.known.release }
    · rw [if_neg hu]
      exact lockstep_pure _

theorem lockstep_startElement (o : Options) (element : Element) (single : Bool) (uses : ι)
    (blanks : List ι) :
    Lockstep (InStep false [] []) (startElement o element single uses blanks)
      fun _ => InStep false [] [] := by
  rw [startElement_eq, ← forM_phrases]
  -- Once the morphs are placed none is created in the tag, so anchors may be written to its end.
  refine lockstep_flush.bind fun _ => lockstep_visit.bind fun index => ?_
  refine lockstep_unreferenced.bind fun _ => (lockstep_arrive o single uses index).bind fun _ => ?_
  refine (lockstep_forM fun op hop => lockstep_push (fits_of_mem_repair hop)).bind fun _ => ?_
  refine (lockstep_cursor (·.descend index)).bind fun _ => ?_
  exact (lockstep_forM fun p hp => lockstep_attach hp).imp fun _ e d h => h.forget

omit [Lawful ι] in
theorem lockstep_endElement (single : Bool) :
    Lockstep (InStep false [] []) (endElement single : Assemble ι Unit)
      fun _ => InStep false [] [] := by
  have hd : Lockstep (InStep true [] []) (depart single : Assemble ι Unit)
      fun _ => InStep true [] [] := by
    unfold depart
    cases single with
    | true => exact lockstep_pure _
    | false => exact lockstep_push ⟨rfl, rfl, fun _ => rfl, nofun, nofun⟩
  rw [endElement_eq]
  refine lockstep_flush.bind fun _ => hd.bind fun _ => ?_
  exact (lockstep_cursor Cursor.ascend).imp fun _ e d h => h.forget

omit [Lawful ι] in
/-- Operands are written, and used up in a morph that is there. -/
theorem lockstep_fill {code : Code ι} (hc : code.IsOperands) {verb : Opcode ι} {id : ι}
    (hv : verb.fills? = some id) :
    Lockstep (InStep false [id] []) (do write code; push verb) fun _ => InStep false [] [] :=
  (lockstep_write hc).bind fun _ =>
    (lockstep_push (Opcode.fits_of_fills? hv List.mem_cons_self)).imp fun _ _ _ h => h.forget

theorem lockstep_mustache (m : Mustache) (index length : Nat) :
    Lockstep (InStep false [] []) (mustache m index length : Assemble ι Unit)
      fun _ => InStep false [] [] := by
  rw [mustache_eq]
  refine (lockstep_place index length m.escaped).bind fun id => ?_
  have hp : (Statement.mustache m).phrase? 0 = some (m.phrase : Phrase ι) := rfl
  exact lockstep_fill m.phrase.isOperands (Statement.fills?_of_phrase? hp id)

theorem lockstep_block (b : Block) (index length : Nat) (body : Program ι)
    (inverse : Option (Program ι)) :
    Lockstep (InStep false [] []) (block b index length body inverse)
      fun _ => InStep false [] [] := by
  refine (lockstep_place index length true).bind fun id => (lockstep_addChild body).bind fun body =>
    (lockstep_addChild_option inverse).bind fun inverse => ?_
  exact (lockstep_push (Opcode.fits_of_isOperand rfl)).bind fun _ =>
    lockstep_fill b.call.isExpr_code.isOperands rfl

theorem lockstep_component (c : Component) (index length : Nat) (body : Program ι) :
    Lockstep (InStep false [] []) (component c index length body)
      fun _ => InStep false [] [] := by
  have hr : Lockstep (InStep false [] []) (requireTag c : Assemble ι Unit)
      fun _ => InStep false [] [] := by
    unfold requireTag
    by_cases ht : c.tag = ""
    · rw [if_pos ht]
      exact lockstep_throw _ fun e d h => h
    · rw [if_neg ht]
      exact lockstep_pure _
  rw [component_eq]
  refine hr.bind fun _ => (lockstep_place index length false).bind fun id =>
    (lockstep_addChild body).bind fun body => ?_
  exact (lockstep_push (Opcode.fits_of_isOperand rfl)).bind fun _ => lockstep_fill
    ((Code.isExpr_one rfl).append (attributesHash c.attributes).isExpr_code).isOperands rfl

/-- **Whatever the assemblers are told takes them the same way.** -/
theorem lockstep_perform (o : Options) (n : Notice ι) :
    Lockstep (InStep false [] []) (n.perform o) fun _ => InStep false [] [] := by
  cases n with
  | pass => exact lockstep_visit.discard fun _ e d h => h
  | startElement element single uses blanks =>
    exact lockstep_startElement o element single uses blanks
  | endElement single => exact lockstep_endElement single
  | mustache m index length => exact lockstep_mustache m index length
  | block b index length body inverse => exact lockstep_block b index length body inverse
  | component c index length body => exact lockstep_component c index length body

/-! ## Whole sessions -/

namespace Assembler

/-- **Being told the same keeps assemblers in step**, also by what stops halfway. -/
theorem InStep.tell (o : Options) {e d : Assembler ι} (h : InStep false [] [] e d)
    (n : Notice ι) : InStep false [] [] (e.tell o n) (d.tell o n) := by
  have hr := lockstep_perform o n e d h
  unfold Assembler.tell
  generalize n.perform o e = r, n.perform o d = r' at hr ⊢
  cases hr with
  | ok h' => exact h'
  | error h' => exact h'

/-- **A session keeps assemblers in step.** -/
theorem InStep.session (o : Options) {e d : Assembler ι} (h : InStep false [] [] e d)
    (ns : List (Notice ι)) : InStep false [] [] (e.session o ns) (d.session o ns) := by
  induction ns generalizing e d with
  | nil => exact h
  | cons n ns ih => exact ih (h.tell o n)

omit [Lawful ι] in
/-- A new program is in step with itself. -/
theorem inStep_start (o : Options) (params : List String) (blanks : List ι) :
    InStep false [] [] (start o params blanks) (start o params blanks).inPlace := by
  have h : InStep false [] [] ({ tape := Tape.empty } : Assembler ι)
      ({ tape := Tape.empty } : Assembler ι).inPlace := by
    refine ⟨rfl, rfl, rfl, rfl, ⟨rfl, rfl, rfl, rfl, Nat.le_refl 0, .nil⟩, fun _ => rfl, ?_, .nil⟩
    exact ⟨⟨0, rfl, rfl⟩, ⟨0, rfl, rfl⟩, preceded_nil, preceded_nil⟩
  have hh : ∀ op ∈ (params.zipIdx.map fun x => Opcode.blockParam x.1 (ofNat x.2 : ι)) ++
      repair o blanks false, op.Fits false [] [] := by
    intro op hop
    rcases List.mem_append.mp hop with hop | hop
    · obtain ⟨x, -, rfl⟩ := List.mem_map.mp hop
      exact fits_blockParam x.1 (ofNat x.2)
    · exact fits_of_mem_repair hop
  have hs := h.append hh
  rw [inPlace, Tape.append_inPlace] at hs
  exact hs

/-- **The record of a session**: all that is written and created, in order. -/
def record (o : Options) (params : List String) (blanks : List ι) (ns : List (Notice ι)) :
    List (Opcode ι) :=
  ((start o params blanks).inPlace.session o ns).tape.opcodes

end Assembler

/-- **A stream that can be run for its record.** -/
structure Safe (record stream : List (Opcode ι)) : Prop where
  /-- All but the morphs is as it was written. -/
  others : stream.filter (!·.isMorph) = record.filter (!·.isMorph)
  /-- The morphs are those that were created, in some order… -/
  morphs : (stream.filterMap Opcode.morph?).Perm (record.filterMap Opcode.morph?)
  /-- …and numbered from zero on, no number used twice. -/
  ids : ((stream.filterMap Opcode.morph?).map fun m => Counter.toNat m.id).Perm
    (List.range (stream.filterMap Opcode.morph?).length)
  /-- What fills a morph comes after it. -/
  filled : ∀ front op back, stream = front ++ op :: back →
    ∀ id, op.fills? = some id → ∃ m, .morph m ∈ front ∧ m.id = id
  /-- Elements are numbered from zero on, in order. -/
  elements : (stream.filterMap Opcode.keeps?).map Counter.toNat =
    List.range (stream.filterMap Opcode.keeps?).length
  /-- What is bound to an element comes after that. -/
  bound : ∀ front op back, stream = front ++ op :: back →
    ∀ number, op.bindsTo? = some number → .element number ∈ front

omit [Counter ι] [Lawful ι] in
/-- Numbers given out in order that fit in a word are read back in order. -/
theorem toNat_of_eq_range {numbers : List UInt32} {n : Nat}
    (h : numbers = (List.range n).map ofNat) (hl : numbers.length ≤ 2 ^ 32) :
    numbers.map Counter.toNat = List.range numbers.length := by
  have hn : numbers.length = n := by rw [h, List.length_map, List.length_range]
  rw [hn, h, map_toNat_map_ofNat]
  intro k hk
  have := List.mem_range.mp hk
  omega

omit [Counter ι] [Lawful ι] in
theorem Assembler.InStep.safe {e d : Assembler UInt32} (h : InStep false [] [] e d)
    (hm : (d.tape.opcodes.filterMap Opcode.morph?).length ≤ 2 ^ 32)
    (hk : (d.tape.opcodes.filterMap Opcode.keeps?).length ≤ 2 ^ 32) :
    Safe d.tape.opcodes e.tape.flush.opcodes := by
  have hs := h.tapes.splices
  have hp := hs.perm.filterMap Opcode.morph?
  refine ⟨hs.filter_eq, hp, ?_, ?_, ?_, ?_⟩
  · obtain ⟨n, hn, -⟩ := h.orderly.created
    have hc : d.tape.opcodes.filterMap Opcode.creates? =
        (d.tape.opcodes.filterMap Opcode.morph?).map Morph.id := by
      rw [List.map_filterMap]
      rfl
    rw [hc] at hn
    have hr := toNat_of_eq_range hn (by rwa [List.length_map])
    rw [List.map_map, List.length_map, ← hp.length_eq] at hr
    rw [← hr]
    exact hp.map _
  · intro front op back hsplit id hid
    obtain ⟨y, hy, hc⟩ := hs.preceded nofun h.orderly.filled front op back hsplit (by simp [hid])
    obtain ⟨m, rfl, hm⟩ := Opcode.eq_morph_of_creates? (hc.trans hid)
    exact ⟨m, hy, hm⟩
  · obtain ⟨n, hn, -⟩ := h.orderly.kept
    have hm : ∀ op : Opcode UInt32, op.keeps?.isSome → (!op.isMorph) = true := by
      intro op h'
      obtain ⟨number, hn⟩ := Option.isSome_iff_exists.mp h'
      rw [Opcode.eq_element_of_keeps? hn]
      rfl
    rw [← filterMap_filter_of_isSome hm, hs.filter_eq, filterMap_filter_of_isSome hm]
    exact toNat_of_eq_range hn hk
  · intro front op back hsplit number hn
    obtain ⟨y, hy, hb⟩ := hs.preceded nofun h.orderly.bound front op back hsplit (by simp [hn])
    rwa [Opcode.eq_element_of_keeps? (hb.trans hn)] at hy

/-- **Whatever an assembler is told, its stream can be run**: it is the record of the session with
morphs moved up, each created once, before all that fills it; and elements are kept in order, each
before all that is bound to it. -/
theorem session_safe (o : Options) (params : List String) (blanks : List UInt32)
    (ns : List (Notice UInt32))
    (hm : ((Assembler.record o params blanks ns).filterMap Opcode.morph?).length ≤ 2 ^ 32)
    (hk : ((Assembler.record o params blanks ns).filterMap Opcode.keeps?).length ≤ 2 ^ 32) :
    Safe (Assembler.record o params blanks ns)
      ((Assembler.start o params blanks).session o ns).finish.1.opcodes :=
  ((Assembler.inStep_start o params blanks).session o ns).safe hm hk

/-- **A session that no document gives**: two only roots, closed one after the other, leave two
batches of morphs behind one anchor, and a mustache, a tag and a component stop at a violation. -/
def Notice.strays : List (Notice UInt32) :=
  let root : Element := { tag := "div" }
  let broken : Path := { segments := ["a", ""] }
  let item : Fragment := { body := [], blockParams := ["item"] }
  [.startElement root true 0 [],
    .startElement root true 0 [],
    .mustache { call := { callee := { segments := ["title"] } } } 0 3,
    .endElement true,
    .mustache { call := { callee := broken } } 1 3,
    .block { call := { callee := { segments := ["each"] } }, body := item } 2 3 {} (some {}),
    .endElement true,
    .startElement {
      tag := "p"
      attributes := [{ name := "class", value := [.path { segments := ["kind"] }] }]
      helpers := [{ callee := broken }] } false 1 [],
    .component { tag := "", attributes := [], body := item } 0 1 {},
    .component { tag := "page-footer", attributes := [], body := item } 0 1 {},
    .endElement false]

theorem session_safe_strays :
    ((Assembler.record {} ["row"] [0] Notice.strays).filterMap Opcode.morph?).length ≤ 2 ^ 32 ∧
      ((Assembler.record {} ["row"] [0] Notice.strays).filterMap Opcode.keeps?).length ≤ 2 ^ 32 ∧
        Safe (Assembler.record {} ["row"] [0] Notice.strays)
          ((Assembler.start {} ["row"] [0]).session {} Notice.strays).finish.1.opcodes := by
  have hm : ((Assembler.record {} ["row"] [0] Notice.strays).filterMap
      Opcode.morph?).length ≤ 2 ^ 32 := by decide +kernel
  have hk : ((Assembler.record {} ["row"] [0] Notice.strays).filterMap
      Opcode.keeps?).length ≤ 2 ^ 32 := by decide +kernel
  exact ⟨hm, hk, session_safe {} ["row"] [0] Notice.strays hm hk⟩

end Hydration
