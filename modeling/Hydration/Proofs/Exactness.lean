import Hydration.Proofs.Mirror
import Mathlib.Algebra.Order.Ring.Nat
import Mathlib.Logic.Relation

/-!
# Proofs/Exactness — compiling with words is compiling with naturals

Every step of a walk gives out at most as many numbers of each kind as the node it enters has nodes
(`mirrors_enter`), so the numbers of a fragment with fewer than `2 ^ 32` nodes fit in words, up to
any step of the walk (`mirrors_visits`). What is counted at once, the uses of an element and the
positions of its blank texts, fits for the same reason.

* `compile_exact`: a template with fewer than `2 ^ 32` nodes compiles to the same program or
  violation with words and with naturals, and on the way there the two assemblers have the same
  numbers.
-/

namespace Hydration

open Template Counter Assembler

/-! ## Steps -/

/-- **No number of any kind is beyond `k`.** -/
def Assembler.Below (k : Nat) (d : Assembler Nat) : Prop :=
  d.Within k { morphs := k, references := k, programs := k }

/-- Bounds for the kinds are one bound for all of them. -/
theorem Assembler.Within.below {d : Assembler Nat} {p : Nat} {n : Numbers} (h : d.Within p n)
    {k : Nat} (hk : max p (max n.morphs (max n.references n.programs)) ≤ k) : d.Below k := by
  simp only [Nat.max_le] at hk
  obtain ⟨hp, hm, hr, hc⟩ := hk
  exact h.mono hp hm hr hc

section Steps

variable {p : Nat} {n : Numbers} {k : Nat}

theorem mirrors_unreferenced :
    Mirrors (Within p n) (modify ({ · with unreferenced := true }) : Assemble UInt32 PUnit)
      (modify ({ · with unreferenced := true })) id fun _ => Within p n :=
  mirrors_modify fun _ h => ⟨rfl, { h with }⟩

theorem mirrors_arrive (o : Options) (single : Bool) {uses : UInt32} {uses' : Nat}
    (hu : toNat uses = uses') (index : UInt32) (hr : n.references < 2 ^ 32) :
    Mirrors (Within p n) (arrive o single uses index) (arrive o single uses' (toNat index)) id
      fun _ => Within p { n with references := n.references + 1 } := by
  have skip : Mirrors (Within p n) (pure () : Assemble UInt32 Unit) (pure ()) id
      fun _ => Within p { n with references := n.references + 1 } :=
    (mirrors_pure rfl).imp fun _ d h =>
      h.mono (Nat.le_refl _) (Nat.le_refl _) (Nat.le_succ _) (Nat.le_refl _)
  subst hu
  unfold arrive
  cases single with
  | true => exact skip
  | false =>
    refine (mirrors_push _).bind fun _ => ?_
    rw [toNat_nat]
    by_cases ht : o.cacheThreshold.toNat < toNat uses
    · rw [if_pos ht, if_pos ht]
      exact (mirrors_reference hr).discard fun _ d h => h
    · rw [if_neg ht, if_neg ht]
      exact skip

theorem mirrors_descend (index : UInt32) (hi : toNat index < p) :
    Mirrors (Within p n)
      (modify fun e => { e with cursor := e.cursor.descend index } : Assemble UInt32 PUnit)
      (modify fun e => { e with cursor := e.cursor.descend (toNat index) }) id
      fun _ => Within p n := by
  refine mirrors_modify fun e h => ⟨?_, h.descend hi⟩
  simp [Assembler.read, Cursor.read, Cursor.descend]

theorem mirrors_endElement (single : Bool) :
    Mirrors (Within p n) (endElement single : Assemble UInt32 Unit) (endElement single) id
      fun _ => Within p n := by
  have hd : Mirrors (Within p n) (depart single : Assemble UInt32 Unit) (depart single) id
      fun _ => Within p n := by
    unfold depart
    cases single with
    | true => exact mirrors_pure rfl
    | false => exact mirrors_push _
  rw [endElement_eq, endElement_eq]
  refine mirrors_flush.bind fun _ => hd.bind fun _ => mirrors_modify fun e h => ⟨?_, h.ascend⟩
  simp [Assembler.read, Cursor.read, Cursor.ascend, List.map_dropLast]

theorem mirrors_mustache (m : Mustache) (index length : Nat)
    (hk : k + (Statement.mustache m).size < 2 ^ 32) :
    Mirrors (Below k) (mustache m index length : Assemble UInt32 Unit) (mustache m index length) id
      fun _ => Below (k + (Statement.mustache m).size) := by
  have hs := (Statement.mustache m).size_pos
  have hc : m.call.size < 2 ^ 32 := by
    rw [Statement.size] at hk
    omega
  rw [mustache_eq, mustache_eq]
  refine (mirrors_place index length m.escaped (by omega) (by simp only; omega)).bind fun id => ?_
  exact (mirrors_fill (m.reads_phrase hc) id).imp fun _ d h => h.below (by simp only; omega)

/-- **An element gives out no more numbers than it has nodes.** -/
theorem mirrors_startElement (o : Options) (e : Element) (single : Bool) (hu : e.uses < 2 ^ 32)
    (hc : e.children.length < 2 ^ 32) (hk : k + (Statement.element e).size < 2 ^ 32) :
    Mirrors (Below k)
      (startElement o e single (ofNat e.uses) (blanks e.children) : Assemble UInt32 Unit)
      (startElement o e single (ofNat e.uses) (blanks e.children)) id
      fun _ => Below (k + (Statement.element e).size) := by
  have hl : (e.phrases : List (Phrase UInt32)).length + 1 ≤ (Statement.element e).size := by
    have ha := length_attributes_le e.attributes
    have hh := length_helpers_le e.helpers
    have hf := List.length_filter_le (!·.isStatic) e.attributes
    rw [Element.phrases, List.length_append, List.length_map, List.length_map, Statement.size]
    omega
  rw [startElement_eq, startElement_eq, ← forM_phrases, ← forM_phrases]
  refine mirrors_flush.bind fun _ => (mirrors_visit (by omega)).bind fun index => ?_
  refine mirrors_of_and fun hi => ?_
  refine mirrors_unreferenced.bind fun _ => ?_
  refine (mirrors_arrive o single (toNat_ofNat_of_lt hu) index (by simp only; omega)).bind ?_
  intro _
  rw [← read_blanks hc, ← read_repair]
  refine (mirrors_forM_push _).bind fun _ => (mirrors_descend index hi).bind fun _ => ?_
  refine (mirrors_forM_attach (Element.reads_phrases (by omega)) (by simp only; omega)).imp ?_
  exact fun _ d h => h.below (by simp only; omega)

/-- **A block gives out no more numbers than it has nodes.** -/
theorem mirrors_block (b : Block) (index length : Nat) (body : Program UInt32)
    (inverse : Option (Program UInt32)) (hk : k + (Statement.block b).size < 2 ^ 32) :
    Mirrors (Below k) (block b index length body inverse)
      (block b index length body.read (inverse.map Program.read)) id
      fun _ => Below (k + (Statement.block b).size) := by
  have hcall := b.call.bounds.1
  have hsize : 3 ≤ (Statement.block b).size ∧ b.call.size < (Statement.block b).size := by
    have := b.body.size_eq
    rw [Statement.size, List.map_cons, List.sum_cons]
    omega
  have hinverse : inverse.toList.length ≤ 1 := by cases inverse <;> simp
  refine (mirrors_place index length true (by omega) (by simp only; omega)).bind fun morph => ?_
  refine (mirrors_addChild body (by simp only; omega)).bind fun body => ?_
  refine (mirrors_addChild_option inverse (by simp only; omega)).bind fun inverse' => ?_
  refine (mirrors_push (.program (some body) inverse')).bind fun _ => ?_
  rw [← b.call.read_code (by omega)]
  refine (mirrors_write _).bind fun _ => ?_
  have hreads : (b.phrase 0 : Phrase UInt32).Reads (b.phrase 0) :=
    b.reads_phrase (by omega) (by decide)
  refine (hreads.read_verb morph ▸ mirrors_push _).imp fun _ d h => ?_
  exact h.below (by simp only; omega)

/-- **A component gives out no more numbers than it has nodes.** -/
theorem mirrors_component (c : Component) (index length : Nat) (body : Program UInt32)
    (hk : k + (Statement.component c).size < 2 ^ 32) :
    Mirrors (Below k) (component c index length body) (component c index length body.read) id
      fun _ => Below (k + (Statement.component c).size) := by
  have hsize : 2 ≤ (Statement.component c).size := by
    have := c.body.size_eq
    rw [Statement.size]
    omega
  have htag : Mirrors (Below k) (requireTag c : Assemble UInt32 Unit) (requireTag c) id
      fun _ => Below k := by
    unfold requireTag
    by_cases ht : c.tag = ""
    · rw [if_pos ht, if_pos ht]
      exact mirrors_throw _
    · rw [if_neg ht, if_neg ht]
      exact mirrors_pure rfl
  have hcode : (.one (.string c.tag) ++ (attributesHash c.attributes).code : Code UInt32).read =
      .one (.string c.tag) ++ (attributesHash c.attributes).code := by
    rw [Code.read_append, c.read_attributesHash (by omega)]
    rfl
  rw [component_eq, component_eq]
  refine htag.bind fun _ => ?_
  refine (mirrors_place index length false (by omega) (by simp only; omega)).bind fun morph => ?_
  refine (mirrors_addChild body (by simp only; omega)).bind fun body => ?_
  refine (mirrors_push (.program (some body) none)).bind fun _ => ?_
  rw [← hcode]
  refine (mirrors_write _).bind fun _ => ?_
  have hreads : (c.phrase 0 : Phrase UInt32).Reads (c.phrase 0) :=
    c.reads_phrase (by omega) (by decide)
  refine (hreads.read_verb morph ▸ mirrors_push _).imp fun _ d h => ?_
  exact h.below (by simp only; omega)

/-- A nested program is taken in by both. -/
theorem mirrors_absorb {c : Compiled UInt32} {c' : Compiled Nat} (h : c.read = c') :
    Mirrors (Within p n) c.absorb c'.absorb Program.read fun _ => Within p n := by
  subst h
  have hm : Mirrors (Within p n)
      (modify fun e => { e with events := e.events ++ c.events } : Assemble UInt32 PUnit)
      (modify fun e => { e with events := e.events ++ c.read.events }) id fun _ => Within p n :=
    mirrors_modify fun _ h => ⟨rfl, { h with }⟩
  refine hm.bind fun _ => ?_
  obtain ⟨result, events⟩ := c
  cases result with
  | ok program => exact mirrors_pure rfl
  | error v => exact mirrors_throw v

theorem mirrors_absorb_option {f? : Option Fragment} {o : Options}
    (h : ∀ f ∈ f?, (f.compile o : Compiled UInt32).read = f.compile o) :
    Mirrors (Within p n) (f?.mapM fun f => (f.compile o : Compiled UInt32).absorb)
      (f?.mapM fun f => (f.compile o : Compiled Nat).absorb) (Option.map Program.read)
      fun _ => Within p n := by
  cases f? with
  | none => exact mirrors_pure rfl
  | some f =>
    change Mirrors _ ((f.compile o).absorb >>= fun q => pure (some q))
      ((f.compile o).absorb >>= fun q => pure (some q)) _ _
    exact (mirrors_absorb (h f rfl)).bind fun q => mirrors_pure rfl

end Steps

/-! ## Walks -/

section Walks

variable {f : Fragment} (hf : f.size < 2 ^ 32) {o : Options}
  (hn : ∀ g ∈ f.nested, (g.compile o : Compiled UInt32).read = g.compile o)

include hf hn

/-- **Entering a node gives out no more numbers than it has nodes.** -/
theorem mirrors_enter {ν : Node} (hν : ν ∈ f.nodes) {k : Nat}
    (hk : k + ν.statement.size < 2 ^ 32) :
    Mirrors (Below k) (enter o ν : Assemble UInt32 Unit) (enter o ν) id
      fun _ => Below (k + ν.statement.size) := by
  have hw := whole_size_lt hν
  have hg : ∀ g ∈ ν.statement.nested, (g.compile o : Compiled UInt32).read = g.compile o :=
    fun g hg => hn g (List.mem_flatMap.mpr ⟨ν, hν, hg⟩)
  have hu : ∀ e, ν.statement = .element e → e.uses < 2 ^ 32 :=
    fun e he => (uses_lt_size hν he).trans hf
  obtain ⟨path, index, siblings, s⟩ := ν
  cases s with
  | text _ | comment _ =>
    exact (mirrors_visit (Nat.lt_of_succ_lt hk)).discard fun _ d h =>
      h.2.below (by simp only [Statement.size]; omega)
  | element e =>
    have hc := length_le_sizeIn e.children
    rw [Statement.children] at hw
    exact mirrors_startElement o e _ (hu e rfl) (by omega) hk
  | mustache m => exact mirrors_mustache m index siblings hk
  | block b =>
    have hi : ∀ g ∈ b.inverse, (g.compile o : Compiled UInt32).read = g.compile o := fun g hb =>
      hg g (List.mem_cons_of_mem _ (Option.mem_toList.mpr hb))
    refine (mirrors_absorb (hg b.body List.mem_cons_self)).bind fun body => ?_
    refine (mirrors_absorb_option hi).bind fun inverse => ?_
    exact mirrors_block b index siblings body inverse hk
  | component c =>
    refine (mirrors_absorb (hg c.body List.mem_cons_self)).bind fun body => ?_
    exact mirrors_component c index siblings body hk

/-- **Visits to nodes of a fragment give out no more numbers than those have nodes.** -/
theorem mirrors_visits {vs : List Visit} (hv : ∀ ν ∈ vs.filterMap Visit.entered?, ν ∈ f.nodes)
    {k : Nat} (hk : k + ((vs.filterMap Visit.entered?).map (·.statement.size)).sum < 2 ^ 32) :
    Mirrors (Below k) (vs.forM (perform o) : Assemble UInt32 Unit) (vs.forM (perform o)) id
      fun _ => Below (k + ((vs.filterMap Visit.entered?).map (·.statement.size)).sum) := by
  induction vs generalizing k with
  | nil => exact mirrors_pure rfl
  | cons v vs ih =>
    cases v with
    | enter ν =>
      have he : (Visit.enter ν :: vs).filterMap Visit.entered? =
        ν :: vs.filterMap Visit.entered? := rfl
      rw [he] at hv hk ⊢
      rw [List.map_cons, List.sum_cons, ← Nat.add_assoc] at hk ⊢
      refine (mirrors_enter hf hn (hv ν List.mem_cons_self) (by omega)).bind fun _ => ?_
      exact ih (fun μ hμ => hv μ (List.mem_cons_of_mem ν hμ)) hk
    | leave ν =>
      have hl : Mirrors (Below k) (leave ν : Assemble UInt32 Unit) (leave ν) id
          fun _ => Below k := by
        unfold leave
        split
        · exact mirrors_endElement _
        · exact mirrors_pure rfl
      exact hl.bind fun _ => ih hv hk

/-- **Up to any step of the walk over a fragment its numbers fit in words.** -/
theorem mirrors_prefix {us : List Visit} (hu : us <+: f.visits) :
    Mirrors (Below 0) (us.forM (perform o) : Assemble UInt32 Unit) (us.forM (perform o)) id
      fun _ => Below (2 ^ 32 - 1) := by
  have hv : f.visits.filterMap Visit.entered? = f.nodes := entered_visits _ _ _ _
  have hsub : us.filterMap Visit.entered? <+: f.nodes := hv ▸ hu.filterMap _
  have hs : ((us.filterMap Visit.entered?).map (·.statement.size)).sum ≤ sizeIn f.body := by
    rw [sizeIn_eq_sum [] f.body.length 0]
    exact (hsub.map _).sublist.sum_le_sum fun _ _ => Nat.zero_le _
  have hz := f.size_eq
  refine (mirrors_visits hf hn (fun ν hν => hsub.subset hν) (k := 0) (by omega)).imp fun _ d h => ?_
  exact Within.below h (by simp only; omega)

end Walks

/-! ## Programs -/

theorem length_morphs_read (q : Program UInt32) : q.read.morphs.length = q.morphs.length := by
  obtain ⟨ops, children⟩ := q
  have hm : ∀ op : Opcode UInt32, op.read.morph? = op.morph?.map (Morph.map Counter.toNat) := by
    intro op
    cases op <;> rfl
  rw [Program.read, Program.morphs, ← map_filterMap_of_read hm, List.length_map, Program.morphs]

/-- The finished program is read, and as much is reported of it. -/
theorem read_finish (e : Assembler UInt32) : e.read.finish = (e.finish.1.read, e.finish.2) := by
  have hq : e.finish.1.read = ⟨e.read.tape.flush.opcodes, e.read.children⟩ := by
    rw [finish, Program.read, Program.readAll_eq_map]
    exact congrArg (fun t => (⟨t.opcodes, e.read.children⟩ : Program Nat)) (Tape.read_flush e.tape)
  have hm := length_morphs_read e.finish.1
  rw [hq] at hm ⊢
  have hp : e.read.tape.pending.isEmpty = e.tape.pending.isEmpty := List.isEmpty_map
  have hl : e.read.tape.pending.length = e.tape.pending.length := List.length_map _
  have ho : e.read.tape.flush.opcodes.length = e.tape.flush.opcodes.length := by
    have ht : e.tape.flush.read = e.read.tape.flush := Tape.read_flush e.tape
    rw [← ht]
    exact List.length_map _
  have hc : e.read.children.length = e.children.length := List.length_map _
  simp only [finish, hp, hl, ho, hc, hm]
  rfl

/-- What runs the same way compiles to the same. -/
theorem read_run {e : Assembler UInt32} {x : Assemble UInt32 Unit} {y : Assemble Nat Unit}
    {Q : Unit → Assembler Nat → Prop} (h : Mirrored id Q (x e) (y e.read)) :
    (Compiled.run e x).read = Compiled.run e.read y := by
  unfold Compiled.run
  generalize x e = u, y e.read = v at h ⊢
  cases h with
  | ok value state h' =>
    subst state
    simp only [read_finish]
    rfl
  | error state =>
    subst state
    rfl

/-- **A new program reads as a new program.** -/
theorem read_start (o : Options) {f : Fragment} (hf : f.size < 2 ^ 32) :
    (start o f.blockParams (blanks f.body) : Assembler UInt32).read =
      start o f.blockParams (blanks f.body) := by
  have ht : (Tape.empty.append (f.header o) : Tape UInt32).read =
      Tape.empty.append (f.header o) := by
    rw [Tape.read_append, read_header o hf]
    rfl
  exact congrArg (fun t => ({ tape := t } : Assembler Nat)) ht

/-- Nothing is numbered in a new program. -/
theorem below_start (o : Options) (params : List String) (blanks : List Nat) :
    (start o params blanks).Below 0 where
  current := Nat.le_refl 0
  path := nofun
  morphs := (Tape.nextMorph_append _ _).le
  references := Nat.le_refl 0
  programs := Nat.le_refl 0

/-- **A fragment whose numbers fit in words compiles to the same with words and naturals.** -/
theorem read_compile (o : Options) {f : Fragment} (hf : f.size < 2 ^ 32) :
    (f.compile o : Compiled UInt32).read = f.compile o := by
  induction f using Fragment.nested_induction with
  | step f ih =>
    have hn : ∀ g ∈ f.nested, (g.compile o : Compiled UInt32).read = g.compile o := fun g hg =>
      ih g hg ((size_lt_of_mem_nested hg).trans hf)
    have hs := read_start o hf
    have hm := mirrors_prefix hf hn List.prefix_rfl _ (hs ▸ below_start o _ _)
    rw [compile_eq_run, compile_eq_run, walk_body_eq_forM, walk_body_eq_forM, read_run hm, hs]

/-! ## Templates -/

/-- Where a run over words got to, with its numbers read. -/
def readResult {α : Type} : EStateM.Result Violation (Assembler UInt32) α →
    EStateM.Result Violation (Assembler Nat) α
  | .ok a e => .ok a e.read
  | .error v e => .error v e.read

theorem Mirrored.readResult_eq {α : Type} {Q : α → Assembler Nat → Prop}
    {u : EStateM.Result Violation (Assembler UInt32) α}
    {v : EStateM.Result Violation (Assembler Nat) α} (h : Mirrored id Q u v) :
    readResult u = v := by
  cases h with
  | ok value state h' => rw [readResult, ← value, ← state, id]
  | error state => rw [readResult, state]

theorem Mirrored.holds {α : Type} {Q : α → Assembler Nat → Prop}
    {u : EStateM.Result Violation (Assembler UInt32) α} {a : α} {d : Assembler Nat}
    (h : Mirrored id Q u (.ok a d)) : Q a d := by
  cases h with
  | ok value state h' => exact h'

/-- **The numbers of a fragment are exact in words**, at every step of the walk over it. -/
structure Exact (o : Options) (f : Fragment) : Prop where
  /-- After any number of steps the state is that over naturals, also where the walk has stopped. -/
  states : ∀ us, us <+: f.visits →
    readResult (us.forM (perform o) (start o f.blockParams (blanks f.body))) =
      us.forM (perform o) (start o f.blockParams (blanks f.body))
  /-- The numbers of each kind that come next fit in words. -/
  next : ∀ us, us <+: f.visits → ∀ d,
    us.forM (perform o) (start o f.blockParams (blanks f.body)) = .ok () d → d.Below (2 ^ 32 - 1)
  /-- The uses of an element are counted in full. -/
  uses : ∀ ν ∈ f.nodes, ∀ e, ν.statement = .element e → toNat (ofNat e.uses : UInt32) = e.uses
  /-- Blank texts are found where they are, at the root and in elements. -/
  blanks : ∀ statements, (statements = f.body ∨ ∃ ν ∈ f.nodes, statements = ν.statement.children) →
    (blanks statements : List UInt32).map Counter.toNat = blanks statements

theorem exact_of_size_lt (o : Options) {f : Fragment} (hf : f.size < 2 ^ 32) : Exact o f := by
  have hs := read_start o hf
  have hm {us : List Visit} (hu : us <+: f.visits) :=
    mirrors_prefix hf (fun g hg => read_compile o ((size_lt_of_mem_nested hg).trans hf)) hu _
      (hs ▸ below_start o _ _)
  refine ⟨fun us hu => ?_, fun us hu d hd => ?_, fun ν hν e he => ?_, fun statements h => ?_⟩
  · exact hs ▸ (hm hu).readResult_eq
  · have hm := hm hu
    rw [hs, hd] at hm
    exact hm.holds
  · exact toNat_ofNat_of_lt ((uses_lt_size hν he).trans hf)
  · have hl := length_le_sizeIn statements
    have hz := f.size_eq
    rcases h with rfl | ⟨ν, hν, rfl⟩
    · exact read_blanks (by omega)
    · have hw := whole_size_lt hν
      exact read_blanks (by omega)

/-- **Counting in 32-bit words is exact.** A template with fewer than `2 ^ 32` nodes of all kinds
compiles to the same program, or to the same violation, as with naturals. In each of its fragments,
nested ones included, every step leaves the same numbers behind. -/
theorem compile_exact {t : Template} (ht : t.root.size < 2 ^ 32) (o : Options) :
    (t.compile o : Compiled UInt32).read = t.compile o ∧
      ∀ f, Relation.ReflTransGen (fun f g : Fragment => g ∈ f.nested) t.root f → Exact o f := by
  refine ⟨read_compile o ht, fun f hf => exact_of_size_lt o ?_⟩
  induction hf with
  | refl => exact ht
  | tail _ hg ih => exact (size_lt_of_mem_nested hg).trans ih

theorem compile_exact_roster :
    Template.roster.root.size < 2 ^ 32 ∧
      (Template.roster.compile {} : Compiled UInt32).read = Template.roster.compile {} ∧
      Exact {} Template.roster.root := by
  have hs : Template.roster.root.size < 2 ^ 32 := by decide +kernel
  obtain ⟨hc, hf⟩ := compile_exact hs {}
  exact ⟨hs, hc, hf _ .refl⟩

end Hydration
