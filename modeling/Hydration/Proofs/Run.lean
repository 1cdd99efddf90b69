import Hydration.Proofs.Progress

/-!
# Proofs/Run — the assembler writes the stream of a fragment

A walk adds to the progress of a run what its visits add, one by one (`leads_walk`), and so a whole
fragment comes to its stream, in the order the tape gives to it (`result_run`).

* `result_compile`: a fragment with nothing wrong compiles to its stream, hoisted.
* `result_compileInPlace`: with no morph held back it compiles to its stream as it is.
-/

namespace Hydration

open Template Counter

variable {ι : Type} [Counter ι]

/-! ## Walks -/

open Assembler

/-- A fragment with nothing wrong compiles to its program. -/
theorem result_eq_output (o : Options) {f : Fragment} (hv : f.violations = []) :
    (f.compile o : Compiled ι).result = .ok (f.output o) := by
  obtain ⟨p, hp⟩ := (compile_eq_ok_iff (ι := ι) o f).mpr hv
  rw [Fragment.output, hp]
  rfl

theorem violations_of_mem_nested {s : Statement} (hv : s.violations = []) {f : Fragment}
    (hf : f ∈ s.nested) : f.violations = [] := by
  cases s with
  | text _ | comment _ | element _ | mustache _ => exact absurd hf List.not_mem_nil
  | block b =>
    rw [Statement.violations, List.append_eq_nil_iff, List.append_eq_nil_iff,
      List.flatMap_eq_nil_iff] at hv
    rcases List.mem_cons.mp hf with rfl | hf
    · exact hv.1.1
    · exact hv.1.2 f hf
  | component c =>
    rw [Statement.violations, List.append_eq_nil_iff, List.append_eq_nil_iff] at hv
    rw [List.mem_singleton.mp hf]
    exact hv.1.1

namespace Progress

/-- What the steps of a walk add. -/
def after (o : Options) (g : Progress ι) (vs : List Visit) : Progress ι := vs.foldl (step o) g

theorem after_eq (o : Options) (g : Progress ι) (vs : List Visit) :
    g.after o vs = {
      deferring := g.deferring
      stream := g.stream ++ Hydration.stream o g.numbers vs
      numbers := g.numbers.after ι o vs
      programs := g.programs ++ (vs.flatMap Visit.nested).map (Fragment.output o) } := by
  induction vs generalizing g with
  | nil => simp [after, Hydration.stream, Numbers.after]
  | cons v vs ih =>
    have h := ih (g.step o v)
    rw [after, List.foldl_cons, ← after, h]
    simp [step, Hydration.stream, Numbers.after]

theorem step_of_static (o : Options) (g : Progress ι) {ν : Node}
    (hs : ν.statement.isElement = false) (hd : ν.statement.isDynamic = false) :
    g.step o (.enter ν) = g := by
  obtain ⟨path, index, siblings, s⟩ := ν
  cases s with
  | text _ | comment _ =>
    simp [step, Visit.opcodes, Node.opening, Statement.phrase?, Numbers.step, Visit.nested,
      Statement.nested, Statement.isDynamic, Node.isReferenced]
  | element _ => exact absurd hs (by simp [Statement.isElement])
  | mustache _ | block _ | component _ => exact absurd hd (by simp [Statement.isDynamic])

theorem step_leave (o : Options) (g : Progress ι) (ν : Node) :
    g.step o (.leave ν) = g.write ν.closing := by
  simp [step, write, Visit.opcodes, Numbers.step, Visit.nested]

end Progress

variable [Lawful ι] {g : Progress ι} {path : List Nat} {i : Nat}

/-- **A node that is not an element is entered**, and is then behind. -/
theorem leads_enter (o : Options) {s : Statement} (hs : s.isElement = false)
    (hv : s.violations = []) (length : Nat) :
    Leads (Shows · g path i) (enter o ⟨path, i, length, s⟩ : Assemble ι Unit) ⟨⟩
      (Shows · (g.step o (.enter ⟨path, i, length, s⟩)) path (i + 1)) := by
  have hn : ∀ f ∈ s.nested, (f.compile o : Compiled ι).result = .ok (f.output o) :=
    fun f hf => result_eq_output o (violations_of_mem_nested hv hf)
  cases s with
  | text _ | comment _ =>
    rw [Progress.step_of_static o g hs rfl]
    exact leads_visit.discard
  | element e => exact absurd hs (by simp [Statement.isElement])
  | mustache m => exact leads_mustache o hv length
  | block b =>
    have hb := hn b.body (by simp [Statement.nested])
    have hc : b.call.violations = [] := by simp_all [Statement.violations]
    refine (leads_absorb hb).bind (Leads.bind ?_ (leads_block o hc length))
    cases hi : b.inverse with
    | none => exact leads_pure none
    | some f =>
      have hf := hn f (by simp [Statement.nested, hi])
      have h : Leads (Shows · g path i) (do return some (← (f.compile o).absorb)) _ _ :=
        (leads_absorb hf).bind (leads_pure _)
      exact h
  | component c =>
    simp only [Statement.violations, List.append_eq_nil_iff, Option.toList_eq_nil_iff] at hv
    have hb := hn c.body (by simp [Statement.nested])
    have ht : c.tag ≠ "" := by
      intro h
      simp [tagViolation?, h] at hv
    exact (leads_absorb hb).bind (leads_component o ht hv.2 length)

/-- **A node that is not an element is traversed by entering it.** -/
theorem leads_traverse_leaf (o : Options) {s : Statement} (hs : s.isElement = false)
    (hv : s.violations = []) (length : Nat) :
    let ν : Node := ⟨path, i, length, s⟩
    Leads (Shows · g path i) (traverse o ν : Assemble ι Unit) ⟨⟩
      (Shows · (((g.step o (.enter ν)).after o
        (visits (path ++ [i]) s.children.length 0 s.children)).write ν.closing) path (i + 1)) := by
  intro ν
  have hl : (leave ν : Assemble ι Unit) = pure () := by
    simp only [leave, ν]
    cases s <;> first | rfl | exact absurd hs (by simp [Statement.isElement])
  have hg : ν.closing = ([] : List (Opcode ι)) := by simp [Node.closing, ν, hs]
  have hc : ν.statement.children = [] := Statement.children_eq_nil hs
  rw [traverse, hl, hg, Progress.write_nil, hc, walk_nil, visits_nil]
  exact (leads_enter o hs hv length).bind ((leads_pure _).bind (leads_pure _))

omit [Lawful ι] in
/-- What the visits of a node add, part by part. -/
theorem Progress.after_cons (o : Options) (g : Progress ι) (ν : Node) (us vs : List Visit) :
    g.after o (.enter ν :: (us ++ .leave ν :: vs)) =
      (((g.step o (.enter ν)).after o us).write ν.closing).after o vs := by
  rw [← Progress.step_leave o]
  simp [Progress.after]

/-- **An element adds what its visits add**, if that is so inside it; behind the only root all
morphs are placed. -/
theorem leads_traverse_element (o : Options) {e : Element}
    (hv : (Statement.element e).violations = []) (path : List Nat) (i length : Nat)
    (inside : ∀ g : Progress ι, Leads (Shows · g (path ++ [i]) 0)
      (walk o false e.children.length 0 e.children : Assemble ι Unit) ⟨⟩
      (Shows · (g.after o (visits (path ++ [i]) e.children.length 0 e.children)) (path ++ [i])
        (0 + e.children.length))) :
    let ν : Node := ⟨path, i, length, .element e⟩
    let g' := ((g.step o (.enter ν)).after o
      (visits (path ++ [i]) e.children.length 0 e.children)).write ν.closing
    Leads (fun e : Assembler ι => e.Shows g path i ∧ (ν.isSole = true → e.tape.pending = []))
      (traverse o ν) ⟨⟩ fun e =>
        if ν.isSole then e.Places g' path (i + 1) else e.Shows g' path (i + 1) := by
  intro ν g'
  refine (leads_startElement o hv length).bind ((inside _).bind ?_)
  cases hs : ν.isSole with
  | true =>
    have hg : ν.closing = ([] : List (Opcode ι)) := by
      simp [Node.closing, hs]
    simp only [leave, ν, g', hg, Progress.write_nil, hs]
    exact leads_endElement_sole
  | false =>
    have hg : ν.closing = [(.popParent : Opcode ι)] := by
      simp [Node.closing, hs, ν, Statement.isElement]
    simp only [leave, ν, g', hg, hs]
    exact leads_endElement

/-- **A walk adds what its visits add**, where no element is the only root. -/
theorem leads_walk (o : Options) {statements : List Statement} (hv : violationsIn statements = [])
    {length : Nat} (hr : (path.isEmpty && length == 1) = false) :
    Leads (Shows · g path i) (walk o false length i statements : Assemble ι Unit) ⟨⟩
      (Shows · (g.after o (visits path length i statements)) path (i + statements.length)) := by
  induction statements using Statement.inside_induction generalizing path length i g with
  | nil =>
    rw [walk_nil, visits_nil]
    exact leads_pure _
  | cons s rest ihs ihr =>
    rw [violationsIn_cons, List.append_eq_nil_iff, List.append_eq_nil_iff] at hv
    obtain ⟨hs, hc, hrest⟩ := hv
    have hl : i + (s :: rest).length = i + 1 + rest.length := by
      rw [List.length_cons]
      omega
    -- `walk_cons` passes on whether the list is the only root of a program; here it never is.
    rw [← hr, walk_cons, hr, visits_cons, Progress.after_cons, hl]
    refine Leads.bind (a := ⟨⟩) ?_ (ihr hrest hr)
    cases he : s.isElement with
    | false => exact leads_traverse_leaf o he hs length
    | true =>
      obtain ⟨e, rfl⟩ := Statement.isElement_iff.mp he
      have ht := leads_traverse_element (g := g) o hs path i length fun g => ihs hc (by simp)
      have hn : (Node.mk path i length (.element e)).isSole = false := hr
      simp only [hn, Bool.false_eq_true, if_false] at ht
      exact ht.imp_left fun a ha => ⟨ha, fun h => h.elim⟩

/-! ## Fragments -/

/-- **All is written** but for the last morphs. -/
structure Assembler.Ends (e : Assembler ι) (g : Progress ι) : Prop where
  deferring : e.tape.deferring = g.deferring
  children : e.children = g.programs
  settled : e.tape.flush.Settled g.stream

omit [Lawful ι] in
theorem Assembler.Shows.ends {e : Assembler ι} (h : e.Shows g path i) : e.Ends g :=
  ⟨h.deferring, h.children, h.carries.flush⟩

omit [Lawful ι] in
theorem Assembler.Places.ends {e : Assembler ι} (h : e.Places g path i) : e.Ends g := by
  refine ⟨h.deferring, h.children, ?_⟩
  rw [Tape.flush_of_pending h.settled.pending]
  exact h.settled

/-- One statement alone, whether it is an element or not. -/
theorem leads_walk_singleton (o : Options) {s : Statement} (hv : violationsIn [s] = []) :
    Leads (fun e : Assembler ι => e.Shows g [] 0 ∧ e.tape.pending = [])
      (walk o true 1 0 [s]) ⟨⟩ (Ends · (g.after o (visits [] 1 0 [s]))) := by
  rw [violationsIn_cons, List.append_eq_nil_iff, List.append_eq_nil_iff] at hv
  obtain ⟨hs, hc, -⟩ := hv
  have hw : (walk o true 1 0 [s] : Assemble ι Unit) = (do
      traverse o ⟨[], 0, 1, s⟩
      walk o true 1 1 []) := walk_cons o [] 1 0 s []
  rw [hw, walk_nil, visits_cons, Progress.after_cons, visits_nil]
  refine Leads.bind (a := PUnit.unit) ?_ (leads_pure _)
  cases he : s.isElement with
  | false =>
    have ht : Leads (Shows · g [] 0) (traverse o ⟨[], 0, 1, s⟩) PUnit.unit _ :=
      leads_traverse_leaf o he hs 1
    exact (ht.imp_left fun e h => h.1).imp fun e h => h.ends
  | true =>
    obtain ⟨e, rfl⟩ := Statement.isElement_iff.mp he
    have ht := leads_traverse_element (g := g) o hs [] 0 1 fun g => leads_walk o hc rfl
    exact (ht.imp_left fun a h => ⟨h.1, fun _ => h.2⟩).imp fun a h => h.ends

/-- **A walk over a whole fragment adds what its visits add**, the only root included. -/
theorem leads_body (o : Options) {f : Fragment} (hv : f.violations = []) :
    Leads (fun e : Assembler ι => e.Shows g [] 0 ∧ e.tape.pending = [])
      (walk o (f.body.length == 1) f.body.length 0 f.body) ⟨⟩ (Ends · (g.after o f.visits)) := by
  rw [Fragment.violations_eq] at hv
  by_cases hl : f.body.length = 1
  · obtain ⟨s, hs⟩ := List.length_eq_one_iff.mp hl
    rw [hs] at hv
    simpa [Fragment.visits, hs] using leads_walk_singleton (g := g) o hv
  · have hr : (f.body.length == 1) = false := beq_eq_false_iff_ne.mpr hl
    have hw : Leads (Shows · g [] 0) (walk o false f.body.length 0 f.body) PUnit.unit _ :=
      leads_walk o hv hr
    rw [hr]
    exact (hw.imp_left fun e he => he.1).imp fun e he => he.ends

/-- **A run over a fragment gives its stream in the order of the tape**, and the programs of the
fragments nested in it. -/
theorem result_run (o : Options) {f : Fragment} (hv : f.violations = []) {e : Assembler ι}
    {deferring : Bool} (he : e.Shows { deferring, stream := f.header o } [] 0)
    (hp : e.tape.pending = []) :
    (Compiled.run e (walk o (f.body.length == 1) f.body.length 0 f.body)).result =
      .ok ⟨arrange deferring (f.stream o), f.nested.map (Fragment.output o)⟩ := by
  obtain ⟨e', hr, hd, hc, hs⟩ := leads_body o hv e ⟨he, hp⟩
  rw [Progress.after_eq] at hd hc hs
  have ho := hs.opcodes
  rw [Tape.deferring_flush, hd] at ho
  rw [Compiled.run, hr]
  change Except.ok (Program.mk e'.tape.flush.opcodes e'.children) = _
  rw [ho, hc, List.nil_append, Fragment.visits, flatMap_nested_visits]
  rfl

/-! ## Compiling -/

/-- **The same assembler, holding no morph back**: each is written where it is met, and there is
none to place. -/
def Assembler.inPlace (e : Assembler ι) : Assembler ι :=
  { e with tape := { e.tape with deferring := false } }

/-- **Compiles a fragment without holding morphs back.** -/
def Template.Fragment.compileInPlace (o : Options) (f : Fragment) : Compiled ι :=
  Compiled.run (Assembler.start o f.blockParams (blanks f.body)).inPlace
    (walk o (f.body.length == 1) f.body.length 0 f.body)

omit [Lawful ι] in
/-- A new program shows its header. -/
theorem shows_start (o : Options) (f : Fragment) :
    (Assembler.start o f.blockParams (blanks f.body) : Assembler ι).Shows
      { deferring := true, stream := f.header o } [] 0 := by
  have he : ({ tape := Tape.empty } : Assembler ι).Shows { deferring := true, stream := [] } []
      0 := by
    refine ⟨⟨rfl, rfl, rfl, rfl, rfl, rfl⟩, (Tape.carries_iff_defers rfl).mpr ?_⟩
    exact ⟨[], [], rfl, .inl rfl, fun op h => absurd h List.not_mem_nil, rfl, rfl, rfl⟩
  exact he.append fun op => plain_of_mem_header

omit [Lawful ι] in
theorem shows_start_inPlace (o : Options) (f : Fragment) :
    (Assembler.start o f.blockParams (blanks f.body) : Assembler ι).inPlace.Shows
      { deferring := false, stream := f.header o } [] 0 := by
  have he := shows_start (ι := ι) o f
  refine ⟨⟨rfl, he.nextMorph, he.reference, he.children, he.length, he.cursor⟩,
    (Tape.carries_iff_writes rfl).mpr ⟨?_, ?_⟩⟩
  · exact Tape.opcodes_append _ _
  · exact Tape.pending_append _ _

/-- **A fragment with nothing wrong compiles to its stream, hoisted.** -/
theorem result_compile (o : Options) {f : Fragment} (hv : f.violations = []) :
    (f.compile o : Compiled ι).result =
      .ok ⟨hoist (f.stream o), f.nested.map (Fragment.output o)⟩ := by
  rw [compile_eq_run]
  exact result_run o hv (shows_start o f) (Tape.pending_append _ _)

/-- **With no morph held back it compiles to its stream as it is.** -/
theorem result_compileInPlace (o : Options) {f : Fragment} (hv : f.violations = []) :
    (f.compileInPlace o : Compiled ι).result =
      .ok ⟨f.stream o, f.nested.map (Fragment.output o)⟩ :=
  result_run o hv (shows_start_inPlace o f) (Tape.pending_append _ _)

end Hydration
