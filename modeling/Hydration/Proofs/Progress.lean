import Hydration.Proofs.Deferral
import Hydration.Proofs.Stream
import Hydration.Proofs.Violations

/-!
# Proofs/Progress — where each step of the assembler leads

`Progress` is what a run has come to: the stream it stands for, and the numbers and programs given
out. `e.Shows g path i` says that the assembler `e` is there, past the first `i` children of the
element at `path`, and fit to go on.

`Leads P x a Q` says that a step goes through from every state in which `P` holds, and where to.
There is one such lemma for each step, and it does not ask whether the tape holds morphs back.
-/

namespace Hydration

open Template Counter

variable {ι : Type} {α β : Type}

/-! ## Steps that go through -/

/-- **From every state in which `P` holds the step goes through**, with result `a`, to one in which
`Q` holds. -/
def Leads (P : Assembler ι → Prop) (x : Assemble ι α) (a : α) (Q : Assembler ι → Prop) : Prop :=
  ∀ e, P e → ∃ e', x e = .ok a e' ∧ Q e'

/-- **Steps in a row.** -/
theorem Leads.bind {P Q R : Assembler ι → Prop} {x : Assemble ι α} {a : α} {f : α → Assemble ι β}
    {b : β} (hx : Leads P x a Q) (hf : Leads Q (f a) b R) : Leads P (x >>= f) b R := by
  intro e he
  obtain ⟨e', hxe, he'⟩ := hx e he
  obtain ⟨e'', hfe, he''⟩ := hf e' he'
  refine ⟨e'', ?_, he''⟩
  change EStateM.bind x f e = _
  unfold EStateM.bind
  rw [hxe]
  exact hfe

theorem Leads.imp {P Q R : Assembler ι → Prop} {x : Assemble ι α} {a : α} (hx : Leads P x a Q)
    (h : ∀ e, Q e → R e) : Leads P x a R := by
  intro e he
  obtain ⟨e', hxe, he'⟩ := hx e he
  exact ⟨e', hxe, h e' he'⟩

theorem Leads.imp_left {P Q R : Assembler ι → Prop} {x : Assemble ι α} {a : α}
    (hx : Leads P x a Q) (h : ∀ e, R e → P e) : Leads R x a Q :=
  fun e he => hx e (h e he)

theorem Leads.discard {P Q : Assembler ι → Prop} {x : Assemble ι α} {a : α} (hx : Leads P x a Q) :
    Leads P (discard x) ⟨⟩ Q := by
  intro e he
  obtain ⟨e', hxe, he'⟩ := hx e he
  refine ⟨e', ?_, he'⟩
  change EStateM.map (Function.const α PUnit.unit) x e = _
  unfold EStateM.map
  rw [hxe]

theorem leads_pure {P : Assembler ι → Prop} (a : α) : Leads P (pure a) a P :=
  fun e he => ⟨e, rfl, he⟩

theorem leads_modify {P Q : Assembler ι → Prop} {g : Assembler ι → Assembler ι}
    (h : ∀ e, P e → Q (g e)) : Leads P (modify g) ⟨⟩ Q :=
  fun e he => ⟨g e, rfl, h e he⟩

theorem leads_modifyGet {P Q : Assembler ι → Prop} {g : Assembler ι → α × Assembler ι} {a : α}
    (h : ∀ e, P e → (g e).1 = a ∧ Q (g e).2) : Leads P (modifyGet g) a Q := by
  intro e he
  obtain ⟨rfl, hq⟩ := h e he
  exact ⟨(g e).2, rfl, hq⟩

/-- Code without a violation is written to its end. -/
theorem leads_write_of {P Q : Assembler ι → Prop} {code : Code ι} (hv : code.violation? = none)
    (h : ∀ e, P e → Q { e with tape := e.tape.append code.opcodes }) :
    Leads P (Assembler.write code) ⟨⟩ Q := by
  refine (leads_modify h).bind ?_
  rw [hv]
  exact leads_pure _

/-! ## Progress -/

/-- **What a run has come to.** -/
structure Progress (ι : Type) where
  /-- Morphs are held back. -/
  deferring : Bool
  /-- The stream so far, each morph where it was met. -/
  stream : List (Opcode ι)
  /-- The numbers given out. -/
  numbers : Numbers := {}
  /-- The nested programs. -/
  programs : List (Program ι) := []

namespace Progress

/-- More of the stream. -/
def write (g : Progress ι) (ops : List (Opcode ι)) : Progress ι :=
  { g with stream := g.stream ++ ops }

/-- A morph more. -/
def create (g : Progress ι) (m : Morph ι) : Progress ι :=
  { g with
    stream := g.stream ++ [.morph m]
    numbers.morphs := g.numbers.morphs + 1 }

/-- More nested programs. -/
def adopt (g : Progress ι) (programs : List (Program ι)) : Progress ι :=
  { g with
    programs := g.programs ++ programs
    numbers.programs := g.numbers.programs + programs.length }

@[simp] theorem write_nil (g : Progress ι) : g.write [] = g := by
  rw [write, List.append_nil]

@[simp] theorem write_write (g : Progress ι) (ops ops' : List (Opcode ι)) :
    (g.write ops).write ops' = g.write (ops ++ ops') := by
  rw [write, write, write, List.append_assoc]

@[simp] theorem adopt_nil (g : Progress ι) : g.adopt [] = g := by
  rw [adopt, List.append_nil]
  rfl

theorem adopt_adopt (g : Progress ι) (ps qs : List (Program ι)) :
    (g.adopt ps).adopt qs = g.adopt (ps ++ qs) := by
  rw [adopt, adopt, adopt, List.append_assoc, List.length_append, Nat.add_assoc]

end Progress

variable [Counter ι]

/-- **The program of a fragment**, empty if it is refused. -/
def Template.Fragment.output (o : Options) (f : Fragment) : Program ι :=
  (f.compile o).result.toOption.getD {}

/-- What a step of a walk adds. -/
def Progress.step (o : Options) (g : Progress ι) (v : Visit) : Progress ι where
  deferring := g.deferring
  stream := g.stream ++ v.opcodes o g.numbers
  numbers := g.numbers.step ι o v
  programs := g.programs ++ v.nested.map (Fragment.output o)

/-! ## Phrases that stop nowhere -/

/-- Phrases on an element with nothing wrong. -/
theorem violation?_of_mem_phrases {e : Element} (hv : (Statement.element e).violations = [])
    {p : Phrase ι} (hp : p ∈ e.phrases) : p.operands.violation? = none := by
  rw [Statement.violations, List.append_eq_nil_iff, List.flatMap_eq_nil_iff,
    List.flatMap_eq_nil_iff] at hv
  rcases List.mem_append.mp hp with hp | hp
  · obtain ⟨a, ha, rfl⟩ := List.mem_map.mp hp
    exact (a.violation?_code).trans (by rw [hv.1 a (List.mem_of_mem_filter ha)]; rfl)
  · obtain ⟨c, hc, rfl⟩ := List.mem_map.mp hp
    exact c.violation?_noProgram.trans (by rw [hv.2 c hc]; rfl)

/-- The phrase of a dynamic statement with nothing wrong. -/
theorem violation?_of_phrase (programs : Nat) {s : Statement} (hv : s.violations = [])
    {p : Phrase ι} (hp : s.phrase? programs = some p) : p.operands.violation? = none := by
  cases s with
  | text _ | comment _ | element _ => exact absurd hp (by simp [Statement.phrase?])
  | mustache m =>
    obtain rfl := Option.some.inj hp
    unfold Mustache.phrase
    rw [Statement.violations] at hv
    cases h : m.call.isHelper with
    | true => exact m.call.violation?_noProgram.trans (by rw [hv, List.head?_nil])
    | false =>
      rw [Call.violations_of_not_isHelper h] at hv
      exact m.call.callee.violation?_nameCode.trans (by rw [hv, List.head?_nil])
  | block b =>
    obtain rfl := Option.some.inj hp
    rw [Statement.violations, List.append_eq_nil_iff] at hv
    change (Code.one _ ++ b.call.code : Code ι).violation? = none
    rw [violation?_append, b.call.violation?_code, hv.2]
    rfl
  | component c =>
    obtain rfl := Option.some.inj hp
    rw [Statement.violations, List.append_eq_nil_iff] at hv
    change (Code.one _ ++ (.one (.string c.tag) ++ (attributesHash c.attributes).code) :
      Code ι).violation? = none
    rw [violation?_append, violation?_attributesHash, hv.2]
    rfl

namespace Assembler

/-- **The assembler is where a run has come to**, the stream apart. -/
structure Agrees (e : Assembler ι) (g : Progress ι) (path : List Nat) (i : Nat) : Prop where
  deferring : e.tape.deferring = g.deferring
  nextMorph : e.tape.nextMorph = ofNat g.numbers.morphs
  reference : e.reference? = last? g.numbers.references
  children : e.children = g.programs
  length : g.programs.length = g.numbers.programs
  cursor : e.cursor = .past path i

/-- **The assembler is where a run has come to**, and can go on from there. -/
structure Shows (e : Assembler ι) (g : Progress ι) (path : List Nat) (i : Nat) : Prop
    extends Agrees e g path i where
  carries : e.tape.Carries g.stream

/-- **The assembler has placed the morphs** of a run. -/
structure Places (e : Assembler ι) (g : Progress ι) (path : List Nat) (i : Nat) : Prop
    extends Agrees e g path i where
  settled : e.tape.Settled g.stream

/-- **The assembler is in the tag of an element** opened at `g`, to which it has referred already or
not. -/
structure Tags (e : Assembler ι) (g : Progress ι) (path : List Nat) (i : Nat)
    (referenced : Bool) : Prop
    extends Shows e { g with numbers.references := g.numbers.references + referenced.toNat } path i
    where
  pending : e.tape.pending = []
  unreferenced : e.unreferenced = !referenced

variable {g : Progress ι} {path : List Nat} {i : Nat}

/-! ### Parts of steps -/

theorem Agrees.goto {e : Assembler ι} (h : e.Agrees g path i) (path' : List Nat) (j : Nat) :
    { e with cursor := .past path' j }.Agrees g path' j where
  deferring := h.deferring
  nextMorph := h.nextMorph
  reference := h.reference
  children := h.children
  length := h.length
  cursor := rfl

theorem Agrees.push {e : Assembler ι} (h : e.Agrees g path i) (op : Opcode ι) :
    { e with tape := e.tape.push op }.Agrees (g.write [op]) path i where
  deferring := (Tape.deferring_push _ _).trans h.deferring
  nextMorph := (Tape.nextMorph_push _ _).trans h.nextMorph
  reference := h.reference
  children := h.children
  length := h.length
  cursor := h.cursor

/-- Plain instructions move the stream on. -/
theorem Shows.append {e : Assembler ι} (h : e.Shows g path i) {ops : List (Opcode ι)}
    (hops : ∀ op ∈ ops, op.Plain) :
    { e with tape := e.tape.append ops }.Shows (g.write ops) path i := by
  refine ⟨?_, h.carries.append hops⟩
  clear hops
  have ha := h.toAgrees
  clear h
  induction ops generalizing e g with
  | nil => simpa [Tape.append] using ha
  | cons op ops ih => simpa [Tape.append] using ih (ha.push op)

theorem leads_push {op : Opcode ι} (hop : op.Plain) :
    Leads (Shows · g path i) (push op) ⟨⟩ (Shows · (g.write [op]) path i) :=
  leads_modify fun _ he => ⟨he.toAgrees.push op, he.carries.push hop⟩

theorem leads_write {code : Code ι} (hv : code.violation? = none) (hops : code.IsOperands) :
    Leads (Shows · g path i) (write code) ⟨⟩ (Shows · (g.write code.opcodes) path i) :=
  leads_write_of hv fun _ he => he.append fun op hop => Opcode.plain_of_isOperand (hops op hop)

theorem leads_flush :
    Leads (Shows · g path i) (flush : Assemble ι Unit) ⟨⟩ (Places · g path i) := by
  refine leads_modify fun e he => ?_
  split
  next hp => exact ⟨he.toAgrees, he.carries.settled (List.isEmpty_iff.mp hp)⟩
  next =>
    refine ⟨⟨?_, ?_, he.reference, he.children, he.length, he.cursor⟩, he.carries.flush⟩
    · exact (Tape.deferring_flush _).trans he.deferring
    · exact (Tape.nextMorph_flush _).trans he.nextMorph

theorem leads_addChild (p : Program ι) :
    Leads (Shows · g path i) (addChild p) (ofNat g.numbers.programs)
      (Shows · (g.adopt [p]) path i) := by
  refine leads_modifyGet fun e he => ⟨?_, ⟨he.deferring, he.nextMorph, he.reference, ?_, ?_,
    he.cursor⟩, he.carries⟩
  · rw [he.children, he.length]
  · rw [he.children]
    rfl
  · rw [Progress.adopt, List.length_append, he.length]

theorem leads_addChild_option (p? : Option (Program ι)) :
    Leads (Shows · g path i) (p?.mapM addChild) (p?.map fun _ => ofNat g.numbers.programs)
      (Shows · (g.adopt p?.toList) path i) := by
  cases p? with
  | none => simpa using leads_pure none
  | some p =>
    have hp : Leads (Shows · g path i) (do return some (← addChild p)) _ _ :=
      (leads_addChild p).bind (leads_pure _)
    exact hp

theorem leads_absorb {c : Compiled ι} {p : Program ι} (h : c.result = .ok p) :
    Leads (Shows · g path i) c.absorb p (Shows · g path i) := by
  have he : Leads (Shows · g path i)
      (modify fun e => { e with events := e.events ++ c.events } : Assemble ι PUnit) ⟨⟩
      (Shows · g path i) :=
    leads_modify fun _ he => ⟨⟨he.deferring, he.nextMorph, he.reference, he.children, he.length,
      he.cursor⟩, he.carries⟩
  refine he.bind ?_
  rw [h]
  exact leads_pure p

/-- The next sibling is visited. -/
theorem leads_visit_of [Lawful ι] {P Q : Assembler ι → Prop}
    (hc : ∀ e, P e → e.cursor = .past path i)
    (h : ∀ e, P e → Q { e with cursor := .past path (i + 1) }) :
    Leads P (visit : Assemble ι ι) (ofNat i) Q := by
  refine leads_modifyGet fun e he => ?_
  rw [hc e he, Cursor.visit_past]
  exact ⟨rfl, h e he⟩

theorem leads_visit [Lawful ι] :
    Leads (Shows · g path i) (visit : Assemble ι ι) (ofNat i) (Shows · g path (i + 1)) := by
  refine leads_visit_of (fun e he => he.cursor) fun e he => ?_
  exact ⟨he.toAgrees.goto _ _, he.carries⟩

/-- **A morph is created for the node at hand.** -/
theorem leads_place [Lawful ι] (length : Nat) (s : Statement) :
    Leads (Shows · g path i) (place i length s.isEscaped : Assemble ι ι) (ofNat g.numbers.morphs)
      (Shows · (g.create (Node.morph ⟨path, i, length, s⟩ g.numbers.morphs)) path (i + 1)) := by
  refine leads_visit.bind (leads_modifyGet fun e he => ⟨he.nextMorph, ⟨?_, ?_, he.reference,
    he.children, he.length, he.cursor⟩, ?_⟩)
  · exact (Tape.deferring_defer _ _ _ _ _).trans he.deferring
  · exact (Tape.nextMorph_defer _ _ _ _ _).trans (by rw [he.nextMorph, next_ofNat]; rfl)
  · rw [he.cursor, Cursor.path_past, Node.morph, next_ofNat, ← he.nextMorph]
    exact he.carries.defer _ _ _ _

/-! ### In the tag of an element -/

theorem Tags.append {e : Assembler ι} {b : Bool} (h : e.Tags g path i b) {ops : List (Opcode ι)}
    (hops : ∀ op ∈ ops, op.Plain) :
    { e with tape := e.tape.append ops }.Tags (g.write ops) path i b where
  toShows := h.toShows.append hops
  pending := (Tape.pending_append _ _).trans h.pending
  unreferenced := h.unreferenced

theorem Tags.push {e : Assembler ι} {b : Bool} (h : e.Tags g path i b) {op : Opcode ι}
    (hop : op.isMorph = false) :
    { e with tape := e.tape.push op }.Tags (g.write [op]) path i b where
  toAgrees := h.toAgrees.push op
  carries := h.carries.push_of_pending h.pending hop
  pending := (Tape.pending_push _ _).trans h.pending
  unreferenced := h.unreferenced

theorem reference_of_referenced {e : Assembler ι} {n : ι} (hr : e.reference? = some n)
    (hu : e.unreferenced = false) : reference e = .ok n e := by
  obtain ⟨tape, children, cursor, reference?, unreferenced, events⟩ := e
  subst hr hu
  rfl

theorem reference_of_unreferenced {e : Assembler ι}
    (hu : e.reference? = none ∨ e.unreferenced = true) :
    reference e = .ok (after e.reference?) { e with
      reference? := some (after e.reference?)
      unreferenced := false
      tape := e.tape.push (.element (after e.reference?)) } := by
  obtain ⟨tape, children, cursor, reference?, unreferenced, events⟩ := e
  rcases hu with rfl | rfl
  · rfl
  · cases reference? <;> rfl

/-- What is bound in a tag: operands, the reference to the element, and the instruction. -/
def attach (p : Phrase ι) : Assemble ι Unit := do
  write p.operands
  let element ← reference
  push (p.verb element)

variable [Lawful ι]

/-- **The element is referred to by the next number**, which is given out once. -/
theorem leads_reference {b : Bool} :
    Leads (Tags · g path i b) (reference : Assemble ι ι) (ofNat g.numbers.references)
      (Tags · (g.write (if b then [] else [.element (ofNat g.numbers.references)])) path i
        true) := by
  intro e he
  have hr := he.reference
  have hu := he.unreferenced
  cases b with
  | true => exact ⟨e, reference_of_referenced hr hu, by simpa using he⟩
  | false =>
    have ha : after e.reference? = ofNat g.numbers.references := by rw [hr]; exact after_last? _
    refine ⟨_, (reference_of_unreferenced (.inr hu)).trans (by rw [ha]), ?_⟩
    have hm : (Opcode.element (ofNat g.numbers.references : ι)).isMorph = false := rfl
    have hp := he.push hm
    exact ⟨⟨⟨hp.deferring, hp.nextMorph, rfl, hp.children, hp.length, hp.cursor⟩, hp.carries⟩,
      hp.pending, rfl⟩

theorem leads_attach {p : Phrase ι} (hv : p.operands.violation? = none) {b : Bool} :
    Leads (Tags · g path i b) (attach p) ⟨⟩
      (Tags · (g.write (p.operands.opcodes ++
        (if b then [] else [.element (ofNat g.numbers.references)]) ++
          [p.verb (ofNat g.numbers.references)])) path i true) := by
  have hw : Leads (Tags · g path i b) (write p.operands) ⟨⟩
      (Tags · (g.write p.operands.opcodes) path i b) :=
    leads_write_of hv fun _ he =>
      he.append fun op hop => Opcode.plain_of_isOperand (p.isOperands op hop)
  refine hw.bind (leads_reference.bind (leads_modify fun e he => ?_))
  have hp := he.push (Opcode.plain_of_isVerb (p.isVerb (ofNat g.numbers.references))).2
  rwa [Progress.write_write, Progress.write_write, ← List.append_assoc] at hp

/-- **Everything in a tag is bound to one element.** -/
theorem leads_forM_attach {ps : List (Phrase ι)} (hv : ∀ p ∈ ps, p.operands.violation? = none)
    {b : Bool} :
    Leads (Tags · g path i b) (ps.forM attach) ⟨⟩
      (Tags · (g.write (bindings (ofNat g.numbers.references) b ps)) path i
        (b || !ps.isEmpty)) := by
  induction ps generalizing g b with
  | nil => simpa [bindings] using leads_pure _
  | cons p ps ih =>
    rw [bindings, ← Progress.write_write,
      show (b || !(p :: ps).isEmpty) = (true || !ps.isEmpty) by simp]
    exact (leads_attach (hv p List.mem_cons_self)).bind
      (ih fun q hq => hv q (List.mem_cons_of_mem p hq))

omit [Lawful ι] in
theorem forM_setAttribute (attributes : List Attribute) :
    (attributes.forM setAttribute : Assemble ι Unit) =
      ((attributes.filter (!·.isStatic)).map Attribute.phrase).forM attach := by
  induction attributes with
  | nil => rfl
  | cons a attributes ih =>
    change (setAttribute a >>= fun _ => attributes.forM setAttribute) = _
    rw [ih, setAttribute]
    cases h : a.isStatic <;> simp [h, attach, Attribute.phrase]

omit [Lawful ι] in
/-- **The tag of an element attaches its phrases**, static attributes left out. -/
theorem forM_phrases (e : Element) :
    (e.phrases.forM attach : Assemble ι Unit) = (do
      e.attributes.forM setAttribute
      e.helpers.forM nodeHelper) := by
  rw [forM_setAttribute, Element.phrases, List.forM_eq_forM, List.forM_append]
  simp only [List.forM_map, List.forM_eq_forM]
  rfl

/-! ### Elements -/

/-- Morphs are placed before an element is entered; where it is not, there are none to place and the
stream goes on behind the same anchor. -/
structure Nears (e : Assembler ι) (g : Progress ι) (path : List Nat) (i : Nat) (single : Bool) :
    Prop extends Places e g path i where
  carries : single = true → e.tape.Carries g.stream

omit [Lawful ι] in
theorem leads_flush_nears {single : Bool} :
    Leads (fun e : Assembler ι => e.Shows g path i ∧ (single = true → e.tape.pending = [])) flush ⟨⟩
      (Nears · g path i single) := by
  rintro e ⟨he, hp⟩
  obtain ⟨e', hf, he'⟩ := leads_flush e he
  refine ⟨e', hf, he', fun hs => ?_⟩
  have hf' : flush e = .ok ⟨⟩ e := by
    change EStateM.Result.ok _ (if e.tape.pending.isEmpty then e else _) = _
    rw [hp hs]
    rfl
  cases hf'.symm.trans hf
  exact he.carries

theorem leads_visit_nears {single : Bool} :
    Leads (Nears · g path i single) (visit : Assemble ι ι) (ofNat i)
      (Nears · g path (i + 1) single) := by
  refine leads_visit_of (fun e he => he.cursor) fun e he => ?_
  exact ⟨⟨he.toAgrees.goto _ _, he.settled⟩, he.carries⟩

/-- The element is referred to as soon as it is entered. -/
theorem leads_reference_of (c : Prop) [Decidable c] :
    Leads (Tags · g path i false) (if c then discard reference else pure () : Assemble ι Unit) ⟨⟩
      (Tags · (g.write (if c then [.element (ofNat g.numbers.references)] else [])) path i c) := by
  by_cases h : c
  · rw [if_pos h, if_pos h, decide_eq_true h]
    exact leads_reference.discard
  · rw [if_neg h, if_neg h, decide_eq_false h, Progress.write_nil]
    exact leads_pure _

/-- **An element is entered, unless it is the only root.** -/
theorem leads_arrive (o : Options) (single : Bool) (uses index : ι) :
    Leads (fun e : Assembler ι => e.Nears g path i single ∧ e.unreferenced = true)
      (arrive o single uses index) ⟨⟩
      (Tags · (g.write ((if single then [] else [.consumeParent index]) ++
        if !single && o.cacheThreshold.toNat < toNat uses then
          [.element (ofNat g.numbers.references)]
        else [])) path i (!single && o.cacheThreshold.toNat < toNat uses)) := by
  cases single with
  | true =>
    rintro e ⟨he, hu⟩
    refine ⟨e, rfl, ?_⟩
    simp only [↓reduceIte, Bool.not_true, Bool.false_and, Bool.false_eq_true, List.append_nil,
      Progress.write_nil]
    exact ⟨⟨he.toAgrees, he.carries rfl⟩, he.settled.pending, hu⟩
  | false =>
    have hc : Leads (fun e : Assembler ι => e.Nears g path i false ∧ e.unreferenced = true)
        (push (.consumeParent index)) ⟨⟩
        (Tags · (g.write [.consumeParent index]) path i false) := by
      refine leads_modify fun e he => ⟨⟨he.1.toAgrees.push _, he.1.settled.push rfl⟩, ?_, he.2⟩
      exact (Tape.pending_push _ _).trans he.1.settled.pending
    rw [← Progress.write_write]
    refine hc.bind ?_
    simp only [Bool.not_false, Bool.true_and, decide_eq_true_eq]
    exact leads_reference_of _

omit [Lawful ι] in
theorem leads_forM_push {b : Bool} {ops : List (Opcode ι)} (hops : ∀ op ∈ ops, op.Plain) :
    Leads (Tags · g path i b) (ops.forM push) ⟨⟩ (Tags · (g.write ops) path i b) := by
  induction ops generalizing g with
  | nil => simpa using leads_pure _
  | cons op ops ih =>
    rw [← List.singleton_append, ← Progress.write_write]
    refine Leads.bind (leads_modify fun e he => he.push (hops op List.mem_cons_self).2) (ih ?_)
    exact fun op' h' => hops op' (List.mem_cons_of_mem op h')

omit [Lawful ι] in
theorem leads_descend {b : Bool} :
    Leads (Tags · g path (i + 1) b)
      (modify fun e => { e with cursor := e.cursor.descend (ofNat i) } : Assemble ι PUnit) ⟨⟩
      (Tags · g (path ++ [i]) 0 b) := by
  refine leads_modify fun e he => ⟨⟨?_, he.carries⟩, he.pending, he.unreferenced⟩
  rw [he.cursor, Cursor.descend_past]
  exact he.toAgrees.goto _ _

omit [Lawful ι] in
/-- The element at hand is yet to be referred to. -/
theorem leads_unreferenced {single : Bool} :
    Leads (Nears · g path i single)
      (modify ({ · with unreferenced := true }) : Assemble ι PUnit) ⟨⟩
      fun e => e.Nears g path i single ∧ e.unreferenced = true :=
  leads_modify fun _ he => ⟨⟨⟨⟨he.deferring, he.nextMorph, he.reference, he.children, he.length,
    he.cursor⟩, he.settled⟩, he.carries⟩, rfl⟩

/-- **An element is opened.** -/
theorem leads_startElement (o : Options) {e : Element}
    (hv : (Statement.element e).violations = []) (length : Nat) :
    Leads (fun a : Assembler ι => a.Shows g path i ∧
        ((Node.mk path i length (.element e)).isSole = true → a.tape.pending = []))
      (startElement o e (Node.mk path i length (.element e)).isSole (ofNat e.uses)
        (blanks e.children)) ⟨⟩
      (Shows · (g.step o (.enter ⟨path, i, length, .element e⟩)) (path ++ [i]) 0) := by
  rw [startElement_eq, ← forM_phrases]
  refine leads_flush_nears.bind (leads_visit_nears.bind (leads_unreferenced.bind
    ((leads_arrive _ _ _ _).bind ((leads_forM_push fun _ => plain_of_mem_repair).bind
      (leads_descend.bind ((leads_forM_attach fun _ => violation?_of_mem_phrases hv).imp
        fun a ha => ?_))))))
  have hs := ha.toShows
  rw [Progress.write_write, Progress.write_write] at hs
  simpa [Progress.step, Progress.write, Visit.opcodes, Node.opening, Node.tag, Numbers.step,
    Visit.nested, Statement.nested, Statement.isDynamic, Node.isReferenced, Node.isEager] using hs

omit [Lawful ι] in
theorem Agrees.ascend {e : Assembler ι} {j : Nat} (h : e.Agrees g (path ++ [i]) j) :
    { e with cursor := e.cursor.ascend }.Agrees g path (i + 1) := by
  rw [h.cursor, Cursor.ascend_past]
  exact h.goto _ _

omit [Lawful ι] in
/-- **An element is closed**, and the morphs inside it are placed. -/
theorem leads_endElement {j : Nat} :
    Leads (Shows · g (path ++ [i]) j) (endElement false : Assemble ι Unit) ⟨⟩
      (Shows · (g.write [.popParent]) path (i + 1)) := by
  have hp : Leads (Places · g (path ++ [i]) j) (depart false : Assemble ι Unit) ⟨⟩
      (Shows · (g.write [.popParent]) (path ++ [i]) j) :=
    leads_modify fun e he => ⟨he.toAgrees.push _, he.settled.push rfl⟩
  rw [endElement_eq]
  exact leads_flush.bind (hp.bind (leads_modify fun e he => ⟨he.toAgrees.ascend, he.carries⟩))

omit [Lawful ι] in
/-- The only root is closed without an instruction. -/
theorem leads_endElement_sole {j : Nat} :
    Leads (Shows · g (path ++ [i]) j) (endElement true : Assemble ι Unit) ⟨⟩
      (Places · g path (i + 1)) := by
  rw [endElement_eq]
  refine leads_flush.bind ((leads_pure _).bind (leads_modify fun e he => ?_))
  exact ⟨he.toAgrees.ascend, he.settled⟩

/-! ### Dynamic nodes -/

omit [Lawful ι] in
/-- What a dynamic node adds. -/
theorem step_of_phrase (o : Options) {s : Statement} {p : Phrase ι} (length : Nat)
    (hp : s.phrase? g.numbers.programs = some p) :
    g.step o (.enter ⟨path, i, length, s⟩) =
      ((g.create (Node.morph ⟨path, i, length, s⟩ g.numbers.morphs)).adopt
        (s.nested.map (Fragment.output o))).write (p.opcodes (ofNat g.numbers.morphs)) := by
  cases s with
  | text _ | comment _ | element _ => exact absurd hp (by simp [Statement.phrase?])
  | mustache _ | block _ | component _ =>
    obtain rfl := Option.some.inj hp
    simp [Progress.step, Progress.create, Progress.adopt, Progress.write, Visit.opcodes,
      Node.opening, Statement.phrase?, Numbers.step, Visit.nested, Statement.isDynamic,
      Node.isReferenced]

omit [Lawful ι] in
/-- **A phrase is written into a morph.** -/
theorem leads_phrase {p : Phrase ι} (hv : p.operands.violation? = none) (target : ι) :
    Leads (Shows · g path i) (do write p.operands; push (p.verb target)) ⟨⟩
      (Shows · (g.write (p.opcodes target)) path i) := by
  rw [Phrase.opcodes, ← Progress.write_write]
  exact (leads_write hv p.isOperands).bind (leads_push (Opcode.plain_of_isVerb (p.isVerb target)))

omit [Lawful ι] in
/-- **A mustache is its phrase, written into a new morph.** -/
theorem mustache_eq (m : Mustache) (index length : Nat) :
    (mustache m index length : Assemble ι Unit) = (do
      let morph ← place index length m.escaped
      write m.phrase.operands
      push (m.phrase.verb morph)) := by
  unfold mustache Mustache.phrase
  cases m.call.isHelper <;> rfl

theorem leads_mustache (o : Options) {m : Mustache} (hv : m.call.violations = []) (length : Nat) :
    Leads (Shows · g path i) (mustache m i length : Assemble ι Unit) ⟨⟩
      (Shows · (g.step o (.enter ⟨path, i, length, .mustache m⟩)) path (i + 1)) := by
  have hp : (m.phrase : Phrase ι).operands.violation? = none :=
    violation?_of_phrase 0 (s := .mustache m) hv rfl
  have hn : (Statement.mustache m).nested.map (Fragment.output o : Fragment → Program ι) = [] := rfl
  rw [mustache_eq, step_of_phrase o length rfl, hn, Progress.adopt_nil]
  exact (leads_place length (.mustache m)).bind (leads_phrase hp _)

omit [Lawful ι] in
/-- The programs of a block or component are pushed before its call. -/
theorem leads_program (body inverse : Option ι) {code : Code ι} (hv : code.violation? = none)
    (hc : code.IsOperands) {verb : Opcode ι} (hverb : verb.isVerb) :
    Leads (Shows · g path i) (do push (.program body inverse); write code; push verb) ⟨⟩
      (Shows · (g.write ((Code.one (.program body inverse) ++ code).opcodes ++ [verb])) path
        i) := by
  have ho : (Code.one (.program body inverse) ++ code).opcodes =
      [.program body inverse] ++ code.opcodes := by rw [Code.append_of_none rfl]; rfl
  rw [ho, ← Progress.write_write, ← Progress.write_write]
  exact (leads_push ⟨rfl, rfl⟩).bind ((leads_write hv hc).bind
    (leads_push (Opcode.plain_of_isVerb hverb)))

theorem leads_block (o : Options) {b : Block} (hv : b.call.violations = []) (length : Nat) :
    Leads (Shows · g path i)
      (block b i length (b.body.output o) (b.inverse.map (Fragment.output o)) : Assemble ι Unit) ⟨⟩
      (Shows · (g.step o (.enter ⟨path, i, length, .block b⟩)) path (i + 1)) := by
  have hp : (b.call.code : Code ι).violation? = none := by
    rw [b.call.violation?_code, hv, List.head?_nil]
  have hn : (Statement.block b).nested.map (Fragment.output o) =
      [b.body.output o] ++ (b.inverse.map (Fragment.output o : Fragment → Program ι)).toList := by
    cases h : b.inverse <;> simp [Statement.nested, h]
  rw [step_of_phrase o length rfl, hn, ← Progress.adopt_adopt]
  refine (leads_place length (.block b)).bind ((leads_addChild _).bind
    ((leads_addChild_option _).bind ?_))
  rw [Option.map_map]
  exact leads_program _ _ hp b.call.isExpr_code.isOperands rfl

theorem leads_component (o : Options) {c : Component} (ht : c.tag ≠ "")
    (hv : (c.attributes.flatMap fun a =>
      (nameViolation? a.name a.span).toList ++ a.violations) = []) (length : Nat) :
    Leads (Shows · g path i) (component c i length (c.body.output o) : Assemble ι Unit) ⟨⟩
      (Shows · (g.step o (.enter ⟨path, i, length, .component c⟩)) path (i + 1)) := by
  have hp := violation?_attributesHash (ι := ι) c.tag c.attributes
  rw [hv, List.head?_nil] at hp
  have hr : Leads (Shows · g path i) (requireTag c : Assemble ι Unit) ⟨⟩ (Shows · g path i) := by
    rw [requireTag, if_neg ht]
    exact leads_pure _
  rw [component_eq, step_of_phrase o length rfl]
  refine hr.bind ((leads_place length (.component c)).bind ((leads_addChild _).bind ?_))
  exact leads_program _ _ hp
    ((Code.isExpr_one rfl).append (attributesHash c.attributes).isExpr_code).isOperands rfl

end Assembler

end Hydration
