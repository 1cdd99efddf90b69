import Hydration.Proofs.Counting
import Hydration.Proofs.Document
import Hydration.Proofs.Hoist

/-!
# Proofs/Stream — the stream of a fragment, morphs where they are met

`Fragment.stream` gives the instructions of a fragment as a plain function of its tree: each node of
the document adds what it needs when it is entered and when it is left, and morphs are created on
the spot. The numbers a node gives out and refers to depend only on the nodes before it (`Numbers`),
so the stream of two parts of a document is that of the first followed by that of the second, with
the numbers moved on (`stream_append`).

Everything that is bound at a node has one form, a `Phrase`: operands, then the instruction that
uses them up.
-/

namespace Hydration

open Counter

variable {ι : Type} [Counter ι]

/-! ## Operands -/

namespace Opcode

omit [Counter ι]

/-- The instruction only works on the stack of operands. -/
def isOperand : Opcode ι → Bool
  | .program .. | .string _ | .stringLiteral _ | .literal _ | .id _ | .sexpr _ | .stackLiteral _ =>
    true
  | _ => false

/-- The instruction is part of a value, and hands no program over. -/
def isExpr : Opcode ι → Bool
  | .program none none | .string _ | .stringLiteral _ | .literal _ | .id _ | .sexpr _
  | .stackLiteral _ => true
  | _ => false

/-- The instruction uses operands up. -/
def isVerb : Opcode ι → Bool
  | .attribute .. | .nodeHelper .. | .helper .. | .ambiguous _ | .component .. => true
  | _ => false

/-- The number under which an instruction keeps an element. -/
def keeps? : Opcode ι → Option ι
  | .element number => some number
  | _ => none

/-- The number of the element an instruction binds something to. -/
def bindsTo? : Opcode ι → Option ι
  | .attribute _ _ _ number | .nodeHelper _ number => some number
  | _ => none

/-- The number of the morph an instruction fills. -/
def fills? : Opcode ι → Option ι
  | .helper _ number _ | .ambiguous number | .component number _ => some number
  | _ => none

theorem isOperand_of_isExpr {op : Opcode ι} (h : op.isExpr) : op.isOperand := by
  cases op <;> first | rfl | exact absurd h Bool.false_ne_true

theorem plain_of_isOperand {op : Opcode ι} (h : op.isOperand) : op.Plain := by
  cases op <;> first | exact ⟨rfl, rfl⟩ | exact absurd h Bool.false_ne_true

theorem plain_of_isVerb {op : Opcode ι} (h : op.isVerb) : op.Plain := by
  cases op <;> first | exact ⟨rfl, rfl⟩ | exact absurd h Bool.false_ne_true

end Opcode

/-- The code only works on the stack of operands. -/
def Code.IsOperands (c : Code ι) : Prop := ∀ op ∈ c.opcodes, op.isOperand

/-- The code only works out values. -/
def Code.IsExpr (c : Code ι) : Prop := ∀ op ∈ c.opcodes, op.isExpr

namespace Code

omit [Counter ι]

variable {c d : Code ι}

/-- Code after code is made of what either is made of. -/
theorem forall_append {P : Opcode ι → Prop} (hc : ∀ op ∈ c.opcodes, P op)
    (hd : ∀ op ∈ d.opcodes, P op) : ∀ op ∈ (c ++ d).opcodes, P op := by
  cases h : c.violation? with
  | some v => rwa [append_of_violation h]
  | none =>
    rw [append_of_none h]
    intro op hop
    rcases List.mem_append.mp hop with hop | hop
    · exact hc op hop
    · exact hd op hop

theorem IsOperands.append (hc : c.IsOperands) (hd : d.IsOperands) : (c ++ d).IsOperands :=
  forall_append hc hd

theorem IsExpr.append (hc : c.IsExpr) (hd : d.IsExpr) : (c ++ d).IsExpr := forall_append hc hd

theorem IsExpr.isOperands (hc : c.IsExpr) : c.IsOperands :=
  fun op hop => Opcode.isOperand_of_isExpr (hc op hop)

theorem isOperands_one {op : Opcode ι} (h : op.isOperand) : (one op).IsOperands := by
  intro op' h'
  rwa [List.mem_singleton.mp h']

theorem isExpr_one {op : Opcode ι} (h : op.isExpr) : (one op).IsExpr := by
  intro op' h'
  rwa [List.mem_singleton.mp h']

theorem isExpr_check (v? : Option Violation) : (check v? : Code ι).IsExpr :=
  fun _ h => absurd h List.not_mem_nil

end Code

namespace Template

open Code

theorem isExpr_countCode (k : Nat) : (countCode k : Code ι).IsExpr := isExpr_one rfl

omit [Counter ι] in
theorem isExpr_noProgram : (noProgram : Code ι).IsExpr := isExpr_one rfl

omit [Counter ι] in
theorem Path.isExpr_nameCode (p : Path) : (p.nameCode : Code ι).IsExpr :=
  (isExpr_check _).append (isExpr_one rfl)

mutual

theorem Expr.isExpr_code (e : Expr) : (e.code : Code ι).IsExpr := by
  match e with
  | .path p =>
    rw [Expr.code]
    exact (isExpr_check _).append (isExpr_one rfl)
  | .sub c =>
    rw [Expr.code]
    exact (((isExpr_one rfl).append isExpr_noProgram).append c.isExpr_code).append
      (isExpr_one rfl)
  | .string .. | .number .. | .boolean .. =>
    rw [Expr.code]
    exact isExpr_one rfl

theorem Call.isExpr_code (c : Call) : (c.code : Code ι).IsExpr := by
  match c with
  | ⟨callee, params, none, _⟩ =>
    rw [Call.code]
    exact (callee.isExpr_nameCode.append (isExpr_exprsCode params)).append (isExpr_countCode 0)
  | ⟨callee, params, some ⟨pairs, _⟩, _⟩ =>
    rw [Call.code]
    exact (callee.isExpr_nameCode.append (isExpr_exprsCode params)).append
      ((isExpr_pairsCode pairs).append (isExpr_countCode _))

theorem isExpr_exprsCode (es : List Expr) : (exprsCode es : Code ι).IsExpr := by
  match es with
  | [] =>
    rw [exprsCode]
    exact fun _ h => absurd h List.not_mem_nil
  | e :: es =>
    rw [exprsCode]
    exact e.isExpr_code.append (isExpr_exprsCode es)

theorem isExpr_pairsCode (pairs : List Pair) : (pairsCode pairs : Code ι).IsExpr := by
  match pairs with
  | [] =>
    rw [pairsCode]
    exact fun _ h => absurd h List.not_mem_nil
  | ⟨key, value, span⟩ :: pairs =>
    rw [pairsCode]
    exact (((isExpr_check _).append value.isExpr_code).append (isExpr_one rfl)).append
      (isExpr_pairsCode pairs)

end

theorem Hash.isExpr_code (h : Hash) : (h.code : Code ι).IsExpr :=
  (isExpr_pairsCode _).append (isExpr_countCode _)

theorem Attribute.isExpr_code (a : Attribute) : (a.code : Code ι).IsExpr :=
  ((isExpr_noProgram.append (isExpr_one rfl)).append (isExpr_exprsCode _)).append
    (isExpr_countCode 0)

end Template

/-! ## Phrases -/

/-- **Operands and the instruction that uses them up**, on an element or in a morph given by its
number. -/
structure Phrase (ι : Type) where
  operands : Code ι
  verb : ι → Opcode ι
  isOperands : operands.IsOperands
  isVerb : ∀ target, (verb target).isVerb

/-- The instructions of a phrase. -/
def Phrase.opcodes (p : Phrase ι) (target : ι) : List (Opcode ι) :=
  p.operands.opcodes ++ [p.verb target]

namespace Template

open Code

/-- A dynamic attribute. -/
def Attribute.phrase (a : Attribute) : Phrase ι where
  operands := a.code
  verb := .attribute a.quoted a.name (ofNat a.value.length)
  isOperands := a.isExpr_code.isOperands
  isVerb _ := rfl

/-- A helper call in a tag. -/
def Call.phrase (c : Call) : Phrase ι where
  operands := noProgram ++ c.code
  verb := .nodeHelper (ofNat c.params.length)
  isOperands := (isExpr_noProgram.append c.isExpr_code).isOperands
  isVerb _ := rfl

/-- **What is bound in the tag of an element**: its dynamic attributes, then its helpers. -/
def Element.phrases (e : Element) : List (Phrase ι) :=
  (e.attributes.filter (!·.isStatic)).map Attribute.phrase ++ e.helpers.map Call.phrase

/-- Nothing is bound in a tag with static attributes and no helpers. -/
theorem Element.isEmpty_phrases (e : Element) :
    (e.phrases : List (Phrase ι)).isEmpty =
      (e.attributes.all Attribute.isStatic && e.helpers.isEmpty) := by
  rw [Bool.eq_iff_iff]
  simp [phrases, List.filter_eq_nil_iff]

/-- Operands in a tag hand no program over. -/
theorem Element.isExpr_of_mem_phrases {e : Element} {p : Phrase ι} (h : p ∈ e.phrases) :
    p.operands.IsExpr := by
  rcases List.mem_append.mp h with h | h
  · obtain ⟨a, -, rfl⟩ := List.mem_map.mp h
    exact a.isExpr_code
  · obtain ⟨c, -, rfl⟩ := List.mem_map.mp h
    exact isExpr_noProgram.append c.isExpr_code

/-- What is bound in a tag is bound to its element. -/
theorem Element.bindsTo?_of_mem_phrases {e : Element} {p : Phrase ι} (h : p ∈ e.phrases)
    (element : ι) : (p.verb element).bindsTo? = some element := by
  rcases List.mem_append.mp h with h | h
  · obtain ⟨a, -, rfl⟩ := List.mem_map.mp h
    rfl
  · obtain ⟨c, -, rfl⟩ := List.mem_map.mp h
    rfl

/-- What is bound at a mustache. A call without operands is left for the runtime to tell. -/
def Mustache.phrase (m : Mustache) : Phrase ι :=
  if m.call.isHelper then
    { operands := noProgram ++ m.call.code
      verb := fun morph => .helper (ofNat m.call.params.length) morph none
      isOperands := (isExpr_noProgram.append m.call.isExpr_code).isOperands
      isVerb := fun _ => rfl }
  else
    { operands := m.call.callee.nameCode
      verb := .ambiguous
      isOperands := m.call.callee.isExpr_nameCode.isOperands
      isVerb := fun _ => rfl }

/-- What is bound at a block whose nested programs are numbered from `programs` on. -/
def Block.phrase (programs : Nat) (b : Block) : Phrase ι where
  operands := .one (.program (some (ofNat programs))
    (b.inverse.map fun _ => ofNat (programs + 1))) ++ b.call.code
  verb morph :=
    .helper (ofNat b.call.params.length) morph (some (ofNat b.body.blockParams.length))
  isOperands := (isOperands_one rfl).append b.call.isExpr_code.isOperands
  isVerb _ := rfl

/-- What is bound at a component whose nested program has number `programs`. -/
def Component.phrase (programs : Nat) (c : Component) : Phrase ι where
  operands := .one (.program (some (ofNat programs)) none) ++
    (.one (.string c.tag) ++ (attributesHash c.attributes).code)
  verb morph := .component morph (ofNat c.body.blockParams.length)
  isOperands := (isOperands_one rfl).append
    ((isExpr_one rfl).append (attributesHash c.attributes).isExpr_code).isOperands
  isVerb _ := rfl

/-- **What is bound at a dynamic statement.** -/
def Statement.phrase? (programs : Nat) : Statement → Option (Phrase ι)
  | .mustache m => some m.phrase
  | .block b => some (b.phrase programs)
  | .component c => some (c.phrase programs)
  | _ => none

/-- What is bound at a dynamic statement fills its morph. -/
theorem Statement.fills?_of_phrase? {programs : Nat} {s : Statement} {p : Phrase ι}
    (h : s.phrase? programs = some p) (morph : ι) : (p.verb morph).fills? = some morph := by
  cases s with
  | text _ | comment _ | element _ => exact absurd h (by simp [phrase?])
  | mustache m =>
    obtain rfl := Option.some.inj h
    unfold Mustache.phrase
    cases m.call.isHelper <;> rfl
  | block _ | component _ =>
    obtain rfl := Option.some.inj h
    rfl

/-- What a dynamic statement is filled in with is escaped. -/
def Statement.isEscaped : Statement → Bool
  | .mustache m => m.escaped
  | .block _ => true
  | _ => false

end Template

open Template

/-! ## The numbers given out -/

/-- **How many numbers are given out** to morphs, elements and nested programs. -/
structure Numbers where
  morphs : Nat := 0
  references : Nat := 0
  programs : Nat := 0
deriving DecidableEq, Repr

namespace Template.Node

/-- The element is referred to as soon as it is opened. -/
def isEager (ι : Type) [Counter ι] (o : Options) (ν : Node) : Bool :=
  match ν.statement with
  | .element e => !ν.isSole && o.cacheThreshold.toNat < toNat (ofNat e.uses : ι)
  | _ => false

/-- The element is referred to at all. -/
def isReferenced (ι : Type) [Counter ι] (o : Options) (ν : Node) : Bool :=
  match ν.statement with
  | .element e => ν.isEager ι o || !(e.phrases : List (Phrase ι)).isEmpty
  | _ => false

/-- **The morph of a dynamic node**, the `k`-th one. -/
def morph (ν : Node) (k : Nat) : Morph ι where
  id := ofNat k
  path := ν.path.map ofNat
  start := if toNat (ofNat ν.index : ι) = 0 then none else some (ofNat ν.index)
  stop := if ν.index + 1 = ν.siblings then none else some (ofNat (ν.index + 1))
  escaped := ν.statement.isEscaped

end Template.Node

/-- The numbers given out once a step is made. -/
def Numbers.step (ι : Type) [Counter ι] (o : Options) (n : Numbers) : Visit → Numbers
  | .enter ν =>
    { morphs := n.morphs + ν.statement.isDynamic.toNat
      references := n.references + (ν.isReferenced ι o).toNat
      programs := n.programs + ν.statement.nested.length }
  | .leave _ => n

/-- The numbers given out once all steps are made. -/
def Numbers.after (ι : Type) [Counter ι] (o : Options) (n : Numbers) (vs : List Visit) : Numbers :=
  vs.foldl (Numbers.step ι o) n

/-! ## The stream -/

/-- **Phrases on one element**, which is referred to before the first of them is used. -/
def bindings (reference : ι) : Bool → List (Phrase ι) → List (Opcode ι)
  | _, [] => []
  | referenced, p :: ps =>
    p.operands.opcodes ++ (if referenced then [] else [.element reference]) ++
      [p.verb reference] ++ bindings reference true ps

/-- What the tag of an element adds to the stream. -/
def Template.Node.tag (o : Options) (n : Numbers) (ν : Node) (e : Element) : List (Opcode ι) :=
  (if ν.isEager ι o then [.element (ofNat n.references)] else []) ++
    Assembler.repair o (blanks e.children) e.isChecked ++
    bindings (ofNat n.references) (ν.isEager ι o) e.phrases

/-- What entering a node adds to the stream. -/
def Template.Node.opening (o : Options) (n : Numbers) (ν : Node) : List (Opcode ι) :=
  match ν.statement with
  | .element e => (if ν.isSole then [] else [.consumeParent (ofNat ν.index)]) ++ ν.tag o n e
  | s =>
    match s.phrase? n.programs with
    | none => []
    | some p => .morph (ν.morph n.morphs) :: p.opcodes (ofNat n.morphs)

/-- **A statement is an element, or static, or something is bound at it.** -/
theorem Template.Statement.trichotomy (s : Statement) (programs : Nat) :
    (∃ e, s = .element e) ∨ (s.isElement = false ∧ s.isDynamic = false) ∨
      (s.isElement = false ∧ s.isDynamic = true ∧
        ∃ p : Phrase ι, s.phrase? programs = some p) := by
  cases s with
  | text _ | comment _ => exact .inr (.inl ⟨rfl, rfl⟩)
  | element e => exact .inl ⟨e, rfl⟩
  | mustache _ | block _ | component _ => exact .inr (.inr ⟨rfl, rfl, _, rfl⟩)

/-- A dynamic node creates its morph, and fills it. -/
theorem Template.Node.opening_of_phrase (o : Options) {n : Numbers} {ν : Node} {p : Phrase ι}
    (hp : ν.statement.phrase? n.programs = some p) :
    ν.opening o n = .morph (ν.morph n.morphs) :: p.opcodes (ofNat n.morphs) := by
  obtain ⟨path, index, siblings, s⟩ := ν
  cases s with
  | text _ | comment _ | element _ => exact absurd hp (by simp [Statement.phrase?])
  | mustache _ | block _ | component _ =>
    obtain rfl := Option.some.inj hp
    rfl

/-- A static node adds nothing. -/
theorem Template.Node.opening_of_static (o : Options) (n : Numbers) {ν : Node}
    (hs : ν.statement.isElement = false) (hd : ν.statement.isDynamic = false) :
    (ν.opening o n : List (Opcode ι)) = [] := by
  obtain ⟨path, index, siblings, s⟩ := ν
  cases s with
  | text _ | comment _ => rfl
  | element _ => exact absurd hs (by simp [Statement.isElement])
  | mustache _ | block _ | component _ => exact absurd hd (by simp [Statement.isDynamic])

/-- What leaving a node adds to the stream. -/
def Template.Node.closing (ν : Node) : List (Opcode ι) :=
  if ν.statement.isElement && !ν.isSole then [.popParent] else []

/-- What a step adds to the stream. -/
def Template.Visit.opcodes (o : Options) (n : Numbers) : Visit → List (Opcode ι)
  | .enter ν => ν.opening o n
  | .leave ν => ν.closing

/-- **The stream of a walk**, numbers given out from `n` on. -/
def stream (o : Options) (n : Numbers) : List Visit → List (Opcode ι)
  | [] => []
  | v :: vs => v.opcodes o n ++ stream o (n.step ι o v) vs

/-- **What comes before the stream of a walk**: parameters, and repairs at the root. -/
def Template.Fragment.header (o : Options) (f : Fragment) : List (Opcode ι) :=
  (f.blockParams.zipIdx.map fun (name, i) => .blockParam name (ofNat i)) ++
    Assembler.repair o (blanks f.body) false

/-- **The stream of a fragment.** -/
def Template.Fragment.stream (o : Options) (f : Fragment) : List (Opcode ι) :=
  f.header o ++ Hydration.stream o {} f.visits

theorem stream_append (o : Options) (n : Numbers) (us vs : List Visit) :
    (stream o n (us ++ vs) : List (Opcode ι)) =
      stream o n us ++ stream o (n.after ι o us) vs := by
  induction us generalizing n with
  | nil => rfl
  | cons u us ih =>
    rw [List.cons_append, stream, ih, stream, List.append_assoc]
    rfl

/-- **The stream of a node, of what is inside it, and of what is behind it.** -/
theorem stream_cons (o : Options) (n : Numbers) (ν : Node) (us vs : List Visit) :
    (stream o n (.enter ν :: (us ++ .leave ν :: vs)) : List (Opcode ι)) =
      ν.opening o n ++ (stream o (n.step ι o (.enter ν)) us ++ (ν.closing ++
        stream o ((n.step ι o (.enter ν)).after ι o us) vs)) := by
  rw [stream, stream_append]
  rfl

/-! ## What a stream is made of -/

omit [Counter ι] in
theorem eq_of_mem_repair {o : Options} {blanks : List ι} {checked : Bool} {op : Opcode ι}
    (h : op ∈ Assembler.repair o blanks checked) :
    ∃ blanks checked, op = .repairClonedNode blanks checked := by
  unfold Assembler.repair at h
  generalize (if o.repairBlankText then blanks else []) = blanks at h
  dsimp only at h
  split at h
  · exact absurd h List.not_mem_nil
  · exact ⟨_, _, List.mem_singleton.mp h⟩

omit [Counter ι] in
theorem plain_of_mem_repair {o : Options} {blanks : List ι} {checked : Bool} {op : Opcode ι}
    (h : op ∈ Assembler.repair o blanks checked) : op.Plain := by
  obtain ⟨_, _, rfl⟩ := eq_of_mem_repair h
  exact ⟨rfl, rfl⟩

omit [Counter ι] in
theorem plain_of_mem_phrase {p : Phrase ι} {target : ι} {op : Opcode ι}
    (h : op ∈ p.opcodes target) : op.Plain := by
  rcases List.mem_append.mp h with h | h
  · exact Opcode.plain_of_isOperand (p.isOperands op h)
  · rw [List.mem_singleton.mp h]
    exact Opcode.plain_of_isVerb (p.isVerb target)

omit [Counter ι] in
/-- **What stands in phrases on an element**: operands, references to it, and what uses them. -/
theorem forall_mem_bindings {P : Opcode ι → Prop} {reference : ι} {ps : List (Phrase ι)}
    (operand : ∀ p ∈ ps, ∀ op ∈ p.operands.opcodes, P op) (element : P (.element reference))
    (verb : ∀ p ∈ ps, P (p.verb reference)) {b : Bool} {op : Opcode ι}
    (h : op ∈ bindings reference b ps) : P op := by
  induction ps generalizing b with
  | nil => exact absurd h List.not_mem_nil
  | cons p ps ih =>
    rw [bindings, List.mem_append, List.mem_append, List.mem_append, List.mem_singleton] at h
    rcases h with ((h | h) | rfl) | h
    · exact operand p List.mem_cons_self op h
    · split at h
      · exact absurd h List.not_mem_nil
      · rwa [List.mem_singleton.mp h]
    · exact verb p List.mem_cons_self
    · exact ih (fun q hq => operand q (List.mem_cons_of_mem p hq))
        (fun q hq => verb q (List.mem_cons_of_mem p hq)) h

/-- **What stands in a tag**: repairs, and phrases on the element. -/
theorem forall_mem_tag {P : Opcode ι → Prop} {o : Options} {n : Numbers} {ν : Node} {e : Element}
    (repair : ∀ blanks checked, P (.repairClonedNode blanks checked))
    (operand : ∀ p ∈ (e.phrases : List (Phrase ι)), ∀ op ∈ p.operands.opcodes, P op)
    (element : P (.element (ofNat n.references)))
    (verb : ∀ p ∈ (e.phrases : List (Phrase ι)), P (p.verb (ofNat n.references)))
    {op : Opcode ι} (h : op ∈ ν.tag o n e) : P op := by
  rw [Node.tag, List.mem_append, List.mem_append] at h
  rcases h with (h | h) | h
  · split at h
    · rwa [List.mem_singleton.mp h]
    · exact absurd h List.not_mem_nil
  · obtain ⟨blanks, checked, rfl⟩ := eq_of_mem_repair h
    exact repair blanks checked
  · exact forall_mem_bindings operand element verb h

/-- **The tag of an element neither creates morphs nor goes anywhere**: what is not plain in it
refers to the element. -/
theorem plain_or_element_of_mem_tag {o : Options} {n : Numbers} {ν : Node} {e : Element}
    {op : Opcode ι} (h : op ∈ ν.tag o n e) : op.Plain ∨ op = .element (ofNat n.references) := by
  refine forall_mem_tag (P := fun op => op.Plain ∨ op = .element (ofNat n.references))
    (fun _ _ => .inl ⟨rfl, rfl⟩) (fun p _ op hop => .inl ?_) (.inr rfl) (fun p _ => .inl ?_) h
  · exact Opcode.plain_of_isOperand (p.isOperands op hop)
  · exact Opcode.plain_of_isVerb (p.isVerb _)

/-- Opening an element creates no morph. -/
theorem isMorph_of_mem_opening {o : Options} {n : Numbers} {ν : Node} {e : Element}
    (he : ν.statement = .element e) {op : Opcode ι} (h : op ∈ ν.opening o n) :
    op.isMorph = false := by
  rw [Node.opening, he, List.mem_append] at h
  rcases h with h | h
  · split at h
    · exact absurd h List.not_mem_nil
    · rw [List.mem_singleton.mp h]
      rfl
  · rcases plain_or_element_of_mem_tag h with h | rfl
    · exact h.2
    · rfl

omit [Counter ι] in
theorem eq_popParent_of_mem_closing {ν : Node} {op : Opcode ι} (h : op ∈ ν.closing) :
    op = .popParent := by
  unfold Node.closing at h
  split at h
  · exact List.mem_singleton.mp h
  · exact absurd h List.not_mem_nil

/-- **What stands in a stream**: morphs, moves, references and repairs, and operands with what uses
them. -/
theorem forall_mem_stream {P : Opcode ι → Prop} (morph : ∀ m, P (.morph m))
    (move : ∀ index, P (.consumeParent index)) (back : P .popParent)
    (element : ∀ number, P (.element number))
    (repair : ∀ blanks checked, P (.repairClonedNode blanks checked))
    (operand : ∀ op : Opcode ι, op.isOperand → P op) (verb : ∀ op : Opcode ι, op.isVerb → P op)
    {o : Options} {n : Numbers} {vs : List Visit} {op : Opcode ι} (h : op ∈ stream o n vs) :
    P op := by
  have opening : ∀ (n : Numbers) (ν : Node), ∀ op ∈ (ν.opening o n : List (Opcode ι)), P op := by
    intro n ν op hop
    rcases ν.statement.trichotomy (ι := ι) n.programs with ⟨e, he⟩ | ⟨hs, hd⟩ | ⟨-, -, p, hp⟩
    · rw [Node.opening, he, List.mem_append] at hop
      rcases hop with hop | hop
      · split at hop
        · exact absurd hop List.not_mem_nil
        · rw [List.mem_singleton.mp hop]
          exact move _
      · exact forall_mem_tag repair (fun p _ op hop => operand op (p.isOperands op hop))
          (element _) (fun p _ => verb _ (p.isVerb _)) hop
    · rw [Node.opening_of_static o n hs hd] at hop
      exact absurd hop List.not_mem_nil
    · rw [Node.opening_of_phrase o hp, List.mem_cons, Phrase.opcodes, List.mem_append,
        List.mem_singleton] at hop
      rcases hop with rfl | hop | rfl
      · exact morph _
      · exact operand op (p.isOperands op hop)
      · exact verb _ (p.isVerb _)
  induction vs generalizing n with
  | nil => exact absurd h List.not_mem_nil
  | cons v vs ih =>
    rcases List.mem_append.mp h with h | h
    · cases v with
      | enter ν => exact opening n ν op h
      | leave ν => rwa [eq_popParent_of_mem_closing h]
    · exact ih h

/-- **What comes before a stream**: parameters and repairs. -/
theorem forall_mem_header {P : Opcode ι → Prop} (param : ∀ name index, P (.blockParam name index))
    (repair : ∀ blanks checked, P (.repairClonedNode blanks checked)) {o : Options} {f : Fragment}
    {op : Opcode ι} (h : op ∈ f.header o) : P op := by
  rcases List.mem_append.mp h with h | h
  · obtain ⟨⟨name, i⟩, -, rfl⟩ := List.mem_map.mp h
    exact param name _
  · obtain ⟨blanks, checked, rfl⟩ := eq_of_mem_repair h
    exact repair blanks checked

theorem plain_of_mem_header {o : Options} {f : Fragment} {op : Opcode ι} (h : op ∈ f.header o) :
    op.Plain :=
  forall_mem_header (fun _ _ => ⟨rfl, rfl⟩) (fun _ _ => ⟨rfl, rfl⟩) h

end Hydration
