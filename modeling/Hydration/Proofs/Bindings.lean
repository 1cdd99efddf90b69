import Hydration.Proofs.Nesting
import Hydration.Proofs.Operands

/-!
# Proofs/Bindings — a stream binds what its template binds

The machine that reads operands gives back what the template says: `Node.bindings` is what is bound
at a node, read off the tree, and `Fragment.bindings` that of all nodes in document order. Each node
gives its bindings and leaves the stack as it was (`run_opening`), so a stream is read from an empty
stack to an empty stack, and moving morphs around in it changes nothing (`run_hoist`).

* `program_decodes`: the stream of a program, and of every program nested in it, gives the bindings
  of its fragment, and the stack ends empty.
-/

namespace Hydration

open Template Counter

/-! ## Numbers in bindings -/

section

variable {ι κ : Type} (f : ι → κ)

/-- A call with its numbers mapped. -/
def Invocation.map (c : Invocation ι) : Invocation κ where
  body := c.body.map f
  inverse := c.inverse.map f
  name := c.name
  params := c.params
  hash := c.hash

/-- A binding with its numbers mapped. -/
def Binding.map : Binding ι → Binding κ
  | .attribute quoted name parts element => .attribute quoted name parts (f element)
  | .nodeHelper call element => .nodeHelper (call.map f) (f element)
  | .helper call morph blockParams => .helper (call.map f) (f morph) (blockParams.map f)
  | .ambiguous name morph => .ambiguous name (f morph)
  | .component call morph blockParams => .component (call.map f) (f morph) (f blockParams)

end

/-! ## What a template binds -/

namespace Template

/-- What a piece of an attribute value stands for. -/
def Part.toValue : Part → Value
  | .text t => .string t.chars
  | .path p => .lookup p.segments
  | .sub c => c.toValue

/-- **What the value of an attribute stands for**: several pieces are joined. -/
def Attribute.toValue (a : Attribute) : Value :=
  match a.value with
  | [] => .string ""
  | [part] => part.toValue
  | parts => .call "concat" (parts.map Part.toValue) []

/-- **A call as it is written**, with the programs it renders. -/
def Call.invocation (c : Call) (body inverse : Option Nat) : Invocation Nat where
  body := body
  inverse := inverse
  name := c.callee.dotted
  params := c.positional
  hash := c.named

/-- **What is bound in the tag of an element**: its dynamic attributes, then its helpers. -/
def Element.bindings (e : Element) (element : Nat) : List (Binding Nat) :=
  ((e.attributes.filter (!·.isStatic)).map fun a =>
      .attribute a.quoted a.name (a.value.map Part.toValue) element) ++
    e.helpers.map fun c => .nodeHelper (c.invocation none none) element

/-- **What is bound at a mustache**: a call with operands, or a name for the runtime to tell. -/
def Mustache.binding (m : Mustache) (morph : Nat) : Binding Nat :=
  if m.call.isHelper then .helper (m.call.invocation none none) morph none
  else .ambiguous m.call.callee.dotted morph

/-- **What is bound at a block** whose nested programs are numbered from `programs` on. -/
def Block.binding (b : Block) (programs morph : Nat) : Binding Nat :=
  .helper (b.call.invocation (some programs) (b.inverse.map fun _ => programs + 1)) morph
    (some b.body.blockParams.length)

/-- The named operands of a component: its attributes. -/
def Component.named (c : Component) : List (String × Value) :=
  c.attributes.map fun a => (a.name, a.toValue)

/-- **What is bound at a component** whose nested program has number `programs`. -/
def Component.binding (c : Component) (programs morph : Nat) : Binding Nat :=
  .component { body := some programs, name := c.tag, hash := c.named } morph
    c.body.blockParams.length

/-- **What is bound at a node**, when `n` counts the numbers given out before it. -/
def Node.bindings (n : Numbers) (ν : Node) : List (Binding Nat) :=
  match ν.statement with
  | .text _ | .comment _ => []
  | .element e => e.bindings n.references
  | .mustache m => [m.binding n.morphs]
  | .block b => [b.binding n.programs n.morphs]
  | .component c => [c.binding n.programs n.morphs]

end Template

/-- **Nodes, each with how many numbers are given out before it.** -/
def numbered (o : Options) : Numbers → List Node → List (Numbers × Node)
  | _, [] => []
  | n, ν :: νs => (n, ν) :: numbered o (n.step UInt32 o (.enter ν)) νs

/-- **What a fragment binds**, in document order. -/
def Template.Fragment.bindings (o : Options) (f : Fragment) : List (Binding Nat) :=
  (numbered o {} f.nodes).flatMap fun (n, ν) => ν.bindings n

/-! ## The values of attributes -/

namespace Template

theorem Part.toValue_toExpr (p : Part) : p.toExpr.toValue = p.toValue := by
  cases p <;> rw [toExpr, Expr.toValue, toValue]

theorem map_toValue_map_toExpr (parts : List Part) :
    (parts.map Part.toExpr).map Expr.toValue = parts.map Part.toValue := by
  rw [List.map_map]
  exact List.map_congr_left fun p _ => p.toValue_toExpr

theorem Attribute.toValue_toExpr (a : Attribute) : a.toExpr.toValue = a.toValue := by
  rw [toExpr, toValue]
  rcases a.value with _ | ⟨part, _ | ⟨next, parts⟩⟩
  · change (Expr.string "" {}).toValue = _
    rw [Expr.toValue]
  · exact part.toValue_toExpr
  · rw [Expr.toValue, Call.toValue_eq, Call.positional, map_toValue_map_toExpr]
    rfl

end Template

/-! ## Phrases bind -/

/-- **A phrase that binds `b`** on an element or in a morph: its verb uses up exactly what its
operands leave. -/
def Phrase.Binds (p : Phrase UInt32) (target : Nat) (b : Binding Nat) : Prop :=
  ∃ items, p.operands.Leaves items ∧
    ∀ stack, operate (items ++ stack) (p.verb (ofNat target)) = some ([b.map ofNat], stack)

/-- **A call with its programs is taken off the stack** where its operands can be counted. -/
theorem popInvocation_of_lt {name : String} {params : List Value} {hash : List (String × Value)}
    (hp : params.length < 2 ^ 32) (hh : hash.length < 2 ^ 32) (body inverse : Option UInt32)
    (stack : List (Item UInt32)) :
    popInvocation (toNat (ofNat params.length : UInt32))
        ((callItems name params hash ++ [.programs body inverse]) ++ stack) =
      some ({ body, inverse, name, params, hash }, stack) := by
  rw [toNat_ofNat_of_lt hp, List.append_assoc]
  exact popInvocation_callItems (toNat_ofNat_of_lt hh) body inverse stack

namespace Template

/-- A call with the programs it renders. -/
theorem Call.leaves_program (c : Call) (h : c.size < 2 ^ 32) (body inverse : Option UInt32) :
    (.one (.program body inverse) ++ c.code : Code UInt32).Leaves
      (callItems c.callee.dotted c.positional c.named ++ [.programs body inverse]) :=
  (Code.leaves_one fun _ => rfl).append (c.leaves_code h)

theorem Call.popInvocation_positional (c : Call) (h : c.size < 2 ^ 32)
    (body inverse : Option UInt32) (stack : List (Item UInt32)) :
    popInvocation (toNat (ofNat c.params.length : UInt32))
        ((callItems c.callee.dotted c.positional c.named ++ [.programs body inverse]) ++ stack) =
      some ({ body, inverse, name := c.callee.dotted, params := c.positional, hash := c.named },
        stack) := by
  rw [← List.length_map Expr.toValue]
  exact popInvocation_of_lt (c.length_positional_lt.trans h) (c.length_named_lt.trans h) body
    inverse stack

theorem Attribute.binds (a : Attribute) (h : a.size < 2 ^ 32) (element : Nat) :
    a.phrase.Binds element (.attribute a.quoted a.name (a.value.map Part.toValue) element) := by
  obtain ⟨hlen, hsize⟩ := a.bounds
  have hl : (a.value.map Part.toValue).length < 2 ^ 32 := by
    rw [List.length_map]
    exact hlen.trans h
  have hp : (exprsCode (a.value.map Part.toExpr) : Code UInt32).Leaves
      (paramItems (a.value.map Part.toValue)) := by
    rw [← map_toValue_map_toExpr]
    exact leaves_exprsCode _ fun e he => (hsize e he).trans h
  refine ⟨callItems "" (a.value.map Part.toValue) [] ++ [.programs none none], ?_, fun stack => ?_⟩
  · have hn : (.one (.string "") : Code UInt32).Leaves [.name ""] := Code.leaves_one fun _ => rfl
    have hi : (callItems "" (a.value.map Part.toValue) [] ++ [.programs none none] :
        List (Item UInt32)) = [.count (ofNat 0)] ++ (paramItems (a.value.map Part.toValue) ++
          ([.name ""] ++ [.programs none none])) := by
      simp [callItems, pairItems]
    rw [hi]
    exact ((leaves_noProgram.append hn).append hp).append (leaves_countCode 0)
  · have hi : popInvocation (toNat (ofNat a.value.length : UInt32))
        ((callItems "" (a.value.map Part.toValue) [] ++ [.programs none none]) ++ stack) =
          some ({ name := "", params := a.value.map Part.toValue }, stack) := by
      rw [← List.length_map Part.toValue]
      exact popInvocation_of_lt hl (by decide) none none stack
    exact congrArg (Option.bind · _) hi

theorem Call.binds (c : Call) (h : c.size < 2 ^ 32) (element : Nat) :
    c.phrase.Binds element (.nodeHelper (c.invocation none none) element) := by
  refine ⟨_, c.leaves_program h none none, fun stack => ?_⟩
  exact congrArg (Option.bind · _) (c.popInvocation_positional h none none stack)

theorem Mustache.binds (m : Mustache) (h : m.call.size < 2 ^ 32) (morph : Nat) :
    m.phrase.Binds morph (m.binding morph) := by
  unfold Mustache.phrase Mustache.binding
  cases hc : m.call.isHelper with
  | true =>
    refine ⟨_, m.call.leaves_program h none none, fun stack => ?_⟩
    exact congrArg (Option.bind · _) (m.call.popInvocation_positional h none none stack)
  | false => exact ⟨_, m.call.callee.leaves_nameCode, fun stack => rfl⟩

theorem Block.binds (b : Block) (h : b.call.size < 2 ^ 32) (programs morph : Nat) :
    (b.phrase programs).Binds morph (b.binding programs morph) := by
  refine ⟨_, b.call.leaves_program h _ _, fun stack => ?_⟩
  refine (congrArg (Option.bind · _) (b.call.popInvocation_positional h _ _ stack)).trans ?_
  rw [Block.binding, Binding.map, Invocation.map, Call.invocation, Option.map_map]
  rfl

/-- The attributes of a component are left as its named operands. -/
theorem Component.leaves_attributesHash (c : Component)
    (h : (c.attributes.map Attribute.size).sum < 2 ^ 32) :
    ((attributesHash c.attributes).code : Code UInt32).Leaves
      (.count (ofNat c.named.length) :: pairItems c.named) := by
  have hn : (attributesHash c.attributes).pairs.map (fun p => (p.key, p.value.toValue)) =
      c.named := by
    unfold attributesHash
    rw [List.map_map]
    exact List.map_congr_left fun a _ => congrArg (Prod.mk a.name) a.toValue_toExpr
  rw [← hn, List.length_map]
  exact (leaves_pairsCode _ fun p hp => (size_le_of_mem_attributesHash hp).trans_lt h).append
    (leaves_countCode _)

theorem Component.length_named_le (c : Component) :
    c.named.length ≤ (c.attributes.map Attribute.size).sum := by
  rw [named, List.length_map]
  exact length_attributes_le c.attributes

theorem Component.binds (c : Component) (h : (c.attributes.map Attribute.size).sum < 2 ^ 32)
    (programs morph : Nat) : (c.phrase programs).Binds morph (c.binding programs morph) := by
  refine ⟨callItems c.tag [] c.named ++ [.programs (some (ofNat programs)) none], ?_,
    fun stack => ?_⟩
  · have ht : (.one (.string c.tag) : Code UInt32).Leaves [.name c.tag] :=
      Code.leaves_one fun _ => rfl
    have hi : (callItems c.tag [] c.named ++ [.programs (some (ofNat programs)) none] :
        List (Item UInt32)) = ((.count (ofNat c.named.length) :: pairItems c.named) ++
          [.name c.tag]) ++ [.programs (some (ofNat programs)) none] := by
      simp [callItems, paramItems]
    rw [hi]
    exact (Code.leaves_one fun _ => rfl).append (ht.append (c.leaves_attributesHash h))
  · have hn : c.named.length < 2 ^ 32 := c.length_named_le.trans_lt h
    exact congrArg (Option.bind · _)
      (popInvocation_of_lt (by decide) hn (some (ofNat programs)) none stack)

end Template

/-! ## Streams bind -/

namespace Opcode

/-- The instruction works on the stack of operands. -/
def isActive {ι : Type} (op : Opcode ι) : Bool := op.isOperand || op.isVerb

theorem operate_of_not_isActive {op : Opcode UInt32} (h : op.isActive = false)
    (stack : List (Item UInt32)) : operate stack op = some ([], stack) := by
  cases op <;> first | rfl | exact absurd h Bool.false_ne_true.symm

end Opcode

section

variable {ops rest : List (Opcode UInt32)}

/-- **Only what works on the stack is seen.** -/
theorem run_filter_isActive (stack : List (Item UInt32)) (ops : List (Opcode UInt32)) :
    run operate stack (ops.filter Opcode.isActive) = run operate stack ops :=
  run_filter (fun stack _ h => Opcode.operate_of_not_isActive h stack) stack ops

theorem run_idle_append (h : ∀ op ∈ ops, op.isActive = false) (stack : List (Item UInt32)) :
    run operate stack (ops ++ rest) = run operate stack rest := by
  have hf : ops.filter Opcode.isActive = [] :=
    List.filter_eq_nil_iff.mpr fun op hop => Bool.eq_false_iff.mp (h op hop)
  rw [← run_filter_isActive stack (ops ++ rest), List.filter_append, hf, List.nil_append,
    run_filter_isActive]

/-- **Moving morphs up does not change what is bound.** -/
theorem run_hoist (stack : List (Item UInt32)) (ops : List (Opcode UInt32)) :
    run operate stack (hoist ops) = run operate stack ops := by
  have hm : ∀ op : Opcode UInt32, op.isActive → op.isMorph = false := by
    intro op h
    cases op <;> first | rfl | exact absurd h Bool.false_ne_true
  rw [← run_filter_isActive stack (hoist ops), ← run_filter_isActive stack ops, hoist,
    filter_hoistBy hm]

end

theorem run_phrase {p : Phrase UInt32} {target : Nat} {b : Binding Nat} (hb : p.Binds target b)
    (hv : p.operands.violation? = none) (stack : List (Item UInt32)) :
    run operate stack (p.opcodes (ofNat target)) = some ([b.map ofNat], stack) := by
  obtain ⟨items, hl, ho⟩ := hb
  refine run_append.mpr ⟨[], _, _, hl hv stack, ?_, rfl⟩
  exact run_cons.mpr ⟨_, _, [], ho stack, rfl, rfl⟩

/-- **Phrases on an element give their bindings**; that it is referred to in between does not
matter. -/
theorem run_bindings {ps : List (Phrase UInt32)} {bs : List (Binding Nat)} {element : Nat}
    (hb : List.Forall₂ (·.Binds element ·) ps bs) (hv : ∀ p ∈ ps, p.operands.violation? = none)
    (referenced : Bool) (stack : List (Item UInt32)) :
    run operate stack (bindings (ofNat element) referenced ps) =
      some (bs.map (Binding.map ofNat), stack) := by
  induction hb generalizing referenced with
  | nil => rfl
  | @cons p b ps bs hb _ ih =>
    obtain ⟨items, hl, ho⟩ := hb
    have hr := ih (fun q hq => hv q (List.mem_cons_of_mem p hq)) true
    have hi : ∀ op ∈ (if referenced then [] else [Opcode.element (ofNat element : UInt32)]),
        op.isActive = false := by
      cases referenced <;> simp [Opcode.isActive, Opcode.isOperand, Opcode.isVerb]
    -- The reference stands between the operands and their verb, where the stack is not empty.
    rw [bindings, List.append_assoc, List.append_assoc]
    refine run_append.mpr ⟨[], _, _, hl (hv p List.mem_cons_self) stack, ?_, rfl⟩
    rw [run_idle_append hi]
    exact run_cons.mpr ⟨_, _, _, ho stack, hr, rfl⟩

namespace Template

/-- The phrases of a tag bind what is bound there. -/
theorem Element.binds {e : Element} (h : (Statement.element e).size < 2 ^ 32) (element : Nat) :
    List.Forall₂ (·.Binds element ·) e.phrases (e.bindings element) := by
  refine List.rel_append ?_ ?_
  · rw [List.forall₂_map_left_iff, List.forall₂_map_right_iff, List.forall₂_same]
    intro a ha
    exact a.binds ((size_lt_of_mem_attributes (List.mem_of_mem_filter ha)).trans h) element
  · rw [List.forall₂_map_left_iff, List.forall₂_map_right_iff, List.forall₂_same]
    exact fun c hc => c.binds ((size_lt_of_mem_helpers hc).trans h) element

/-- The phrase of a dynamic node binds what is bound there. -/
theorem Node.binds {n : Numbers} {ν : Node} {p : Phrase UInt32}
    (hp : ν.statement.phrase? n.programs = some p) (h : ν.statement.size < 2 ^ 32) :
    ∃ b, ν.bindings n = [b] ∧ p.Binds n.morphs b := by
  obtain ⟨path, index, siblings, s⟩ := ν
  cases s with
  | text _ | comment _ | element _ => exact absurd hp (by simp [Statement.phrase?])
  | mustache m =>
    obtain rfl := Option.some.inj hp
    simp only [Statement.size] at h
    exact ⟨_, rfl, m.binds (by omega) _⟩
  | block b =>
    obtain rfl := Option.some.inj hp
    simp only [Statement.size] at h
    exact ⟨_, rfl, b.binds (by omega) _ _⟩
  | component c =>
    obtain rfl := Option.some.inj hp
    simp only [Statement.size] at h
    exact ⟨_, rfl, c.binds (by omega) _ _⟩

/-- What is written around the phrases in a tag does not bind anything. -/
theorem Node.run_tag (o : Options) (n : Numbers) (ν : Node) {e : Element}
    (hv : (Statement.element e).violations = []) (h : (Statement.element e).size < 2 ^ 32)
    (stack : List (Item UInt32)) :
    run operate stack (ν.tag o n e) =
      some ((e.bindings n.references).map (Binding.map ofNat), stack) := by
  have hi : ∀ op ∈
      (if ν.isEager UInt32 o then [Opcode.element (ofNat n.references : UInt32)] else []) ++
        Assembler.repair o (blanks e.children) e.isChecked, op.isActive = false := by
    intro op hop
    rcases List.mem_append.mp hop with hop | hop
    · split at hop
      · rw [List.mem_singleton.mp hop]
        rfl
      · exact absurd hop List.not_mem_nil
    · obtain ⟨_, _, rfl⟩ := eq_of_mem_repair hop
      rfl
  rw [Node.tag, run_idle_append hi]
  exact run_bindings (e.binds h n.references) (fun _ => violation?_of_mem_phrases hv) _ stack

/-- **Entering a node gives its bindings** and leaves the stack as it was. -/
theorem Node.run_opening (o : Options) (n : Numbers) {ν : Node}
    (hv : ν.statement.violations = []) (h : ν.statement.size < 2 ^ 32)
    (stack : List (Item UInt32)) :
    run operate stack (ν.opening o n) = some ((ν.bindings n).map (Binding.map ofNat), stack) := by
  rcases ν.statement.trichotomy (ι := UInt32) n.programs with ⟨e, he⟩ | ⟨hs, hd⟩ | ⟨-, -, p, hp⟩
  · rw [he] at hv h
    have hi : ∀ op ∈ (if ν.isSole then [] else [Opcode.consumeParent (ofNat ν.index : UInt32)]),
        op.isActive = false := by
      intro op hop
      split at hop
      · exact absurd hop List.not_mem_nil
      · rw [List.mem_singleton.mp hop]
        rfl
    rw [Node.opening, Node.bindings, he, run_idle_append hi]
    exact ν.run_tag o n hv h stack
  · have hb : ν.bindings n = [] := by
      obtain ⟨path, index, siblings, s⟩ := ν
      cases s with
      | text _ | comment _ => rfl
      | element _ => exact absurd hs (by simp [Statement.isElement])
      | mustache _ | block _ | component _ => exact absurd hd (by simp [Statement.isDynamic])
    rw [Node.opening_of_static o n hs hd, hb]
    rfl
  · obtain ⟨b, hb, hbinds⟩ := Node.binds hp h
    rw [Node.opening_of_phrase o hp, hb]
    exact run_cons.mpr ⟨[], stack, _, rfl,
      run_phrase hbinds (violation?_of_phrase n.programs hv hp) stack, rfl⟩

end Template

/-- **A walk gives the bindings of the nodes it enters**, and leaves the stack as it was. -/
theorem run_stream (o : Options) {n : Numbers} {vs : List Visit}
    (h : ∀ ν, .enter ν ∈ vs → ν.statement.violations = [] ∧ ν.statement.size < 2 ^ 32)
    (stack : List (Item UInt32)) :
    run operate stack (stream o n vs) =
      some (((numbered o n (vs.filterMap Visit.entered?)).flatMap fun (n, ν) =>
        ν.bindings n).map (Binding.map ofNat), stack) := by
  induction vs generalizing n with
  | nil => rfl
  | cons v vs ih =>
    have hr := ih (n := n.step UInt32 o v) fun ν hν => h ν (List.mem_cons_of_mem v hν)
    cases v with
    | enter ν =>
      obtain ⟨hv, hs⟩ := h ν List.mem_cons_self
      refine run_append.mpr ⟨_, _, _, ν.run_opening o n hv hs stack, hr, ?_⟩
      have he : (Visit.enter ν :: vs).filterMap Visit.entered? =
        ν :: vs.filterMap Visit.entered? := rfl
      rw [he, numbered, List.flatMap_cons, List.map_append]
    | leave ν =>
      have hi : ∀ op ∈ (ν.closing : List (Opcode UInt32)), op.isActive = false := by
        intro op hop
        rw [eq_popParent_of_mem_closing hop]
        rfl
      rw [List.filterMap_cons_none rfl]
      exact (run_idle_append hi stack).trans hr

/-- **The stream of a fragment gives its bindings** and leaves nothing on the stack. -/
theorem run_fragment (o : Options) {f : Fragment} (hv : f.violations = []) (hf : f.size < 2 ^ 32) :
    run operate [] (hoist (f.stream o)) =
      some ((f.bindings o).map (Binding.map (ofNat : Nat → UInt32)), []) := by
  have hh : ∀ op ∈ (f.header o : List (Opcode UInt32)), op.isActive = false :=
    fun op => forall_mem_header (P := fun op => op.isActive = false) (fun _ _ => rfl) fun _ _ => rfl
  have hs : ∀ ν, .enter ν ∈ f.visits → ν.statement.violations = [] ∧ ν.statement.size < 2 ^ 32 :=
    fun ν hν => ⟨violations_of_mem_nodes hv (mem_nodes_of_enter hν),
      (statement_size_lt (mem_nodes_of_enter hν)).trans hf⟩
  rw [run_hoist, Fragment.stream, run_idle_append hh, run_stream o hs, Fragment.visits,
    entered_visits]
  rfl

/-! ## Numbers that fit -/

/-- No more than `k` numbers of each kind are given out. -/
def Numbers.Below (n : Numbers) (k : Nat) : Prop :=
  n.morphs ≤ k ∧ n.references ≤ k ∧ n.programs ≤ k

theorem Template.Statement.length_nested_le (s : Statement) : s.nested.length ≤ s.size := by
  cases s with
  | text _ | comment _ | element _ | mustache _ => exact Nat.zero_le _
  | block b =>
    have hl := List.length_le_sum_of_one_le ((b.body :: b.inverse.toList).map Fragment.size) (by
      intro n hn
      obtain ⟨g, -, rfl⟩ := List.mem_map.mp hn
      rw [g.size_eq]
      omega)
    rw [List.length_map] at hl
    rw [Statement.nested, Statement.size]
    omega
  | component c =>
    rw [Statement.nested, Statement.size, List.length_singleton]
    omega

/-- **A node gives out no more numbers than it has nodes.** -/
theorem Numbers.Below.step {n : Numbers} {k : Nat} (h : n.Below k) (o : Options) (ν : Node) :
    (n.step UInt32 o (.enter ν)).Below (k + ν.statement.size) := by
  obtain ⟨hm, hr, hp⟩ := h
  have hs := ν.statement.size_pos
  have hn := ν.statement.length_nested_le
  have hd := Bool.toNat_le ν.statement.isDynamic
  have he := Bool.toNat_le (ν.isReferenced UInt32 o)
  exact ⟨by simp only [Numbers.step]; omega, by simp only [Numbers.step]; omega,
    by simp only [Numbers.step]; omega⟩

/-- The numbers before a node, together with the node itself, are within the nodes counted. -/
theorem below_of_mem_numbered {o : Options} {n : Numbers} {k : Nat} (h : n.Below k)
    {νs : List Node} {m : Numbers} {ν : Node} (hm : (m, ν) ∈ numbered o n νs) :
    ∃ j, m.Below j ∧ j + ν.statement.size ≤ k + (νs.map (·.statement.size)).sum := by
  induction νs generalizing n k with
  | nil => exact absurd hm List.not_mem_nil
  | cons μ νs ih =>
    rw [List.map_cons, List.sum_cons]
    rcases List.mem_cons.mp hm with he | hm
    · obtain ⟨rfl, rfl⟩ := Prod.mk.inj he
      exact ⟨k, h, by omega⟩
    · obtain ⟨j, hj, hs⟩ := ih (h.step o μ) hm
      exact ⟨j, hj, by omega⟩

/-- **The numbers in a binding are read back** where they fit. -/
theorem Template.Node.map_toNat_of_mem_bindings {n : Numbers} {k : Nat} (hn : n.Below k) {ν : Node}
    (hk : k + ν.statement.size < 2 ^ 32) {b : Binding Nat} (hb : b ∈ ν.bindings n) :
    (b.map (ofNat : Nat → UInt32)).map Counter.toNat = b := by
  obtain ⟨hm, hr, hp⟩ := hn
  have hpos := ν.statement.size_pos
  have morph : toNat (ofNat n.morphs : UInt32) = n.morphs := toNat_ofNat_of_lt (by omega)
  have reference : toNat (ofNat n.references : UInt32) = n.references :=
    toNat_ofNat_of_lt (by omega)
  have program : toNat (ofNat n.programs : UInt32) = n.programs := toNat_ofNat_of_lt (by omega)
  have inverse : toNat (ofNat (n.programs + 1) : UInt32) = n.programs + 1 :=
    toNat_ofNat_of_lt (by omega)
  have params : ∀ g ∈ ν.statement.nested,
      toNat (ofNat g.blockParams.length : UInt32) = g.blockParams.length := by
    intro g hg
    have hs := size_le_of_mem_statement hg
    have hg := g.size_eq
    exact toNat_ofNat_of_lt (by omega)
  obtain ⟨path, index, siblings, s⟩ := ν
  cases s with
  | text _ | comment _ => exact absurd hb List.not_mem_nil
  | element e =>
    rcases List.mem_append.mp hb with hb | hb
    · obtain ⟨a, -, rfl⟩ := List.mem_map.mp hb
      rw [Binding.map, Binding.map, reference]
    · obtain ⟨c, -, rfl⟩ := List.mem_map.mp hb
      rw [Binding.map, Binding.map, reference]
      rfl
  | mustache m =>
    rw [List.mem_singleton.mp hb, Mustache.binding]
    split
    · rw [Binding.map, Binding.map, morph]
      rfl
    · rw [Binding.map, Binding.map, morph]
  | block b =>
    have hl := params b.body List.mem_cons_self
    rw [List.mem_singleton.mp hb, Block.binding]
    cases hi : b.inverse <;>
      simp [Binding.map, Invocation.map, Call.invocation, morph, program, inverse, hl]
  | component c =>
    have hl := params c.body List.mem_cons_self
    rw [List.mem_singleton.mp hb, Component.binding]
    simp [Binding.map, Invocation.map, morph, program, hl]

/-- **The numbers in the bindings of a fragment are read back** where they fit. -/
theorem map_toNat_bindings (o : Options) {f : Fragment} (hf : f.size < 2 ^ 32) :
    ((f.bindings o).map (Binding.map (ofNat : Nat → UInt32))).map (Binding.map Counter.toNat) =
      f.bindings o := by
  rw [List.map_map]
  refine (List.map_congr_left fun b hb => ?_).trans (List.map_id _)
  obtain ⟨⟨n, ν⟩, hm, hb⟩ := List.mem_flatMap.mp hb
  have h0 : Numbers.Below {} 0 := ⟨Nat.le_refl 0, Nat.le_refl 0, Nat.le_refl 0⟩
  obtain ⟨k, hk, hs⟩ := below_of_mem_numbered h0 hm
  rw [Fragment.nodes, ← sizeIn_eq_sum] at hs
  have hf' := f.size_eq
  exact Node.map_toNat_of_mem_bindings hk (by omega) hb

/-! ## Programs -/

/-- **The stream of a program gives the bindings of its fragment**: the machine does not get stuck,
and nothing is left on the stack. -/
def Decodes (o : Options) (f : Fragment) (p : Program UInt32) : Prop :=
  ∃ out, run operate [] p.opcodes = some (out, []) ∧
    out.map (Binding.map Counter.toNat) = f.bindings o

/-- **The operands in a program are those of its template**: reading its stream gives what the
template binds, in document order, and so does that of every program nested in it. -/
theorem program_decodes {t : Template} {o : Options} {p : Program UInt32}
    (hs : t.root.size < 2 ^ 32) (h : t.program o = .ok p) : Throughout (Decodes o) t.root p := by
  refine throughout_of_program (H := fun f => f.size < 2 ^ 32) ?_ ?_ h hs
  · intro f g hf hg
    exact (size_lt_of_mem_nested hg).trans hf
  · intro f hv hf
    exact ⟨_, run_fragment o hv hf, map_toNat_bindings o hf⟩

theorem program_decodes_roster :
    Template.roster.root.size < 2 ^ 32 ∧ ∃ p, Template.roster.program {} = .ok p ∧
      Throughout (Decodes {}) Template.roster.root p := by
  have hs : Template.roster.root.size < 2 ^ 32 := by decide +kernel
  obtain ⟨p, hp⟩ := roster_compiles
  exact ⟨hs, p, hp, program_decodes hs hp⟩

end Hydration
