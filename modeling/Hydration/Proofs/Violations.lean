import Hydration.Compiler
import Hydration.Proofs.Steps

/-!
# Proofs/Violations — what a fragment is refused for

`Fragment.violations` lists everything that is wrong with a fragment and with the fragments nested
in it, in the order in which a walk comes to it. Where the walk stops depends on that list alone and
not on the state it is in: `Stops x v?` says that a step stops at `v?` from every state,
`Stops.bind` that of two steps in a row the first to stop decides. So a fragment compiles exactly
when its list is empty (`compile_eq_ok_iff`).

* `program_refused_for_first`: a template has a program exactly when nothing is wrong with it, and
  is otherwise refused with the report of the first violation in its list.
-/

namespace Hydration.Template

/-! ## The list -/

/-- **The violation of a path**: a segment is empty. However many are, it is one violation. -/
def Path.violations (p : Path) : List Violation :=
  if "" ∈ p.segments then [⟨.emptySegment p.dotted, p.span⟩] else []

/-- The violation of a named operand without a name. -/
def nameViolation? (name : String) (span : Span) : Option Violation :=
  if name = "" then some ⟨.emptyKey, span⟩ else none

mutual

/-- **The violations of an expression.** -/
def Expr.violations : Expr → List Violation
  | .path p => p.violations
  | .sub c => c.violations
  | .string .. | .number .. | .boolean .. => []

/-- **The violations of a call**: of its name, its positional operands, its named operands. -/
def Call.violations : Call → List Violation
  | ⟨callee, params, hash, _⟩ =>
    callee.violations ++ exprsViolations params ++
      match hash with
      | none => []
      | some ⟨pairs, _⟩ => pairsViolations pairs

/-- The violations of expressions in order. -/
def exprsViolations : List Expr → List Violation
  | [] => []
  | e :: es => e.violations ++ exprsViolations es

/-- The violations of named operands in order, of a name before its value. -/
def pairsViolations : List Pair → List Violation
  | [] => []
  | ⟨key, value, span⟩ :: pairs =>
    (nameViolation? key span).toList ++ value.violations ++ pairsViolations pairs

end

/-- The violations of a piece of an attribute value. -/
def Part.violations : Part → List Violation
  | .text _ => []
  | .path p => p.violations
  | .sub c => c.violations

/-- The violations of an attribute value. -/
def Attribute.violations (a : Attribute) : List Violation := a.value.flatMap Part.violations

/-- The violation of a component without a tag. -/
def tagViolation? (tag : String) (span : Span) : Option Violation :=
  if tag = "" then some ⟨.emptyTag, span⟩ else none

mutual

/-- **The violations of a fragment**, those of nested fragments included. -/
def Fragment.violations : Fragment → List Violation
  | ⟨body, _, _⟩ => violationsIn body

/-- The violations of statements in order. -/
def violationsIn : List Statement → List Violation
  | [] => []
  | .text _ :: rest => violationsIn rest
  | .comment _ :: rest => violationsIn rest
  | .element ⟨_, attributes, helpers, children, _⟩ :: rest =>
    attributes.flatMap Attribute.violations ++ helpers.flatMap Call.violations ++
      violationsIn children ++ violationsIn rest
  | .mustache m :: rest => m.call.violations ++ violationsIn rest
  | .block ⟨call, body, none, _⟩ :: rest => body.violations ++ call.violations ++ violationsIn rest
  | .block ⟨call, body, some inverse, _⟩ :: rest =>
    body.violations ++ inverse.violations ++ call.violations ++ violationsIn rest
  | .component ⟨tag, attributes, body, span⟩ :: rest =>
    body.violations ++ (tagViolation? tag span).toList ++
      attributes.flatMap (fun a => (nameViolation? a.name a.span).toList ++ a.violations) ++
      violationsIn rest

end

/-- The violations of a statement that are not inside its children. -/
def Statement.violations : Statement → List Violation
  | .text _ | .comment _ => []
  | .element e => e.attributes.flatMap Attribute.violations ++ e.helpers.flatMap Call.violations
  | .mustache m => m.call.violations
  | .block b =>
    b.body.violations ++ b.inverse.toList.flatMap Fragment.violations ++ b.call.violations
  | .component c =>
    c.body.violations ++ (tagViolation? c.tag c.span).toList ++
      c.attributes.flatMap fun a => (nameViolation? a.name a.span).toList ++ a.violations

/-- **What the code of a path checks for is what is listed.** -/
theorem Path.violations_eq (p : Path) : p.violations = p.violation?.toList := by
  have hb : "" ∈ p.segments ↔ p.isBroken := by simp [isBroken]
  rw [violations, violation?, if_congr hb rfl rfl]
  split <;> rfl

/-- …and so it is with the code of named operands. -/
theorem nameViolation?_eq (name : String) (span : Span) :
    nameViolation? name span = keyViolation? name span := rfl

theorem violationsIn_nil : violationsIn [] = [] := by rw [violationsIn]

/-- **A statement's own violations, those inside it, those behind it.** -/
theorem violationsIn_cons (s : Statement) (rest : List Statement) :
    violationsIn (s :: rest) = s.violations ++ (violationsIn s.children ++ violationsIn rest) := by
  rcases s with t | c | ⟨tag, attributes, helpers, children, span⟩ | m |
    ⟨call, body, inverse, span⟩ | ⟨tag, attributes, body, span⟩
  case block =>
    cases inverse <;> rw [violationsIn] <;>
      simp [Statement.violations, Statement.children, violationsIn_nil]
  all_goals
    rw [violationsIn]
    simp [Statement.violations, Statement.children, violationsIn_nil]

theorem Fragment.violations_eq (f : Fragment) : f.violations = violationsIn f.body := by
  obtain ⟨body, params, span⟩ := f
  rw [violations]

/-! ## Operand code stops at the first violation -/

variable {ι : Type}

@[simp] theorem violation?_append (c d : Code ι) :
    (c ++ d).violation? = c.violation?.or d.violation? := by
  cases h : c.violation? with
  | none => rw [Code.append_of_none h, Option.none_or]
  | some v => rw [Code.append_of_violation h, h, Option.some_or]

theorem Path.violation?_nameCode (p : Path) :
    (p.nameCode : Code ι).violation? = p.violations.head? := by
  rw [nameCode, violation?_append, violations_eq, Option.head?_toList]
  exact Option.or_none

theorem Path.violation?_code (p : Path) : (p.code : Code ι).violation? = p.violations.head? := by
  rw [code, violation?_append, violations_eq, Option.head?_toList]
  exact Option.or_none

variable [Counter ι]

mutual

/-- **The code of an expression stops at its first violation.** -/
theorem Expr.violation?_code (e : Expr) :
    (e.code : Code ι).violation? = e.violations.head? := by
  match e with
  | .path p => rw [Expr.code, Expr.violations, p.violation?_code]
  | .sub c =>
    rw [Expr.code, Expr.violations, violation?_append, violation?_append, c.violation?_code]
    change (Option.none.or _).or none = _
    rw [Option.none_or, Option.or_none]
  | .string .. | .number .. | .boolean .. => rw [Expr.code, Expr.violations]; rfl

/-- **The code of a call stops at its first violation.** -/
theorem Call.violation?_code (c : Call) :
    (c.code : Code ι).violation? = c.violations.head? := by
  match c with
  | ⟨callee, params, none, _⟩ =>
    rw [Call.code, Call.violations, violation?_append, violation?_append,
      callee.violation?_nameCode, exprsViolation?_code, List.head?_append, List.head?_append]
    rfl
  | ⟨callee, params, some ⟨pairs, _⟩, _⟩ =>
    rw [Call.code, Call.violations, violation?_append, violation?_append, violation?_append,
      callee.violation?_nameCode, exprsViolation?_code, pairsViolation?_code, List.head?_append,
      List.head?_append]
    exact congrArg _ Option.or_none

theorem exprsViolation?_code (es : List Expr) :
    (exprsCode es : Code ι).violation? = (exprsViolations es).head? := by
  match es with
  | [] => rw [exprsCode, exprsViolations]; rfl
  | e :: es =>
    rw [exprsCode, exprsViolations, violation?_append, e.violation?_code, exprsViolation?_code,
      List.head?_append]

theorem pairsViolation?_code (pairs : List Pair) :
    (pairsCode pairs : Code ι).violation? = (pairsViolations pairs).head? := by
  match pairs with
  | [] => rw [pairsCode, pairsViolations]; rfl
  | ⟨key, value, span⟩ :: pairs =>
    rw [pairsCode, pairsViolations, violation?_append, violation?_append, violation?_append,
      value.violation?_code, pairsViolation?_code, List.head?_append, List.head?_append,
      Option.head?_toList, nameViolation?_eq]
    exact congrArg (Option.or · _) Option.or_none

end

/-- A call that renders nothing. -/
theorem Call.violation?_noProgram (c : Call) :
    (noProgram ++ c.code : Code ι).violation? = c.violations.head? := by
  rw [violation?_append, c.violation?_code]
  exact Option.none_or

/-- Without operands, only the name can be wrong. -/
theorem Call.violations_of_not_isHelper {c : Call} (h : c.isHelper = false) :
    c.violations = c.callee.violations := by
  obtain ⟨callee, params, hash, span⟩ := c
  obtain ⟨rfl, rfl⟩ : params = [] ∧ hash = none := by
    simpa [isHelper] using h
  rw [violations, exprsViolations, List.append_nil, List.append_nil]

theorem exprsViolations_eq_flatMap (es : List Expr) :
    exprsViolations es = es.flatMap Expr.violations := by
  induction es with
  | nil => rw [exprsViolations, List.flatMap_nil]
  | cons e es ih => rw [exprsViolations, List.flatMap_cons, ih]

/-! ### Attributes -/

theorem Part.violations_toExpr (p : Part) : p.toExpr.violations = p.violations := by
  cases p <;> rw [Part.toExpr, Expr.violations, Part.violations]

theorem exprsViolations_map_toExpr (parts : List Part) :
    exprsViolations (parts.map Part.toExpr) = parts.flatMap Part.violations := by
  rw [exprsViolations_eq_flatMap, List.flatMap_map]
  simp only [Part.violations_toExpr]

/-- Joining the pieces of a value adds no violation of its own. -/
theorem Attribute.violations_toExpr (a : Attribute) : a.toExpr.violations = a.violations := by
  rw [toExpr, violations]
  split
  next h => rw [h, Expr.violations, List.flatMap_nil]
  next part h => rw [h, part.violations_toExpr, List.flatMap_singleton]
  next =>
    have hc : Path.violations ⟨["concat"], a.span⟩ = [] := if_neg (by simp)
    rw [Expr.violations, Call.violations, exprsViolations_map_toExpr, hc, List.nil_append,
      List.append_nil]

theorem Attribute.violation?_code (a : Attribute) :
    (a.code : Code ι).violation? = a.violations.head? := by
  rw [code, violations, violation?_append, violation?_append, violation?_append,
    exprsViolation?_code, exprsViolations_map_toExpr]
  exact Option.or_none

/-- Plain text cannot be ill formed. -/
theorem Attribute.violations_of_isStatic {a : Attribute} (h : a.isStatic) : a.violations = [] := by
  rw [violations, List.flatMap_eq_nil_iff]
  intro part hp
  cases part with
  | text t => rfl
  | path p => exact absurd (List.all_eq_true.mp h _ hp) (by simp [Part.isText])
  | sub c => exact absurd (List.all_eq_true.mp h _ hp) (by simp [Part.isText])

/-- The attributes of a component stop at the first without a name or with an ill-formed value. -/
theorem violation?_attributesHash (tag : String) (attributes : List Attribute) :
    (.one (.string tag) ++ (attributesHash attributes).code : Code ι).violation? =
      (attributes.flatMap fun a =>
        (nameViolation? a.name a.span).toList ++ a.violations).head? := by
  rw [violation?_append, Hash.code, violation?_append, pairsViolation?_code]
  refine (Option.none_or.trans Option.or_none).trans (congrArg List.head? ?_)
  change pairsViolations (attributes.map _) = _
  induction attributes with
  | nil => rw [List.map_nil, pairsViolations, List.flatMap_nil]
  | cons a attributes ih =>
    rw [List.map_cons, pairsViolations, ih, a.violations_toExpr, List.flatMap_cons]

end Hydration.Template

/-! ## Steps stop at a violation or not at all -/

namespace Hydration

open Template

variable {ι : Type} {α β : Type}

/-- The violation a finished step stopped at. -/
def fault? : EStateM.Result Violation (Assembler ι) α → Option Violation
  | .ok _ _ => none
  | .error v _ => some v

/-- **A step that stops at `v?` from every state**, or from none. -/
def Stops (x : Assemble ι α) (v? : Option Violation) : Prop := ∀ e, fault? (x e) = v?

namespace Stops

variable {x : Assemble ι α} {f : α → Assemble ι β} {v? w? : Option Violation}

/-- **The first of two steps to stop decides.** -/
theorem bind (hx : Stops x v?) (hf : ∀ a, Stops (f a) w?) : Stops (x >>= f) (v?.or w?) := by
  intro e
  have h := hx e
  change fault? (EStateM.bind x f e) = _
  unfold EStateM.bind
  cases hr : x e with
  | ok a e' =>
    rw [hr] at h
    obtain rfl : none = v? := h
    exact (hf a e').trans Option.none_or.symm
  | error v e' =>
    rw [hr] at h
    obtain rfl : some v = v? := h
    rfl

/-- A step that never stops leaves the decision to what follows. -/
theorem seq (hx : Stops x none) (hf : ∀ a, Stops (f a) w?) : Stops (x >>= f) w? := by
  simpa using hx.bind hf

/-- …and one followed by such steps decides alone. -/
theorem andThen (hx : Stops x v?) (hf : ∀ a, Stops (f a) none) : Stops (x >>= f) v? := by
  simpa using hx.bind hf

end Stops

theorem stops_pure (a : α) : Stops (pure a : Assemble ι α) none := fun _ => rfl

theorem stops_modify (g : Assembler ι → Assembler ι) : Stops (modify g : Assemble ι PUnit) none :=
  fun _ => rfl

theorem stops_modifyGet (g : Assembler ι → α × Assembler ι) :
    Stops (modifyGet g : Assemble ι α) none := fun _ => rfl

theorem stops_forM {g : β → Assemble ι PUnit} {v : β → List Violation}
    {bs : List β} (hg : ∀ b ∈ bs, Stops (g b) (v b).head?) :
    Stops (bs.forM g) (bs.flatMap v).head? := by
  induction bs with
  | nil => exact stops_pure _
  | cons b bs ih =>
    rw [List.flatMap_cons, List.head?_append]
    exact (hg b List.mem_cons_self).bind fun _ => ih fun c hc => hg c (List.mem_cons_of_mem b hc)

namespace Assembler

theorem stops_push (op : Opcode ι) : Stops (push op) none := stops_modify _

theorem stops_write (code : Code ι) : Stops (write code) code.violation? := by
  refine (stops_modify _).seq fun _ e => ?_
  cases code.violation? <;> rfl

theorem stops_flush : Stops (flush : Assemble ι Unit) none := stops_modify _

theorem stops_forM_push (ops : List (Opcode ι)) : Stops (ops.forM push) none := by
  have h := stops_forM (v := fun _ => []) fun op (_ : op ∈ ops) => stops_push op
  rwa [List.flatMap_eq_nil_iff.mpr fun _ _ => rfl] at h

theorem stops_endElement (single : Bool) : Stops (endElement single : Assemble ι Unit) none := by
  rw [endElement_eq]
  refine stops_flush.seq fun _ => Stops.seq ?_ fun _ => stops_modify _
  cases single
  · exact stops_push _
  · exact stops_pure _

variable [Counter ι]

theorem stops_visit : Stops (visit : Assemble ι ι) none := stops_modifyGet _

theorem stops_reference : Stops (reference : Assemble ι ι) none := by
  intro e
  obtain ⟨tape, children, cursor, reference?, unreferenced, events⟩ := e
  cases reference? <;> cases unreferenced <;> rfl

theorem stops_addChild (p : Program ι) : Stops (addChild p) none := stops_modifyGet _

theorem stops_place (index length : Nat) (escaped : Bool) :
    Stops (place index length escaped : Assemble ι ι) none :=
  stops_visit.seq fun _ => stops_modifyGet _

theorem stops_pass : Stops (pass : Assemble ι Unit) none := fun _ => rfl

theorem stops_setAttribute (a : Attribute) :
    Stops (setAttribute a : Assemble ι Unit) a.violations.head? := by
  unfold setAttribute
  cases h : a.isStatic with
  | true =>
    rw [Attribute.violations_of_isStatic h]
    exact stops_pure _
  | false =>
    rw [← a.violation?_code (ι := ι)]
    exact (stops_write _).andThen fun _ => stops_reference.seq fun _ => stops_push _

theorem stops_nodeHelper (c : Call) :
    Stops (nodeHelper c : Assemble ι Unit) c.violations.head? := by
  rw [← c.violation?_noProgram (ι := ι)]
  exact (stops_write _).andThen fun _ => stops_reference.seq fun _ => stops_push _

theorem stops_arrive (o : Options) (single : Bool) (uses index : ι) :
    Stops (arrive o single uses index) none := by
  unfold arrive
  cases single with
  | true => exact stops_pure _
  | false =>
    refine (stops_push _).seq fun _ => ?_
    split
    · exact stops_reference.seq fun _ => stops_pure _
    · exact stops_pure _

theorem stops_startElement (o : Options) (e : Element) (single : Bool) (uses : ι)
    (blanks : List ι) :
    Stops (startElement o e single uses blanks) (Statement.element e).violations.head? := by
  rw [startElement_eq, Statement.violations, List.head?_append]
  exact stops_flush.seq fun _ => stops_visit.seq fun _ => (stops_modify _).seq fun _ =>
    (stops_arrive _ _ _ _).seq fun _ => (stops_forM_push _).seq fun _ =>
      (stops_modify _).seq fun _ => (stops_forM fun a _ => stops_setAttribute a).bind fun _ =>
        stops_forM fun c _ => stops_nodeHelper c

theorem stops_mustache (m : Mustache) (index length : Nat) :
    Stops (mustache m index length : Assemble ι Unit) m.call.violations.head? := by
  refine (stops_place _ _ _).seq fun morph => ?_
  split
  next =>
    rw [← m.call.violation?_noProgram (ι := ι)]
    exact (stops_write _).andThen fun _ => stops_push _
  next h =>
    rw [Call.violations_of_not_isHelper (Bool.eq_false_iff.mpr h),
      ← m.call.callee.violation?_nameCode (ι := ι)]
    exact (stops_write _).andThen fun _ => stops_push _

theorem stops_block (b : Block) (index length : Nat) (body : Program ι)
    (inverse : Option (Program ι)) :
    Stops (block b index length body inverse) b.call.violations.head? := by
  refine (stops_place _ _ _).seq fun _ => (stops_addChild _).seq fun _ => Stops.seq ?_ fun _ =>
    (stops_push _).seq fun _ => ?_
  · cases inverse with
    | none => exact stops_pure _
    | some p => exact (stops_addChild p).seq fun _ => stops_pure _
  · rw [← b.call.violation?_code (ι := ι)]
    exact (stops_write _).andThen fun _ => stops_push _

theorem stops_component (c : Component) (index length : Nat) (body : Program ι) :
    Stops (component c index length body) ((tagViolation? c.tag c.span).toList ++
      c.attributes.flatMap fun a =>
        (nameViolation? a.name a.span).toList ++ a.violations).head? := by
  rw [component_eq, List.head?_append, Option.head?_toList]
  refine Stops.bind ?_ fun _ => (stops_place _ _ _).seq fun _ => (stops_addChild _).seq fun _ =>
    (stops_push _).seq fun _ => ?_
  · unfold requireTag tagViolation?
    split
    · exact fun _ => rfl
    · exact stops_pure _
  · rw [← violation?_attributesHash (ι := ι) c.tag]
    exact (stops_write _).andThen fun _ => stops_push _

end Assembler

/-! ## Walks and compiled fragments -/

open Assembler

/-- The violation a fragment was refused for. -/
def Compiled.fault? (c : Compiled ι) : Option Violation :=
  match c.result with
  | .ok _ => none
  | .error v => some v

theorem stops_absorb (c : Compiled ι) : Stops c.absorb c.fault? := by
  refine (stops_modify _).seq fun _ => ?_
  unfold Compiled.fault?
  cases c.result with
  | ok p => exact fun _ => rfl
  | error v => exact fun _ => rfl

theorem fault?_run {steps : Assemble ι Unit} {v? : Option Violation} (h : Stops steps v?)
    (e : Assembler ι) : (Compiled.run e steps).fault? = v? := by
  rw [← h e, Compiled.run]
  cases steps e <;> rfl

theorem stops_leave (ν : Node) : Stops (leave ν : Assemble ι Unit) none := by
  obtain ⟨path, index, siblings, s⟩ := ν
  cases s
  case element => exact stops_endElement _
  all_goals exact stops_pure _

variable [Counter ι]

/-- The violations met when a step is made. -/
def Visit.violations : Visit → List Violation
  | .enter ν => ν.statement.violations
  | .leave _ => []

theorem flatMap_violations_visits (path : List Nat) (length index : Nat)
    (statements : List Statement) :
    (visits path length index statements).flatMap Visit.violations = violationsIn statements := by
  induction statements using Statement.inside_induction generalizing path length index with
  | nil => rw [visits_nil, violationsIn_nil, List.flatMap_nil]
  | cons s rest ihs ihr =>
    rw [visits_cons, violationsIn_cons, List.flatMap_cons, List.flatMap_append, List.flatMap_cons,
      ihs, ihr]
    rfl

/-- Nothing is wrong with a node of a fragment with nothing wrong. -/
theorem violations_of_mem_nodes {f : Fragment} (hv : f.violations = []) {ν : Node}
    (hν : ν ∈ f.nodes) : ν.statement.violations = [] := by
  rw [Fragment.nodes, ← entered_visits] at hν
  obtain ⟨v, hv', hen⟩ := List.mem_filterMap.mp hν
  rw [Fragment.violations_eq, ← flatMap_violations_visits [] f.body.length 0] at hv
  have hs := List.flatMap_eq_nil_iff.mp hv v hv'
  cases v with
  | leave μ => exact absurd hen (by simp [Visit.entered?])
  | enter μ =>
    obtain rfl : μ = ν := Option.some.inj hen
    exact hs

/-- **Entering a node stops at its first violation**, if that is so for the fragments nested in
it. -/
theorem stops_enter (o : Options) (ν : Node)
    (nested : ∀ f ∈ ν.statement.nested, (f.compile o : Compiled ι).fault? = f.violations.head?) :
    Stops (enter o ν : Assemble ι Unit) ν.statement.violations.head? := by
  obtain ⟨path, index, siblings, s⟩ := ν
  rcases s with t | c | e | m | ⟨call, body, inverse, span⟩ | ⟨tag, attributes, body, span⟩
  · exact stops_pass
  · exact stops_pass
  · exact stops_startElement _ _ _ _ _
  · exact stops_mustache _ _ _
  · have hb := nested body (by simp [Statement.nested])
    simp only [enter, Statement.violations]
    rw [List.head?_append, List.head?_append, ← hb, Option.or_assoc]
    refine (stops_absorb _).bind fun _ => Stops.bind ?_ fun _ => stops_block _ _ _ _ _
    cases inverse with
    | none => exact stops_pure _
    | some f =>
      have hf := nested f (by simp [Statement.nested])
      simp only [Option.toList_some, List.flatMap_singleton]
      rw [← hf]
      exact (stops_absorb _).andThen fun _ => stops_pure _
  · have hb := nested body (by simp [Statement.nested])
    simp only [enter, Statement.violations]
    rw [List.append_assoc, List.head?_append, ← hb]
    exact (stops_absorb _).bind fun _ => stops_component _ _ _ _

/-- **A fragment is refused for its first violation.** -/
theorem fault?_compile (o : Options) (f : Fragment) :
    (f.compile o : Compiled ι).fault? = f.violations.head? := by
  induction f using Fragment.nested_induction with
  | step f ih =>
    rw [compile_eq_run, walk_body_eq_forM, Fragment.violations_eq,
      ← flatMap_violations_visits [] f.body.length 0]
    refine fault?_run (stops_forM fun v hv => ?_) _
    cases v with
    | leave ν => exact stops_leave ν
    | enter ν =>
      refine stops_enter o ν fun g hg => ih g ?_
      exact List.mem_flatMap.mpr ⟨ν, mem_nodes_of_enter hv, hg⟩

/-- **A fragment compiles exactly when nothing is wrong with it.** -/
theorem compile_eq_ok_iff (o : Options) (f : Fragment) :
    (∃ p : Program ι, (f.compile o).result = .ok p) ↔ f.violations = [] := by
  rw [← List.head?_eq_none_iff, ← fault?_compile (ι := ι) o f, Compiled.fault?]
  cases (f.compile o : Compiled ι).result <;> simp

/-! ## Templates -/

/-- **What a violation is reported as**: the kind of the node and what is wrong with it in words,
and where it was written unless that span is empty. -/
def Violation.report (source? : Option String) (v : Violation) : Diagnostic where
  message :=
    match v.cause with
    | .emptySegment path => "invalid PathExpression: empty segment in `" ++ path ++ "`"
    | .emptyKey => "invalid HashPair: expected a key"
    | .emptyTag => "invalid ComponentNode: expected a tag name"
  range? := if v.span.start = v.span.stop then none else some v.span
  source? := source?

theorem Violation.report_eq (source? : Option String) (v : Violation) :
    v.report source? = Diagnostic.ofViolation source? v := by
  obtain ⟨cause, span⟩ := v
  have hr : (if span.start = span.stop then none else some span) =
      (Violation.mk cause span).range? := by
    simp [Violation.range?, Span.isEmpty]
  have hm : ((Violation.mk cause span).report source?).message =
      (Violation.mk cause span).message := by
    cases cause with
    | emptySegment path =>
      simp only [report, message, kind, complaint, ← String.append_assoc]
      rfl
    | emptyKey | emptyTag => rfl
  exact congrArg₂ (Diagnostic.mk · · source?) hm hr

/-- **A template is refused for its first violation, or not at all.** -/
theorem program_refused_for_first (t : Template) (o : Options) :
    ((∃ p, t.program o = .ok p) ↔ t.root.violations = []) ∧
      ∀ d, t.program o = .error d ↔
        ∃ v, t.root.violations.head? = some v ∧ d = v.report t.source := by
  have hf := fault?_compile (ι := UInt32) o t.root
  rw [Compiled.fault?] at hf
  rw [Template.program, Template.compile, ← List.head?_eq_none_iff, ← hf]
  cases (t.root.compile o : Compiled UInt32).result with
  | ok p => simp [Except.mapError]
  | error v => simp [Except.mapError, Violation.report_eq, eq_comm]

end Hydration
