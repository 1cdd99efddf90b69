import Hydration.Proofs.Nesting
import Hydration.Proofs.Spans

/-!
# Proofs/Skeleton — what a program does not depend on

Static markup is cloned by the runtime, and a program has to know only how much of it there is. The
*skeleton* of a template is what is left: no source and no spans, texts told apart only by whether
they have characters, elements without their tags and static attributes. It is a template again, in
which everything dropped is replaced by one fixed stand-in, and so templates that differ in static
content only have one skeleton in common.

Piece by piece, the skeleton is compiled to the same instructions. What is bound in a tag or filled
in at a statement is written the same way (`Statement.face_phrase?`), the walk goes along the same
path (`visits_skeleton`), and what is wrong is wrong in the same order (`violations_skeleton`).

* `program_ignores_static`: templates with the same skeleton have the same program, or are refused
  with the same message.
-/

namespace Hydration.Template

/-! ## Skeletons -/

/-- **The attributes of an element without the static ones.** That some attribute is named `checked`
is told by one without a value. -/
def attributesSkeleton (attributes : List Attribute) : List Attribute :=
  (if attributes.any (·.name == "checked") then [{ name := "checked", value := [] }] else []) ++
    (attributes.filter (!·.isStatic)).map Attribute.plain

/-- A mustache without spans. -/
def Mustache.skeleton (m : Mustache) : Mustache where
  call := m.call.plain
  escaped := m.escaped

mutual

/-- **A fragment without its static content.** -/
def Fragment.skeleton : Fragment → Fragment
  | ⟨body, blockParams, _⟩ => { body := skeletons body, blockParams }

/-- **A statement without its static content.** A comment is cloned as a text with characters is. -/
def Statement.skeleton : Statement → Statement
  | .text t => .text { chars := if t.chars = "" then "" else "text" }
  | .comment _ => .text { chars := "text" }
  | .element ⟨_, attributes, helpers, children, _⟩ => .element {
      tag := ""
      attributes := attributesSkeleton attributes
      helpers := helpers.map Call.plain
      children := skeletons children }
  | .mustache m => .mustache m.skeleton
  | .block ⟨call, body, none, _⟩ => .block { call := call.plain, body := body.skeleton }
  | .block ⟨call, body, some inverse, _⟩ => .block {
      call := call.plain
      body := body.skeleton
      inverse := some inverse.skeleton }
  | .component ⟨tag, attributes, body, _⟩ => .component {
      tag
      attributes := attributes.map Attribute.operand
      body := body.skeleton }

/-- Statements without their static content. -/
def skeletons : List Statement → List Statement
  | [] => []
  | s :: rest => s.skeleton :: skeletons rest

end

theorem skeletons_eq_map (statements : List Statement) :
    skeletons statements = statements.map Statement.skeleton := by
  induction statements with
  | nil => rw [skeletons, List.map_nil]
  | cons s rest ih => rw [skeletons, List.map_cons, ih]

@[simp] theorem Statement.skeleton_text (t : TextNode) :
    (Statement.text t).skeleton = .text { chars := if t.chars = "" then "" else "text" } := by
  rw [Statement.skeleton]

@[simp] theorem Statement.skeleton_comment (c : Comment) :
    (Statement.comment c).skeleton = .text { chars := "text" } := by
  rw [Statement.skeleton]

@[simp] theorem Statement.skeleton_mustache (m : Mustache) :
    (Statement.mustache m).skeleton = .mustache m.skeleton := by
  rw [Statement.skeleton]

/-- An element without its static content. -/
def Element.skeleton (e : Element) : Element where
  tag := ""
  attributes := attributesSkeleton e.attributes
  helpers := e.helpers.map Call.plain
  children := e.children.map Statement.skeleton

@[simp] theorem Statement.skeleton_element (e : Element) :
    (Statement.element e).skeleton = .element e.skeleton := by
  obtain ⟨tag, attributes, helpers, children, span⟩ := e
  rw [Statement.skeleton, skeletons_eq_map]
  rfl

/-- A block without its static content. -/
def Block.skeleton (b : Block) : Block where
  call := b.call.plain
  body := b.body.skeleton
  inverse := b.inverse.map Fragment.skeleton

@[simp] theorem Statement.skeleton_block (b : Block) :
    (Statement.block b).skeleton = .block b.skeleton := by
  obtain ⟨call, body, inverse, span⟩ := b
  cases inverse <;> rw [Statement.skeleton] <;> rfl

/-- A component without its static content. -/
def Component.skeleton (c : Component) : Component where
  tag := c.tag
  attributes := c.attributes.map Attribute.operand
  body := c.body.skeleton

@[simp] theorem Statement.skeleton_component (c : Component) :
    (Statement.component c).skeleton = .component c.skeleton := by
  obtain ⟨tag, attributes, body, span⟩ := c
  rw [Statement.skeleton]
  rfl

@[simp] theorem Fragment.body_skeleton (f : Fragment) :
    f.skeleton.body = f.body.map Statement.skeleton := by
  obtain ⟨body, blockParams, span⟩ := f
  rw [Fragment.skeleton, skeletons_eq_map]

@[simp] theorem Fragment.blockParams_skeleton (f : Fragment) :
    f.skeleton.blockParams = f.blockParams := by
  obtain ⟨body, blockParams, span⟩ := f
  rw [Fragment.skeleton]

/-! ### Attributes -/

/-- The dynamic attributes are all there. -/
theorem filter_attributesSkeleton (attributes : List Attribute) :
    (attributesSkeleton attributes).filter (!·.isStatic) =
      (attributes.filter (!·.isStatic)).map Attribute.plain := by
  have hm : (if attributes.any (·.name == "checked") then [{ name := "checked", value := [] }]
      else [] : List Attribute).filter (!·.isStatic) = [] := by
    split <;> rfl
  rw [attributesSkeleton, List.filter_append, hm, List.nil_append, List.filter_map]
  simp [Function.comp_def, Attribute.isStatic_plain]

/-- …and so is the name `checked`, if there is one. -/
theorem Element.isChecked_skeleton (e : Element) : e.skeleton.isChecked = e.isChecked := by
  change (attributesSkeleton e.attributes).any (·.name == "checked") = _
  rw [attributesSkeleton, isChecked, List.any_append, List.any_map]
  cases h : e.attributes.any (·.name == "checked") with
  | true => rfl
  | false =>
    refine (Bool.false_or _).trans (List.any_eq_false.mpr fun a ha => ?_)
    exact List.any_eq_false.mp h a (List.mem_of_mem_filter ha)

/-- Static attributes are never ill formed. -/
theorem flatMap_violations_filter (attributes : List Attribute) :
    (attributes.filter (!·.isStatic)).flatMap Attribute.violations =
      attributes.flatMap Attribute.violations := by
  induction attributes with
  | nil => rfl
  | cons a attributes ih =>
    cases h : a.isStatic with
    | true =>
      rw [List.filter_cons_of_neg (by simp [h]), List.flatMap_cons,
        Attribute.violations_of_isStatic h, ih]
      rfl
    | false =>
      rw [List.filter_cons_of_pos (by simp [h]), List.flatMap_cons, List.flatMap_cons, ih]

theorem violations_attributesSkeleton (attributes : List Attribute) :
    (attributesSkeleton attributes).flatMap Attribute.violations =
      (attributes.flatMap Attribute.violations).map Violation.plain := by
  rw [← flatMap_violations_filter, filter_attributesSkeleton, List.flatMap_map,
    ← flatMap_violations_filter attributes, List.map_flatMap]
  simp only [Attribute.violations_plain]

/-! ## Statements -/

namespace Statement

@[simp] theorem children_skeleton (s : Statement) :
    s.skeleton.children = s.children.map Statement.skeleton := by
  cases s <;> simp [children, Element.skeleton]

@[simp] theorem nested_skeleton (s : Statement) :
    s.skeleton.nested = s.nested.map Fragment.skeleton := by
  cases s <;> simp [nested, Block.skeleton, Component.skeleton, Option.toList_map]

@[simp] theorem isDynamic_skeleton (s : Statement) : s.skeleton.isDynamic = s.isDynamic := by
  cases s <;> simp [isDynamic]

@[simp] theorem isElement_skeleton (s : Statement) : s.skeleton.isElement = s.isElement := by
  cases s <;> simp [isElement]

@[simp] theorem isEscaped_skeleton (s : Statement) : s.skeleton.isEscaped = s.isEscaped := by
  cases s <;> simp [isEscaped, Mustache.skeleton]

@[simp] theorem isBlank_skeleton (s : Statement) : s.skeleton.isBlank = s.isBlank := by
  cases s with
  | text t =>
    rw [skeleton_text, isBlank, isBlank]
    split <;> simp_all
  | comment _ | element _ | mustache _ | block _ | component _ => simp [isBlank]

end Statement

/-- **The violations of a statement are the same but for spans**, if that is so for the fragments
nested in it. -/
theorem Statement.violations_skeleton {s : Statement}
    (nested : ∀ f ∈ s.nested, f.skeleton.violations = f.violations.map Violation.plain) :
    s.skeleton.violations = s.violations.map Violation.plain := by
  have hc (calls : List Call) : (calls.map Call.plain).flatMap Call.violations =
      (calls.flatMap Call.violations).map Violation.plain := by
    rw [List.flatMap_map, List.map_flatMap]
    simp only [Call.violations_plain]
  cases s with
  | text _ | comment _ => simp [violations]
  | element e =>
    rw [skeleton_element, violations, violations, List.map_append, ← hc,
      ← violations_attributesSkeleton]
    rfl
  | mustache m =>
    rw [skeleton_mustache, violations, violations, ← m.call.violations_plain]
    rfl
  | block b =>
    have hb := nested b.body List.mem_cons_self
    have hi : (b.inverse.map Fragment.skeleton).toList.flatMap Fragment.violations =
        (b.inverse.toList.flatMap Fragment.violations).map Violation.plain := by
      cases h : b.inverse with
      | none => rfl
      | some f =>
        have hf := nested f (by simp [Statement.nested, h])
        simp [hf]
    rw [skeleton_block, violations, violations, List.map_append, List.map_append, ← hb, ← hi,
      ← b.call.violations_plain]
    rfl
  | component c =>
    have hb := nested c.body List.mem_cons_self
    have ht : tagViolation? c.tag {} = (tagViolation? c.tag c.span).map Violation.plain := by
      unfold tagViolation?
      split <;> rfl
    have ha : (c.attributes.map Attribute.operand).flatMap
        (fun a => (nameViolation? a.name a.span).toList ++ a.violations) =
        (c.attributes.flatMap fun a =>
          (nameViolation? a.name a.span).toList ++ a.violations).map Violation.plain := by
      rw [List.flatMap_map, List.map_flatMap]
      refine List.flatMap_congr fun a _ => ?_
      rw [List.map_append, ← Option.toList_map, ← nameViolation?_plain, ← a.violations_plain]
      rfl
    rw [skeleton_component, violations, violations, List.map_append, List.map_append, ← hb, ← ha,
      ← Option.toList_map, ← ht]
    rfl

/-! ## Documents -/

/-- A node with the skeleton of its statement. -/
def Node.skeleton (ν : Node) : Node := { ν with statement := ν.statement.skeleton }

/-- A step of a walk over a skeleton. -/
def Visit.skeleton : Visit → Visit
  | .enter ν => .enter ν.skeleton
  | .leave ν => .leave ν.skeleton

theorem blanks_skeleton {ι : Type} [Counter ι] (statements : List Statement) :
    (blanks (statements.map Statement.skeleton) : List ι) = blanks statements := by
  rw [blanks, blanks, List.zipIdx_map, List.filter_map, List.map_map]
  simp [Function.comp_def]

theorem visits_skeleton (path : List Nat) (length index : Nat) (statements : List Statement) :
    visits path length index (statements.map Statement.skeleton) =
      (visits path length index statements).map Visit.skeleton := by
  induction statements using Statement.inside_induction generalizing path length index with
  | nil => rw [List.map_nil, visits_nil, List.map_nil]
  | cons s rest ihs ihr =>
    rw [List.map_cons, visits_cons, visits_cons, s.children_skeleton, List.length_map, ihs, ihr]
    simp [Visit.skeleton, Node.skeleton]

theorem Fragment.visits_skeleton (f : Fragment) :
    f.skeleton.visits = f.visits.map Visit.skeleton := by
  rw [visits, visits, f.body_skeleton, List.length_map, Template.visits_skeleton]

theorem Fragment.nested_skeleton (f : Fragment) :
    f.skeleton.nested = f.nested.map Fragment.skeleton := by
  have hn (g : Fragment) : g.nested = g.visits.flatMap Visit.nested :=
    (flatMap_nested_visits [] g.body.length 0 g.body).symm
  rw [hn, hn, f.visits_skeleton, List.flatMap_map, List.map_flatMap]
  refine List.flatMap_congr fun v _ => ?_
  cases v with
  | enter ν => exact ν.statement.nested_skeleton
  | leave _ => rfl

/-- **The violations of a fragment are the same but for spans.** -/
theorem Fragment.violations_skeleton (f : Fragment) :
    f.skeleton.violations = f.violations.map Violation.plain := by
  induction f using Fragment.nested_induction with
  | step f ih =>
    have hv (g : Fragment) : g.violations = g.visits.flatMap Visit.violations := by
      rw [g.violations_eq, Fragment.visits, flatMap_violations_visits]
    -- Both lists are made along the same walk, so they are compared visit by visit.
    rw [hv, hv, f.visits_skeleton, List.flatMap_map, List.map_flatMap]
    refine List.flatMap_congr fun v hv => ?_
    cases v with
    | enter ν =>
      refine Statement.violations_skeleton fun g hg => ih g ?_
      exact List.mem_flatMap.mpr ⟨ν, mem_nodes_of_enter hv, hg⟩
    | leave _ => rfl

end Template

open Template

/-! ## Phrases -/

section

variable {ι : Type}

/-- **What a phrase writes**: its operands, and the instruction that uses them up. -/
def Phrase.face (p : Phrase ι) : List (Opcode ι) × (ι → Opcode ι) := (p.operands.opcodes, p.verb)

/-- Phrases write the same if their operands differ in spans only. -/
theorem face_eq {p q : Phrase ι} (ho : p.operands = q.operands.plain) (hv : p.verb = q.verb) :
    p.face = q.face := by
  rw [Phrase.face, ho, hv]
  rfl

theorem opcodes_of_face {p q : Phrase ι} (h : p.face = q.face) (target : ι) :
    p.opcodes target = q.opcodes target := by
  obtain ⟨ho, hv⟩ := Prod.mk.inj h
  rw [Phrase.opcodes, Phrase.opcodes, ho, hv]

theorem bindings_of_face {ps qs : List (Phrase ι)} (h : ps.map Phrase.face = qs.map Phrase.face)
    (reference : ι) (referenced : Bool) :
    bindings reference referenced ps = bindings reference referenced qs := by
  induction ps generalizing qs referenced with
  | nil => rw [List.map_eq_nil_iff.mp h.symm]
  | cons p ps ih =>
    obtain ⟨q, qs, rfl, hq, hqs⟩ := List.map_eq_cons_iff.mp h.symm
    obtain ⟨ho, hv⟩ := Prod.mk.inj hq
    rw [bindings, bindings, ho, hv, ih hqs.symm]

end

namespace Template

variable {ι : Type} [Counter ι]

theorem Attribute.face_plain (a : Attribute) :
    (a.plain.phrase : Phrase ι).face = a.phrase.face := by
  refine face_eq a.code_plain ?_
  change Opcode.attribute _ _ (Counter.ofNat (a.value.map Part.plain).length) = _
  rw [List.length_map]
  rfl

theorem Call.noProgram_plain (c : Call) :
    (noProgram ++ c.plain.code : Code ι) = (noProgram ++ c.code).plain := by
  rw [Code.plain_append, c.code_plain]
  rfl

theorem Call.face_plain (c : Call) : (c.plain.phrase : Phrase ι).face = c.phrase.face := by
  refine face_eq c.noProgram_plain ?_
  change Opcode.nodeHelper (Counter.ofNat c.plain.params.length) = _
  rw [c.length_params_plain]
  rfl

theorem Mustache.face_skeleton (m : Mustache) :
    (m.skeleton.phrase : Phrase ι).face = m.phrase.face := by
  have hh : m.skeleton.call.isHelper = m.call.isHelper := m.call.isHelper_plain
  unfold Mustache.phrase
  cases h : m.call.isHelper with
  | true =>
    rw [if_pos (hh.trans h), if_pos rfl]
    refine face_eq m.call.noProgram_plain (funext fun morph => ?_)
    change Opcode.helper (Counter.ofNat m.call.plain.params.length) morph none = _
    rw [m.call.length_params_plain]
  | false =>
    rw [if_neg (by simp [hh, h]), if_neg Bool.false_ne_true]
    refine face_eq ?_ rfl
    change (m.call.plain.callee.nameCode : Code ι) = m.call.callee.nameCode.plain
    rw [m.call.callee_plain, Path.nameCode_plain]

theorem Block.face_skeleton (programs : Nat) (b : Block) :
    (b.skeleton.phrase programs : Phrase ι).face = (b.phrase programs).face := by
  refine face_eq ?_ (funext fun morph => ?_)
  · change Code.one (.program _ ((b.inverse.map Fragment.skeleton).map _)) ++ b.call.plain.code =
      (Code.one _ ++ b.call.code).plain
    rw [Code.plain_append, b.call.code_plain, Option.map_map]
    rfl
  · change Opcode.helper (Counter.ofNat b.call.plain.params.length) morph
      (some (Counter.ofNat b.body.skeleton.blockParams.length)) = _
    rw [b.call.length_params_plain, b.body.blockParams_skeleton]
    rfl

theorem Component.face_skeleton (programs : Nat) (c : Component) :
    (c.skeleton.phrase programs : Phrase ι).face = (c.phrase programs).face := by
  refine face_eq ?_ (funext fun morph => ?_)
  · change Code.one _ ++
        (Code.one _ ++ (attributesHash (c.attributes.map Attribute.operand)).code) =
      (Code.one _ ++ (Code.one _ ++ (attributesHash c.attributes).code)).plain
    rw [Code.plain_append, Code.plain_append, attributesHash_operand]
    rfl
  · change Opcode.component morph (Counter.ofNat c.body.skeleton.blockParams.length) = _
    rw [c.body.blockParams_skeleton]
    rfl

/-- **What is bound at a statement is written the same way.** -/
theorem Statement.face_phrase? (programs : Nat) (s : Statement) :
    (s.skeleton.phrase? programs : Option (Phrase ι)).map Phrase.face =
      (s.phrase? programs).map Phrase.face := by
  cases s with
  | text _ | comment _ | element _ => simp [phrase?]
  | mustache m =>
    rw [skeleton_mustache]
    exact congrArg some m.face_skeleton
  | block b =>
    rw [skeleton_block]
    exact congrArg some (b.face_skeleton programs)
  | component c =>
    rw [skeleton_component]
    exact congrArg some (c.face_skeleton programs)

/-! ### Tags -/

theorem Element.uses_skeleton (e : Element) : e.skeleton.uses = e.uses := by
  have ha : e.skeleton.attributes.countP (!·.isStatic) = e.attributes.countP (!·.isStatic) := by
    change (attributesSkeleton e.attributes).countP (!·.isStatic) = _
    rw [List.countP_eq_length_filter, filter_attributesSkeleton, List.length_map,
      List.countP_eq_length_filter]
  have hh : e.skeleton.helpers.length = e.helpers.length := List.length_map _
  have hc : e.skeleton.children.countP Statement.isDynamic =
      e.children.countP Statement.isDynamic := by
    change (e.children.map Statement.skeleton).countP Statement.isDynamic = _
    rw [List.countP_map]
    exact congrArg (List.countP · e.children) (funext Statement.isDynamic_skeleton)
  rw [uses, uses, ha, hh, hc]

theorem Element.face_phrases_skeleton (e : Element) :
    (e.skeleton.phrases : List (Phrase ι)).map Phrase.face = e.phrases.map Phrase.face := by
  have ha : e.skeleton.attributes.filter (!·.isStatic) = _ := filter_attributesSkeleton _
  have hh : e.skeleton.helpers = e.helpers.map Call.plain := rfl
  rw [phrases, phrases, ha, hh]
  simp [Function.comp_def, Attribute.face_plain, Call.face_plain]

theorem Element.isEmpty_phrases_skeleton (e : Element) :
    (e.skeleton.phrases : List (Phrase ι)).isEmpty = (e.phrases : List (Phrase ι)).isEmpty := by
  rw [← List.isEmpty_map (f := Phrase.face), e.face_phrases_skeleton, List.isEmpty_map]

/-! ## Streams -/

namespace Node

theorem isEager_skeleton (o : Options) (ν : Node) :
    ν.skeleton.isEager ι o = ν.isEager ι o := by
  obtain ⟨path, index, siblings, s⟩ := ν
  cases s with
  | element e => simp [skeleton, isEager, e.uses_skeleton, isSole]
  | text _ | comment _ | mustache _ | block _ | component _ => simp [skeleton, isEager]

theorem isReferenced_skeleton (o : Options) (ν : Node) :
    ν.skeleton.isReferenced ι o = ν.isReferenced ι o := by
  have he := isEager_skeleton (ι := ι) o ν
  obtain ⟨path, index, siblings, s⟩ := ν
  cases s with
  | element e =>
    rw [isReferenced, isReferenced, he]
    simp [skeleton, e.isEmpty_phrases_skeleton]
  | text _ | comment _ | mustache _ | block _ | component _ => simp [skeleton, isReferenced]

theorem tag_skeleton (o : Options) (n : Numbers) (ν : Node) (e : Element) :
    (ν.skeleton.tag o n e.skeleton : List (Opcode ι)) = ν.tag o n e := by
  have hb : (blanks e.skeleton.children : List ι) = blanks e.children :=
    blanks_skeleton e.children
  rw [tag, tag, isEager_skeleton, hb, e.isChecked_skeleton,
    bindings_of_face e.face_phrases_skeleton]

/-- **Entering a node writes the same.** -/
theorem opening_skeleton (o : Options) (n : Numbers) (ν : Node) :
    (ν.skeleton.opening o n : List (Opcode ι)) = ν.opening o n := by
  have hm : (ν.skeleton.morph n.morphs : Morph ι) = ν.morph n.morphs := by
    have he : ν.skeleton.statement.isEscaped = ν.statement.isEscaped :=
      ν.statement.isEscaped_skeleton
    rw [morph, morph, he]
    rfl
  rcases ν.statement.trichotomy (ι := ι) n.programs with ⟨e, he⟩ | ⟨hs, hd⟩ | ⟨-, -, p, hp⟩
  · have hs : ν.skeleton.statement = .element e.skeleton := by
      rw [skeleton, he, Statement.skeleton_element]
    rw [opening, opening, he, hs]
    simp only [tag_skeleton]
    rfl
  · rw [opening_of_static o n hs hd, opening_of_static o n]
    · exact ν.statement.isElement_skeleton.trans hs
    · exact ν.statement.isDynamic_skeleton.trans hd
  · have hf := ν.statement.face_phrase? (ι := ι) n.programs
    rw [hp, Option.map_some] at hf
    obtain ⟨q, hq, hf⟩ := Option.map_eq_some_iff.mp hf
    rw [opening_of_phrase o hp, opening_of_phrase (ν := ν.skeleton) o hq, hm, opcodes_of_face hf]

omit [Counter ι] in
theorem closing_skeleton (ν : Node) : (ν.skeleton.closing : List (Opcode ι)) = ν.closing := by
  rw [closing, closing]
  simp [skeleton, isSole]

end Node

end Template

variable {ι : Type} [Counter ι]

theorem step_skeleton (o : Options) (n : Numbers) (v : Visit) :
    n.step ι o v.skeleton = n.step ι o v := by
  cases v with
  | enter ν =>
    change Numbers.step ι o n (.enter ν.skeleton) = _
    rw [Numbers.step, Numbers.step, ν.isReferenced_skeleton]
    simp [Node.skeleton]
  | leave ν => rfl

/-- **A walk over a skeleton writes the same.** -/
theorem stream_skeleton (o : Options) (n : Numbers) (vs : List Visit) :
    (stream o n (vs.map Visit.skeleton) : List (Opcode ι)) = stream o n vs := by
  induction vs generalizing n with
  | nil => rfl
  | cons v vs ih =>
    have hv : (v.skeleton.opcodes o n : List (Opcode ι)) = v.opcodes o n := by
      cases v with
      | enter ν => exact ν.opening_skeleton o n
      | leave ν => exact ν.closing_skeleton
    rw [List.map_cons, stream, stream, hv, step_skeleton, ih]

theorem Template.Fragment.stream_skeleton (o : Options) (f : Fragment) :
    (f.skeleton.stream o : List (Opcode ι)) = f.stream o := by
  rw [stream, stream, header, header, f.visits_skeleton, Hydration.stream_skeleton,
    f.blockParams_skeleton, f.body_skeleton, blanks_skeleton]

/-! ## Programs -/

/-- **A template without its static content**, and without its source. -/
def Template.skeleton (t : Template) : Template where
  root := t.root.skeleton

/-- **A fragment and its skeleton have the same program.** -/
theorem output_skeleton [Counter.Lawful ι] (o : Options) {f : Fragment} (hv : f.violations = []) :
    (f.skeleton.output o : Program ι) = f.output o := by
  induction f using Fragment.nested_induction with
  | step f ih =>
    have hs : f.skeleton.violations = [] := by rw [f.violations_skeleton, hv, List.map_nil]
    have hn : f.skeleton.nested.map (Fragment.output o) =
        (f.nested.map (Fragment.output o) : List (Program ι)) := by
      rw [f.nested_skeleton, List.map_map]
      exact List.map_congr_left fun g hg => ih g hg (violations_of_nested hv hg)
    rw [output_eq o hs, output_eq o hv, f.stream_skeleton, hn]

/-- A template and its skeleton have the same program, or are refused with the same message. -/
theorem program_skeleton (t : Template) (o : Options) :
    (t.skeleton.program o).mapError Diagnostic.message =
      (t.program o).mapError Diagnostic.message := by
  have hs : t.skeleton.root.violations = t.root.violations.map Violation.plain :=
    t.root.violations_skeleton
  cases hv : t.root.violations.head? with
  | some v =>
    have hp : t.skeleton.root.violations.head? = some v.plain := by
      rw [hs, List.head?_map, hv, Option.map_some]
    rw [program_of_violation o hv, program_of_violation o hp]
    exact congrArg Except.error v.message_plain
  | none =>
    have hv := List.head?_eq_none_iff.mp hv
    rw [hv, List.map_nil] at hs
    rw [program_of_valid o hv, program_of_valid o hs]
    exact congrArg Except.ok (output_skeleton o hv)

/-- **Static content does not show in the program**: templates with the same skeleton have the same
program, or are refused with the same message. -/
theorem program_ignores_static {t t' : Template} (h : t.skeleton = t'.skeleton) (o : Options) :
    (t.program o).mapError Diagnostic.message = (t'.program o).mapError Diagnostic.message := by
  rw [← program_skeleton t, h, program_skeleton t']

/-- The roster in other clothes: other tags and texts, static attributes, comments and spans. -/
def Template.rosterRestyled : Template where
  source := some "<ol id=top hidden></ol>"
  root := {
    span := ⟨0, 42⟩
    body := [
      .mustache { call := { callee := { segments := ["title"], span := ⟨2, 7⟩ }, span := ⟨0, 9⟩ } },
      .element {
        tag := "ol"
        attributes := [
          { name := "id", value := [.text { chars := "top" }] },
          { name := "class"
            value := [
              .text { chars := "list ", span := ⟨24, 29⟩ },
              .path { segments := ["kind"] }] },
          { name := "hidden", value := [] }]
        helpers := [{
          callee := { segments := ["on"] }
          params := [.string "click" ⟨3, 4⟩, .sub {
            callee := { segments := ["pick"] }
            hash := some {
              pairs := [{ key := "by", value := .path { segments := ["this", "id"] } }]
              span := ⟨1, 2⟩ } }] }]
        children := [
          .text { chars := "" },
          .block {
            call := {
              callee := { segments := ["each"] }
              params := [.path { segments := ["items"] }] }
            body := {
              body := [.element {
                tag := "dd"
                attributes := [{ name := "class", value := [.text { chars := "row" }] }]
                children := [
                  .mustache { call := { callee := { segments := ["item", "name"] } } },
                  .comment { value := "no note yet" },
                  .mustache { call := { callee := { segments := ["note"] } }, escaped := false }] }]
              blockParams := ["item"] }
            inverse := some { body := [.text { chars := "nobody" }] } }] },
      .component {
        tag := "page-footer"
        attributes := [{
          name := "year"
          value := [.path { segments := ["year"] }]
          quoted := false }]
        body := { body := [.mustache { call := { callee := { segments := ["yield"] } } }] } }] }

theorem program_ignores_static_roster :
    Template.roster.skeleton = Template.rosterRestyled.skeleton ∧
      (Template.roster.program {}).mapError Diagnostic.message =
        (Template.rosterRestyled.program {}).mapError Diagnostic.message := by
  have h : Template.roster.skeleton = Template.rosterRestyled.skeleton := by rfl
  exact ⟨h, program_ignores_static h {}⟩

end Hydration
