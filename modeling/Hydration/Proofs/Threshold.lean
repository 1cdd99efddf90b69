import Hydration.Proofs.Positions
import Hydration.Proofs.References

/-!
# Proofs/Threshold — when an element is kept early

An element that is used often is kept as soon as it is opened, and how often is for the options to
say. Another threshold adds instructions that keep elements, moves them and numbers them anew; and
as they are anchors, morphs are placed elsewhere. What is bound stays bound to the same element.

The two streams of a fragment are compared visit by visit. All along, as many morphs and nested
programs are numbered in one as in the other (`anonymous_stream`). Nothing is said there of the
references, which are found again by following each stream on its own (`referents_fragment`).

* `program_threshold_transparent`: programs for two thresholds have the same morphs, the same
  instructions but for references, and bind everything to the same elements.
-/

namespace Hydration

open Template Counter

/-- The same options with another threshold. -/
def Options.atThreshold (o : Options) (threshold : UInt32) : Options :=
  { o with cacheThreshold := threshold }

variable {ι : Type} [Counter ι]

/-! ## Instructions without references -/

/-- **What is left of an instruction without references**: no element is kept, and what is bound is
bound to none in particular. Morphs are left out too, since they follow the anchors. -/
def Opcode.anonymous? : Opcode ι → Option (Opcode ι)
  | .element _ | .morph _ => none
  | .attribute quoted name parts _ => some (.attribute quoted name parts (ofNat 0))
  | .nodeHelper params _ => some (.nodeHelper params (ofNat 0))
  | op => some op

theorem anonymous?_of_isOperand {op : Opcode ι} (h : op.isOperand) : op.anonymous? = some op := by
  cases op <;> first | rfl | exact absurd h Bool.false_ne_true

theorem anonymous?_of_mem_phrases {e : Element} {p : Phrase ι} (h : p ∈ e.phrases) (element : ι) :
    (p.verb element).anonymous? = some (p.verb (ofNat 0)) := by
  rcases List.mem_append.mp h with h | h
  · obtain ⟨a, -, rfl⟩ := List.mem_map.mp h
    rfl
  · obtain ⟨c, -, rfl⟩ := List.mem_map.mp h
    rfl

/-- **Phrases on an element**, whichever it is and whenever it is kept. -/
theorem anonymous_bindings {ps : List (Phrase ι)} {reference : ι}
    (hv : ∀ p ∈ ps, (p.verb reference).anonymous? = some (p.verb (ofNat 0))) (referenced : Bool) :
    (bindings reference referenced ps).filterMap Opcode.anonymous? =
      ps.flatMap (·.opcodes (ofNat 0)) := by
  induction ps generalizing referenced with
  | nil => rfl
  | cons p ps ih =>
    have ho : p.operands.opcodes.filterMap Opcode.anonymous? = p.operands.opcodes :=
      filterMap_eq_self fun op hop => anonymous?_of_isOperand (p.isOperands op hop)
    have hk : (if referenced then [] else [Opcode.element reference]).filterMap
        Opcode.anonymous? = [] := by
      cases referenced <;> rfl
    rw [bindings, List.filterMap_append, List.filterMap_append, List.filterMap_append, ho, hk,
      List.filterMap_cons_some (hv p List.mem_cons_self), List.filterMap_nil,
      ih (fun q hq => hv q (List.mem_cons_of_mem p hq)) true, List.append_nil, List.flatMap_cons]
    rfl

/-- The tag of an element without references: its repair, and the phrases in it. -/
theorem anonymous_tag (o : Options) (n : Numbers) (ν : Node) (e : Element) :
    (ν.tag o n e : List (Opcode ι)).filterMap Opcode.anonymous? =
      Assembler.repair o (blanks e.children) e.isChecked ++
        e.phrases.flatMap (·.opcodes (ofNat 0)) := by
  have hk : (if ν.isEager ι o then [Opcode.element (ofNat n.references : ι)] else []).filterMap
      Opcode.anonymous? = [] := by
    cases ν.isEager ι o <;> rfl
  have hr : (Assembler.repair o (blanks e.children : List ι) e.isChecked).filterMap
      Opcode.anonymous? = Assembler.repair o (blanks e.children) e.isChecked := by
    refine filterMap_eq_self fun op hop => ?_
    obtain ⟨_, _, rfl⟩ := eq_of_mem_repair hop
    rfl
  rw [Node.tag, List.filterMap_append, List.filterMap_append, hk, hr,
    anonymous_bindings fun p hp => anonymous?_of_mem_phrases hp _, List.nil_append]

variable {n n' : Numbers}

/-- **Entering a node writes the same with another threshold**, but for references. -/
theorem anonymous_opening (o : Options) (threshold : UInt32) (hm : n.morphs = n'.morphs)
    (hp : n.programs = n'.programs) (ν : Node) :
    (ν.opening o n : List (Opcode ι)).filterMap Opcode.anonymous? =
      (ν.opening (o.atThreshold threshold) n').filterMap Opcode.anonymous? := by
  rcases ν.statement.trichotomy (ι := ι) n.programs with ⟨e, he⟩ | ⟨hs, hd⟩ | ⟨-, -, p, hq⟩
  · rw [Node.opening, Node.opening, he]
    simp only [List.filterMap_append, anonymous_tag]
    rfl
  · rw [Node.opening_of_static o n hs hd, Node.opening_of_static _ n' hs hd]
  · rw [Node.opening_of_phrase o hq, Node.opening_of_phrase _ (hp ▸ hq), hm]

/-- **A walk writes the same with another threshold**, but for references. -/
theorem anonymous_stream (o : Options) (threshold : UInt32) (hm : n.morphs = n'.morphs)
    (hp : n.programs = n'.programs) (vs : List Visit) :
    (stream o n vs : List (Opcode ι)).filterMap Opcode.anonymous? =
      (stream (o.atThreshold threshold) n' vs).filterMap Opcode.anonymous? := by
  induction vs generalizing n n' with
  | nil => rfl
  | cons v vs ih =>
    rw [stream, stream, List.filterMap_append, List.filterMap_append]
    cases v with
    | enter ν =>
      -- Whether a reference is given out depends on the threshold; the other numbers do not.
      have hm' : (n.step ι o (.enter ν)).morphs =
          (n'.step ι (o.atThreshold threshold) (.enter ν)).morphs :=
        congrArg (· + ν.statement.isDynamic.toNat) hm
      have hp' : (n.step ι o (.enter ν)).programs =
          (n'.step ι (o.atThreshold threshold) (.enter ν)).programs :=
        congrArg (· + ν.statement.nested.length) hp
      rw [ih hm' hp', Visit.opcodes, Visit.opcodes, anonymous_opening o threshold hm hp]
    | leave ν => exact congrArg (_ ++ ·) (ih hm hp)

theorem anonymous_fragment (o : Options) (threshold : UInt32) (f : Fragment) :
    (hoist (f.stream o) : List (Opcode ι)).filterMap Opcode.anonymous? =
      (hoist (f.stream (o.atThreshold threshold))).filterMap Opcode.anonymous? := by
  have hm : ∀ op : Opcode ι, op.anonymous?.isSome → op.isMorph = false := by
    intro op h
    cases op <;> first | rfl | exact absurd h Bool.false_ne_true
  have hh : (f.header (o.atThreshold threshold) : List (Opcode ι)) = f.header o := rfl
  rw [hoist, hoist, filterMap_hoistBy hm, filterMap_hoistBy hm, Fragment.stream, Fragment.stream,
    List.filterMap_append, List.filterMap_append, hh, anonymous_stream o threshold rfl rfl]

/-! ## Where references lead -/

section

variable [DecidableEq ι]

/-- One entry of a log, read by a runtime that remembers under which numbers elements were kept, and
where, the last one first. It shows to which one something is bound, and gets stuck if there is
none. -/
def referStep (kept : List (ι × List ι)) :
    Opcode ι × List ι → Option (List (List ι) × List (ι × List ι))
  | (.element number, scope) => some ([], (number, scope) :: kept)
  | (.attribute _ _ _ number, _) | (.nodeHelper _ number, _) =>
    (kept.lookup number).map fun scope => ([scope], kept)
  | _ => some ([], kept)

/-- **The scopes of the elements that something is bound to**, one for each instruction that binds
something, in order, when a stream is replayed from `start` on. -/
def referents (start : List ι) (ops : List (Opcode ι)) : Option (List (List ι)) := do
  let (log, _) ← replay start.length start ops
  let (scopes, _) ← run referStep [] log
  return scopes

variable {kept : List (ι × List ι)} {scope : List ι}

omit [Counter ι] in
theorem referStep_of_not_isReference (kept : List (ι × List ι)) (e : Opcode ι × List ι)
    (h : e.1.isReference = false) : referStep kept e = some ([], kept) := by
  obtain ⟨op, scope⟩ := e
  cases op <;> first | rfl | exact absurd h (by simp [Opcode.isReference, Opcode.keeps?,
    Opcode.bindsTo?])

omit [Counter ι] in
theorem referStep_of_bindsTo? {op : Opcode ι} {number : ι} (h : op.bindsTo? = some number)
    (hk : kept.lookup number = some scope) (here : List ι) :
    referStep kept (op, here) = some ([scope], kept) := by
  cases op <;> first
    | (rw [referStep, Option.some.inj h, hk]; rfl)
    | exact absurd h (by simp [Opcode.bindsTo?])

omit [Counter ι] in
/-- Hoisting changes nothing of this. -/
theorem refer_hoistLog (log : List (Opcode ι × List ι)) :
    run referStep kept (hoistLog log) = run referStep kept log := by
  have hm : ∀ e : Opcode ι × List ι, e.1.isReference → e.1.isMorph = false :=
    fun _ h => Opcode.isMorph_of_isReference h
  rw [← run_filter referStep_of_not_isReference, hoistLog, filter_hoistBy hm,
    run_filter referStep_of_not_isReference]

omit [Counter ι] in
/-- Only what is about references counts. -/
theorem refer_map (kept : List (ι × List ι)) (ops : List (Opcode ι)) (scope : List ι) :
    run referStep kept (ops.map (·, scope)) =
      run referStep kept ((ops.filter Opcode.isReference).map (·, scope)) := by
  rw [← run_filter referStep_of_not_isReference, List.filter_map]
  rfl

/-- **All that is bound in the tag of an element is bound to it**, whatever was kept before. -/
theorem refer_opening (o : Options) (n : Numbers) (ν : Node) (kept : List (ι × List ι)) :
    ∃ kept', run referStep kept ((ν.opening o n).map (·, (Visit.enter ν).scope.map ofNat)) =
      some ((ν.phrases : List (Phrase ι)).map fun _ => ν.address.map ofNat, kept') := by
  rw [refer_map, references_opening]
  cases h : ν.isReferenced ι o with
  | false =>
    have hp : (ν.phrases : List (Phrase ι)) = [] := Node.phrases_of_not_isReferenced h
    rw [hp]
    exact ⟨kept, rfl⟩
  | true =>
    have hs : (Visit.enter ν).scope = ν.address := by
      rw [Visit.scope, if_pos (Node.isElement_of_isReferenced h)]
    -- The number may have been given out before, but the element kept last is found first.
    let kept' := (ofNat n.references, ν.address.map ofNat) :: kept
    have hl : kept'.lookup (ofNat n.references) = some (ν.address.map ofNat) :=
      List.lookup_cons_self
    rw [hs]
    refine ⟨kept', run_cons.mpr ⟨[], kept', _, rfl,
      run_of_idle (f := fun _ => [ν.address.map ofNat]) ?_, ?_⟩⟩
    · intro e he
      obtain ⟨op, hop, rfl⟩ := List.mem_map.mp he
      obtain ⟨p, hp, rfl⟩ := List.mem_map.mp hop
      exact referStep_of_bindsTo? (Node.bindsTo?_of_mem_phrases hp _) hl _
    · rw [List.nil_append, ← List.map_eq_flatMap, List.map_map, List.map_map]
      rfl

/-- **All that is bound in a walk is bound to the element of its tag.** -/
theorem refer_walkLog (o : Options) (n : Numbers) (vs : List Visit) (kept : List (ι × List ι)) :
    ∃ kept', run referStep kept (walkLog o n vs) =
      some ((vs.filterMap Visit.entered?).flatMap fun ν =>
        (ν.phrases : List (Phrase ι)).map fun _ => ν.address.map ofNat, kept') := by
  induction vs generalizing n kept with
  | nil => exact ⟨kept, rfl⟩
  | cons v vs ih =>
    cases v with
    | enter ν =>
      obtain ⟨mid, hν⟩ := refer_opening o n ν kept
      obtain ⟨last, hvs⟩ := ih (n.step ι o (.enter ν)) mid
      exact ⟨last, run_append.mpr ⟨_, mid, _, hν, hvs, List.flatMap_cons⟩⟩
    | leave ν =>
      obtain ⟨last, hvs⟩ := ih (n.step ι o (.leave ν)) kept
      refine ⟨last, run_append.mpr ⟨[], kept, _, ?_, hvs, rfl⟩⟩
      rw [refer_map, Visit.opcodes, references_closing]
      rfl

/-- **The elements that something is bound to in a fragment**: each as often as there are phrases in
its tag, in document order. -/
theorem referents_fragment (o : Options) (f : Fragment) :
    referents (f.startScope.map ofNat) (hoist (f.stream o) : List (Opcode ι)) =
      some (f.nodes.flatMap fun ν => (ν.phrases : List (Phrase ι)).map fun _ =>
        ν.address.map ofNat) := by
  have hh : run referStep [] ((f.header o).map (·, f.startScope.map ofNat)) =
      some ([], ([] : List (ι × List ι))) := by
    rw [refer_map, references_header]
    rfl
  obtain ⟨kept, hw⟩ := refer_walkLog (ι := ι) o {} f.visits []
  have hl : run referStep [] (hoistLog (f.log o)) = some (_, kept) :=
    (refer_hoistLog (f.log o)).trans (run_append.mpr ⟨[], [], _, hh, hw, rfl⟩)
  rw [referents, List.length_map, replay_hoist (replay_fragment o f)]
  simp only [Option.bind_eq_bind, Option.bind_some, hl]
  rw [Fragment.visits, entered_visits]
  rfl

end

/-! ## Programs -/

/-- **Two programs of a fragment that differ only in how its elements are kept.** -/
structure SameUpToReferences (f : Fragment) (p q : Program UInt32) : Prop where
  /-- Their morphs are the same. -/
  morphs : p.morphs = q.morphs
  /-- Their instructions are the same but for references. -/
  stream : p.opcodes.filterMap Opcode.anonymous? = q.opcodes.filterMap Opcode.anonymous?
  /-- What is bound first, second and so on is bound to the same element. -/
  referents : ∃ scopes, Hydration.referents (f.startScope.map ofNat) p.opcodes = some scopes ∧
    Hydration.referents (f.startScope.map ofNat) q.opcodes = some scopes

theorem sameUpToReferences (o : Options) (threshold : UInt32) (f : Fragment)
    (children children' : List (Program UInt32)) :
    SameUpToReferences f ⟨hoist (f.stream o), children⟩
      ⟨hoist (f.stream (o.atThreshold threshold)), children'⟩ where
  morphs := (morphs_fragment o f).trans (morphs_fragment (o.atThreshold threshold) f).symm
  stream := anonymous_fragment o threshold f
  referents := ⟨_, referents_fragment o f, referents_fragment (o.atThreshold threshold) f⟩

/-- **Another threshold changes only how elements are kept**: a template is refused in the same way,
or it has two programs that agree, with all that is nested in them, on their morphs, on their
instructions but for references, and on the elements that everything is bound to. -/
theorem program_threshold_transparent (t : Template) (o : Options) (threshold : UInt32) :
    (∃ d, t.program o = .error d ∧ t.program (o.atThreshold threshold) = .error d) ∨
      ∃ p q, t.program o = .ok p ∧ t.program (o.atThreshold threshold) = .ok q ∧
        ThroughoutBoth SameUpToReferences t.root p q := by
  cases hv : t.root.violations.head? with
  | some v => exact .inl ⟨_, program_of_violation o hv, program_of_violation _ hv⟩
  | none =>
    have hv := List.head?_eq_none_iff.mp hv
    refine .inr ⟨_, _, program_of_valid o hv, program_of_valid _ hv, ?_⟩
    exact throughoutBoth_output o (o.atThreshold threshold)
      (fun f _ => sameUpToReferences o threshold f _ _) hv

end Hydration
