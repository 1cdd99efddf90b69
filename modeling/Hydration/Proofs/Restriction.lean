import Hydration.Proofs.Nesting

/-!
# Proofs/Restriction — programs with fewer repairs

Each of the two repairs can be turned off. A program compiled without them is shorter, so that its
morphs are placed at other positions of the stream, and still it differs from the full program only
in what is missing. `Program.restrict o` cuts the repairs of a finished program down to those that
the options ask for. It leaves every anchor and every morph where it is, and so it passes through
hoisting (`restrict_hoist`).

* `program_restricts`: a template compiled with any options has the program that it has with both
  repairs on, restricted; and it is refused in the same way.
-/

namespace Hydration

open Template Counter

/-- The same options with both repairs on. -/
def Options.repairing (o : Options) : Options :=
  { o with repairBlankText := true, repairChecked := true }

variable {ι : Type}

/-! ## Restricting a program -/

/-- **What the options leave of an instruction**: a repair is cut down to what they ask for, and
left out once there is nothing to repair. -/
def Opcode.restrict? (o : Options) : Opcode ι → Option (Opcode ι)
  | .repairClonedNode blanks checked =>
    let blanks := if o.repairBlankText then blanks else []
    let checked := o.repairChecked && checked
    if blanks.isEmpty && !checked then none else some (.repairClonedNode blanks checked)
  | op => some op

mutual

/-- **What the options leave of a program**, and of every program nested in it. -/
def Program.restrict (o : Options) : Program ι → Program ι
  | ⟨opcodes, children⟩ => ⟨opcodes.filterMap (Opcode.restrict? o), restrictAll o children⟩

/-- `restrict` along a list of programs. -/
def restrictAll (o : Options) : List (Program ι) → List (Program ι)
  | [] => []
  | p :: ps => p.restrict o :: restrictAll o ps

end

theorem restrictAll_eq_map (o : Options) (ps : List (Program ι)) :
    restrictAll o ps = ps.map (Program.restrict o) := by
  induction ps with
  | nil => rw [restrictAll, List.map_nil]
  | cons p ps ih => rw [restrictAll, List.map_cons, ih]

/-! ### Instructions that stay -/

namespace Opcode

variable {o : Options} {op op' : Opcode ι}

/-- Only repairs are cut down, and they stay repairs. -/
theorem restrict?_cases (h : op.restrict? o = some op') :
    op' = op ∨ ∃ blanks checked blanks' checked',
      op = .repairClonedNode blanks checked ∧ op' = .repairClonedNode blanks' checked' := by
  cases op with
  | repairClonedNode blanks checked =>
    rw [restrict?] at h
    generalize (if o.repairBlankText then blanks else []) = blanks' at h
    split at h
    · exact absurd h (by simp)
    · exact .inr ⟨blanks, checked, _, _, rfl, (Option.some.inj h).symm⟩
  | _ => exact .inl (Option.some.inj h).symm

theorem isAnchor_of_restrict? (h : op.restrict? o = some op') : op'.isAnchor = op.isAnchor := by
  obtain rfl | ⟨_, _, _, _, rfl, rfl⟩ := restrict?_cases h <;> rfl

theorem isMorph_of_restrict? (h : op.restrict? o = some op') : op'.isMorph = op.isMorph := by
  obtain rfl | ⟨_, _, _, _, rfl, rfl⟩ := restrict?_cases h <;> rfl

theorem restrict?_of_isAnchor (h : op.isAnchor) : op.restrict? o = some op := by
  cases op <;> first | rfl | exact absurd h Bool.false_ne_true

theorem restrict?_of_isOperand (h : op.isOperand) : op.restrict? o = some op := by
  cases op <;> first | rfl | exact absurd h Bool.false_ne_true

theorem restrict?_of_isVerb (h : op.isVerb) : op.restrict? o = some op := by
  cases op <;> first | rfl | exact absurd h Bool.false_ne_true

end Opcode

/-- **Restricting a stream moves none of its morphs.** -/
theorem restrict_hoist (o : Options) (ops : List (Opcode ι)) :
    (hoist ops).filterMap (Opcode.restrict? o) = hoist (ops.filterMap (Opcode.restrict? o)) := by
  refine (hoistBy_filterMap (fun _ _ h => ?_) (fun _ _ h => ?_) (fun _ h => ?_) ops).symm
  · exact Opcode.isAnchor_of_restrict? h
  · exact Opcode.isMorph_of_restrict? h
  · rw [Opcode.restrict?_of_isAnchor h]
    rfl

/-! ## Streams -/

/-- **A full repair is cut down to what is written in its place.** -/
theorem restrict_repair (o : Options) (blanks : List ι) (checked : Bool) :
    (Assembler.repair o.repairing blanks checked).filterMap (Opcode.restrict? o) =
      Assembler.repair o blanks checked := by
  obtain ⟨blankText, checks, threshold⟩ := o
  cases blanks <;> cases checked <;> cases blankText <;> cases checks <;> rfl

variable [Counter ι]

theorem restrict_tag (o : Options) (n : Numbers) (ν : Node) (e : Element) :
    (ν.tag o.repairing n e : List (Opcode ι)).filterMap (Opcode.restrict? o) = ν.tag o n e := by
  have he : ν.isEager ι o.repairing = ν.isEager ι o := rfl
  have hk : ∀ op ∈ (if ν.isEager ι o then [.element (ofNat n.references)] else [] :
      List (Opcode ι)), op.restrict? o = some op := by
    intro op hop
    split at hop
    · rw [List.mem_singleton.mp hop]
      rfl
    · exact absurd hop List.not_mem_nil
  have hb : ∀ op ∈ bindings (ofNat n.references : ι) (ν.isEager ι o) e.phrases,
      op.restrict? o = some op := by
    intro op hop
    refine forall_mem_bindings (P := fun op => op.restrict? o = some op) ?_ rfl ?_ hop
    · exact fun p _ op hop => Opcode.restrict?_of_isOperand (p.isOperands op hop)
    · exact fun p _ => Opcode.restrict?_of_isVerb (p.isVerb _)
  rw [Node.tag, he, List.filterMap_append, List.filterMap_append, filterMap_eq_self hk,
    restrict_repair, filterMap_eq_self hb]
  rfl

theorem restrict_opening (o : Options) (n : Numbers) (ν : Node) :
    (ν.opening o.repairing n : List (Opcode ι)).filterMap (Opcode.restrict? o) =
      ν.opening o n := by
  rcases ν.statement.trichotomy (ι := ι) n.programs with ⟨e, he⟩ | ⟨hs, hd⟩ | ⟨-, -, p, hp⟩
  · rw [Node.opening, Node.opening, he]
    simp only [List.filterMap_append, restrict_tag]
    cases ν.isSole <;> rfl
  · rw [Node.opening_of_static _ n hs hd, Node.opening_of_static _ n hs hd, List.filterMap_nil]
  · rw [Node.opening_of_phrase _ hp, Node.opening_of_phrase _ hp]
    refine filterMap_eq_self fun op hop => ?_
    rw [List.mem_cons, Phrase.opcodes, List.mem_append, List.mem_singleton] at hop
    rcases hop with rfl | hop | rfl
    · rfl
    · exact Opcode.restrict?_of_isOperand (p.isOperands op hop)
    · exact Opcode.restrict?_of_isVerb (p.isVerb _)

/-- **What a step writes is what it writes with both repairs on, restricted.** -/
theorem restrict_visit (o : Options) (n : Numbers) (v : Visit) :
    (v.opcodes o.repairing n : List (Opcode ι)).filterMap (Opcode.restrict? o) =
      v.opcodes o n := by
  cases v with
  | enter ν => exact restrict_opening o n ν
  | leave ν =>
    refine filterMap_eq_self fun op hop => ?_
    rw [eq_popParent_of_mem_closing hop]
    rfl

theorem restrict_stream (o : Options) (n : Numbers) (vs : List Visit) :
    (stream o.repairing n vs : List (Opcode ι)).filterMap (Opcode.restrict? o) =
      stream o n vs := by
  induction vs generalizing n with
  | nil => rfl
  | cons v vs ih =>
    -- Repairs give out no number, so that both streams go on with the same ones.
    have hn : n.step ι o.repairing v = n.step ι o v := rfl
    rw [stream, stream, List.filterMap_append, restrict_visit, hn, ih]

theorem restrict_header (o : Options) (f : Fragment) :
    (f.header o.repairing : List (Opcode ι)).filterMap (Opcode.restrict? o) = f.header o := by
  rw [Fragment.header, List.filterMap_append, restrict_repair, Fragment.header]
  refine congrArg (· ++ _) (filterMap_eq_self fun op hop => ?_)
  obtain ⟨⟨name, i⟩, -, rfl⟩ := List.mem_map.mp hop
  rfl

/-! ## Programs -/

/-- **The program of a fragment is that with both repairs on, restricted.** -/
theorem restrict_output [Lawful ι] (o : Options) {f : Fragment} (hv : f.violations = []) :
    (f.output o.repairing : Program ι).restrict o = f.output o := by
  induction f using Fragment.nested_induction with
  | step f ih =>
    have hn : (f.nested.map (Fragment.output o.repairing)).map (Program.restrict o) =
        (f.nested.map (Fragment.output o) : List (Program ι)) := by
      rw [List.map_map]
      exact List.map_congr_left fun g hg => ih g hg (violations_of_nested hv hg)
    rw [output_eq _ hv, output_eq o hv, Program.restrict, restrictAll_eq_map, hn, restrict_hoist,
      Fragment.stream, List.filterMap_append, restrict_header, restrict_stream]
    rfl

/-- **Turning repairs off only removes repairs**: with any options, a template has the program that
it has with both repairs on, restricted to what the options ask for, or is refused in the same
way. -/
theorem program_restricts (t : Template) (o : Options) :
    t.program o = (t.program o.repairing).map (Program.restrict o) := by
  cases hv : t.root.violations.head? with
  | some v => rw [program_of_violation o hv, program_of_violation o.repairing hv, Except.map]
  | none =>
    have hv := List.head?_eq_none_iff.mp hv
    rw [program_of_valid o hv, program_of_valid o.repairing hv, Except.map, restrict_output o hv]

end Hydration
