import Hydration.Proofs.Precedence
import Hydration.Proofs.Reading

/-!
# Proofs/References — which element a reference is to

A reference to an element is given out at most once, when the element is opened or at its first use
in the tag, and the assembler remembers only the last one. Everything a stream says of references is
one list: for each element that has one, in document order, the instruction that keeps it and then
all that is bound to it, executed at the address of the element (`references_walkLog`).

* `program_references_agree`: the references of a program, and of every program nested in it, are
  numbered in document order, kept at the addresses of their elements, and what is bound in a tag is
  bound to its own element, after that is kept.
-/

namespace Hydration

open Template Counter

/-! ## Instructions about references -/

namespace Opcode

variable {ι : Type}

/-- The instruction is about an element. -/
def isReference (op : Opcode ι) : Bool := op.keeps?.isSome || op.bindsTo?.isSome

theorem isMorph_of_isReference {op : Opcode ι} (h : op.isReference) : op.isMorph = false := by
  cases op <;> first | rfl | exact absurd h Bool.false_ne_true

theorem isReference_of_isOperand {op : Opcode ι} (h : op.isOperand) : op.isReference = false := by
  cases op <;> first | rfl | exact absurd h Bool.false_ne_true

theorem isReference_of_fills? {op : Opcode ι} {number : ι} (h : op.fills? = some number) :
    op.isReference = false := by
  cases op <;> first | rfl | exact absurd h (by simp [fills?])

end Opcode

namespace Template

/-- **How much is filled in on an element**: its dynamic attributes, its helpers, and the dynamic
statements right inside it. -/
def Element.dependents (e : Element) : Nat :=
  (e.attributes.filter (!·.isStatic)).length + e.helpers.length +
    (e.children.filter (·.isDynamic)).length

/-- These are the uses that the compiler counts. -/
theorem Element.uses_eq (e : Element) : e.uses = e.dependents := by
  rw [uses, dependents, List.countP_eq_length_filter, List.countP_eq_length_filter]

/-- **The element needs a reference**: something in its tag is bound to it, or enough is filled in
on it and it is not the only root. -/
def Node.NeedsReference (o : Options) (ν : Node) : Prop :=
  ∃ e, ν.statement = .element e ∧ ((∃ a ∈ e.attributes, a.isStatic = false) ∨ e.helpers ≠ [] ∨
    (ν.isSole = false ∧ o.cacheThreshold.toNat < e.dependents))

/-- **The elements with a reference**, in document order. -/
def Fragment.referenced (o : Options) (f : Fragment) : List Node :=
  f.nodes.filter (·.isReferenced Nat o)

/-- **What is bound in the tag of an element**, to the one kept under a number: its dynamic
attributes, then its helpers. -/
def Element.verbs (e : Element) (number : Nat) : List (Opcode Nat) :=
  ((e.attributes.filter (!·.isStatic)).map fun a =>
      .attribute a.quoted a.name a.value.length number) ++
    e.helpers.map fun c => .nodeHelper c.params.length number

/-- What is bound in the tag of a node. -/
def Node.verbs (ν : Node) (number : Nat) : List (Opcode Nat) :=
  match ν.statement with
  | .element e => e.verbs number
  | _ => []

/-- The phrases in the tag of a node, if it is an element. -/
def Node.phrases {ι : Type} [Counter ι] (ν : Node) : List (Phrase ι) :=
  match ν.statement with
  | .element e => e.phrases
  | _ => []

theorem Node.isReferenced_iff {o : Options} {ν : Node} :
    ν.isReferenced Nat o = true ↔ ν.NeedsReference o := by
  obtain ⟨path, index, siblings, s⟩ := ν
  cases s with
  | element e =>
    simp only [isReferenced, isEager, NeedsReference, e.isEmpty_phrases, e.uses_eq,
      Statement.element.injEq, exists_eq_left', toNat_nat, ofNat_nat, Bool.or_eq_true,
      Bool.and_eq_true, Bool.not_eq_true', Bool.and_eq_false_iff, List.all_eq_false,
      decide_eq_true_eq, List.isEmpty_eq_false_iff, Bool.not_eq_true]
    exact or_comm.trans or_assoc
  | text _ | comment _ | mustache _ | block _ | component _ =>
    simp [isReferenced, NeedsReference]

theorem Node.isElement_of_isReferenced {ι : Type} [Counter ι] {o : Options} {ν : Node}
    (h : ν.isReferenced ι o = true) : ν.statement.isElement = true := by
  obtain ⟨path, index, siblings, s⟩ := ν
  cases s with
  | element _ => rfl
  | text _ | comment _ | mustache _ | block _ | component _ => exact absurd h Bool.false_ne_true

/-- Without a reference, nothing is bound in the tag. -/
theorem Node.phrases_of_not_isReferenced {ι : Type} [Counter ι] {o : Options} {ν : Node}
    (h : ν.isReferenced ι o = false) : (ν.phrases : List (Phrase ι)) = [] := by
  obtain ⟨path, index, siblings, s⟩ := ν
  cases s with
  | element e =>
    have hp : (!(e.phrases : List (Phrase ι)).isEmpty) = false := (Bool.or_eq_false_iff.mp h).2
    change (e.phrases : List (Phrase ι)) = []
    simpa using hp
  | text _ | comment _ | mustache _ | block _ | component _ => rfl

theorem Node.verbs_eq (ν : Node) (number : Nat) :
    ν.verbs number = (ν.phrases : List (Phrase Nat)).map (·.verb number) := by
  obtain ⟨path, index, siblings, s⟩ := ν
  cases s with
  | element e =>
    change e.verbs number = (e.phrases : List (Phrase Nat)).map (·.verb number)
    rw [Element.phrases, List.map_append, List.map_map, List.map_map]
    rfl
  | text _ | comment _ | mustache _ | block _ | component _ => rfl

/-- What is bound in the tag of a node is bound to it. -/
theorem Node.bindsTo?_of_mem_phrases {ι : Type} [Counter ι] {ν : Node} {p : Phrase ι}
    (h : p ∈ ν.phrases) (element : ι) : (p.verb element).bindsTo? = some element := by
  obtain ⟨path, index, siblings, s⟩ := ν
  cases s with
  | element e => exact Element.bindsTo?_of_mem_phrases h element
  | text _ | comment _ | mustache _ | block _ | component _ => exact absurd h List.not_mem_nil

theorem bindsTo?_of_mem_verbs {ν : Node} {number : Nat} {op : Opcode Nat}
    (h : op ∈ ν.verbs number) : op.bindsTo? = some number := by
  rw [ν.verbs_eq] at h
  obtain ⟨p, hp, rfl⟩ := List.mem_map.mp h
  exact Node.bindsTo?_of_mem_phrases hp number

end Template

/-! ## What a stream says of references -/

section

variable {ι : Type}

theorem filter_isReference_eq_nil {ops : List (Opcode ι)}
    (h : ∀ op ∈ ops, op.isReference = false) : ops.filter Opcode.isReference = [] :=
  List.filter_eq_nil_iff.mpr fun op hop => Bool.eq_false_iff.mp (h op hop)

/-- **Phrases on an element**: it is kept before the first of them, unless that is done already, and
each is bound to it. -/
theorem filter_bindings {ps : List (Phrase ι)} {number : ι}
    (hb : ∀ p ∈ ps, (p.verb number).isReference) (referenced : Bool) :
    (bindings number referenced ps).filter Opcode.isReference =
      if ps.isEmpty then []
      else (if referenced then [] else [.element number]) ++ ps.map (·.verb number) := by
  induction ps generalizing referenced with
  | nil => rfl
  | cons p ps ih =>
    have hp : p.operands.opcodes.filter Opcode.isReference = [] :=
      filter_isReference_eq_nil fun op hop => Opcode.isReference_of_isOperand (p.isOperands op hop)
    have he : (if referenced then [] else [Opcode.element number]).filter Opcode.isReference =
        if referenced then [] else [.element number] := by
      cases referenced <;> rfl
    have hr : (bindings number true ps).filter Opcode.isReference = ps.map (·.verb number) := by
      rw [ih (fun q hq => hb q (List.mem_cons_of_mem p hq)) true]
      cases ps <;> rfl
    rw [bindings, List.filter_append, List.filter_append, List.filter_append, hp, he, hr,
      List.filter_singleton, hb p List.mem_cons_self]
    simp

variable [Counter ι]

/-- **An element with a reference is kept once, and then used.** -/
theorem references_tag (o : Options) (n : Numbers) {ν : Node} {e : Element}
    (he : ν.statement = .element e) :
    (ν.tag o n e : List (Opcode ι)).filter Opcode.isReference =
      if ν.isReferenced ι o then
        .element (ofNat n.references) :: ν.phrases.map (·.verb (ofNat n.references)) else [] := by
  have hb : ∀ p ∈ (e.phrases : List (Phrase ι)), (p.verb (ofNat n.references)).isReference := by
    intro p hp
    simp [Opcode.isReference, Element.bindsTo?_of_mem_phrases hp]
  have hi : (if ν.isEager ι o then [Opcode.element (ofNat n.references : ι)] else []).filter
      Opcode.isReference = if ν.isEager ι o then [.element (ofNat n.references)] else [] := by
    cases ν.isEager ι o <;> rfl
  have hr : (Assembler.repair o (blanks e.children : List ι) e.isChecked).filter
      Opcode.isReference = [] := by
    refine filter_isReference_eq_nil fun op hop => ?_
    obtain ⟨_, _, rfl⟩ := eq_of_mem_repair hop
    rfl
  have hn : ν.isReferenced ι o = (ν.isEager ι o || !(e.phrases : List (Phrase ι)).isEmpty) := by
    rw [Node.isReferenced, he]
  have hp : (ν.phrases : List (Phrase ι)) = e.phrases := by rw [Node.phrases, he]
  rw [Node.tag, List.filter_append, List.filter_append, hi, hr, filter_bindings hb, hn, hp]
  cases ν.isEager ι o <;> cases (e.phrases : List (Phrase ι)) <;> rfl

theorem references_opening (o : Options) (n : Numbers) (ν : Node) :
    (ν.opening o n : List (Opcode ι)).filter Opcode.isReference =
      if ν.isReferenced ι o then
        .element (ofNat n.references) :: ν.phrases.map (·.verb (ofNat n.references)) else [] := by
  have hn (hs : ν.statement.isElement = false) : ν.isReferenced ι o = false :=
    Bool.eq_false_iff.mpr fun h => Bool.false_ne_true
      (hs.symm.trans (Node.isElement_of_isReferenced h))
  rcases ν.statement.trichotomy (ι := ι) n.programs with ⟨e, he⟩ | ⟨hs, hd⟩ | ⟨hs, -, p, hp⟩
  · have hc : (if ν.isSole then [] else [Opcode.consumeParent (ofNat ν.index : ι)]).filter
        Opcode.isReference = [] := by
      cases ν.isSole <;> rfl
    rw [← references_tag o n he, Node.opening, he]
    simp only [List.filter_append, hc, List.nil_append]
  · rw [Node.opening_of_static o n hs hd, hn hs]
    rfl
  · rw [hn hs, if_neg Bool.false_ne_true, Node.opening_of_phrase o hp]
    refine filter_isReference_eq_nil fun op hop => ?_
    rw [List.mem_cons, Phrase.opcodes, List.mem_append, List.mem_singleton] at hop
    rcases hop with rfl | hop | rfl
    · rfl
    · exact Opcode.isReference_of_isOperand (p.isOperands op hop)
    · exact Opcode.isReference_of_fills? (Statement.fills?_of_phrase? hp _)

/-- What comes before a walk has nothing to do with references. -/
theorem references_header (o : Options) (f : Fragment) :
    (f.header o : List (Opcode ι)).filter Opcode.isReference = [] :=
  filter_isReference_eq_nil fun _ hop => forall_mem_header (P := fun op => op.isReference = false)
    (fun _ _ => rfl) (fun _ _ => rfl) hop

omit [Counter ι] in
/-- Leaving a node has nothing to do with references. -/
theorem references_closing (ν : Node) :
    (ν.closing : List (Opcode ι)).filter Opcode.isReference = [] := by
  refine filter_isReference_eq_nil fun op hop => ?_
  rw [eq_popParent_of_mem_closing hop]
  rfl

end

/-- What the references numbered from `number` on are used for: each element is kept, and then
all in its tag is bound to it. -/
def referenceLog (number : Nat) : List Node → List (Opcode Nat × List Nat)
  | [] => []
  | ν :: νs =>
    (.element number, ν.address) :: (ν.verbs number).map (·, ν.address) ++
      referenceLog (number + 1) νs

/-- **All that a walk says of references**, in document order. -/
theorem references_walkLog (o : Options) (n : Numbers) (vs : List Visit) :
    (walkLog o n vs : List (Opcode Nat × List Nat)).filter (·.1.isReference) =
      referenceLog n.references
        ((vs.filterMap Visit.entered?).filter (·.isReferenced Nat o)) := by
  induction vs generalizing n with
  | nil => rfl
  | cons v vs ih =>
    rw [walkLog, List.filter_append, ih, List.filter_map]
    cases v with
    | enter ν =>
      have hr : (Visit.opcodes o n (.enter ν) : List (Opcode Nat)).filter Opcode.isReference =
          if ν.isReferenced Nat o then .element n.references :: ν.verbs n.references else [] := by
        rw [ν.verbs_eq]
        exact references_opening o n ν
      have he : (Visit.enter ν :: vs).filterMap Visit.entered? =
        ν :: vs.filterMap Visit.entered? := rfl
      simp only [Function.comp_def, hr, he]
      cases hc : ν.isReferenced Nat o with
      | false => simp [hc, Numbers.step]
      | true =>
        obtain ⟨e, hs, -⟩ := Node.isReferenced_iff.mp hc
        have ha : (Visit.enter ν).scope = ν.address := by
          simp [Visit.scope, hs, Statement.isElement]
        simp [hc, ha, Numbers.step, referenceLog]
    | leave ν =>
      simp only [Function.comp_def, Visit.opcodes, references_closing]
      rfl

/-- **All that a fragment says of references**, hoisted or not. -/
theorem references_log (o : Options) (f : Fragment) :
    (hoistLog (f.log o) : List (Opcode Nat × List Nat)).filter (·.1.isReference) =
      referenceLog 0 (f.referenced o) := by
  have hm : ∀ e : Opcode Nat × List Nat, e.1.isReference → e.1.isMorph = false :=
    fun _ h => Opcode.isMorph_of_isReference h
  have hh : ((f.header o : List (Opcode Nat)).map (·, (f.startScope.map ofNat : List Nat))).filter
      (·.1.isReference) = [] := by
    rw [List.filter_map, Function.comp_def]
    simp only [references_header]
    rfl
  rw [hoistLog, filter_hoistBy hm, Fragment.log, List.filter_append, hh, List.nil_append,
    references_walkLog, Fragment.visits, entered_visits]
  rfl

/-! ### Read off the log -/

/-- The reference an instruction keeps, and where. -/
def kept? (e : Opcode Nat × List Nat) : Option (Nat × List Nat) := e.1.keeps?.map (·, e.2)

theorem kept_referenceLog (number : Nat) (νs : List Node) :
    (referenceLog number νs).filterMap kept? =
      (νs.zipIdx number).map fun (ν, k) => (k, ν.address) := by
  induction νs generalizing number with
  | nil => rfl
  | cons ν νs ih =>
    have hv : ((ν.verbs number).map (·, ν.address)).filterMap kept? = [] := by
      refine List.filterMap_eq_nil_iff.mpr fun e he => ?_
      obtain ⟨op, hop, rfl⟩ := List.mem_map.mp he
      have hb := bindsTo?_of_mem_verbs hop
      cases op <;> first | rfl | exact absurd hb (by simp [Opcode.bindsTo?])
    have hk : kept? (.element number, ν.address) = some (number, ν.address) := rfl
    rw [referenceLog, List.filterMap_append, List.filterMap_cons_some hk, hv, ih]
    rfl

theorem bound_referenceLog (number : Nat) (νs : List Node) :
    (referenceLog number νs).filter (·.1.bindsTo?.isSome) =
      (νs.zipIdx number).flatMap fun (ν, k) => (ν.verbs k).map (·, ν.address) := by
  induction νs generalizing number with
  | nil => rfl
  | cons ν νs ih =>
    have hv : ((ν.verbs number).map (·, ν.address)).filter (·.1.bindsTo?.isSome) =
        (ν.verbs number).map (·, ν.address) := by
      refine List.filter_eq_self.mpr fun e he => ?_
      obtain ⟨op, hop, rfl⟩ := List.mem_map.mp he
      simp [bindsTo?_of_mem_verbs hop]
    rw [referenceLog, List.filter_append, List.filter_cons_of_neg Bool.false_ne_true, hv, ih]
    rfl

/-- Something is bound to an element where that is current, and after it is kept there. -/
def BoundAfter (log : List (Opcode Nat × List Nat)) : Prop :=
  Preceded (fun kept use => use.1.bindsTo?.map (fun k => (.element k, use.2)) = some kept)
    (·.1.bindsTo?.isSome) log

theorem boundAfter_referenceLog (number : Nat) (νs : List Node) :
    BoundAfter (referenceLog number νs) := by
  induction νs generalizing number with
  | nil => exact preceded_nil
  | cons ν νs ih =>
    have hν : BoundAfter ((.element number, ν.address) ::
        (ν.verbs number).map (·, ν.address)) := by
      refine preceded_cons Bool.false_ne_true fun e he _ => ?_
      obtain ⟨op, hop, rfl⟩ := List.mem_map.mp he
      simp [bindsTo?_of_mem_verbs hop]
    exact hν.append (ih (number + 1))

/-! ## Programs -/

/-- **A log that keeps the elements of a fragment** and binds what is in their tags to them. -/
structure Template.Fragment.Refers (o : Options) (f : Fragment)
    (log : List (Opcode Nat × List Nat)) : Prop where
  /-- The elements with a reference are those that need one… -/
  complete : ∀ ν, ν ∈ f.referenced o ↔ f.Contains ν ∧ ν.NeedsReference o
  /-- …in document order. -/
  ordered : (f.referenced o).Pairwise fun μ ν => μ.address < ν.address
  /-- The `k`-th of them is kept under the number `k`, where it is current. -/
  kept : log.filterMap kept? = (f.referenced o).zipIdx.map fun (ν, k) => (k, ν.address)
  /-- What is in their tags is bound to them, where they are current… -/
  bound : log.filter (·.1.bindsTo?.isSome) =
    (f.referenced o).zipIdx.flatMap fun (ν, k) => (ν.verbs k).map (·, ν.address)
  /-- …and after they are kept. -/
  after : ∀ front op scope back, log = front ++ (op, scope) :: back →
    ∀ k, op.bindsTo? = some k → (.element k, scope) ∈ front

theorem refers_log (o : Options) (f : Fragment) : f.Refers o (hoistLog (f.log o)) := by
  have hlog := references_log o f
  refine ⟨fun ν => ?_, (pairwise_nodes [] f.body.length 0 f.body).filter _, ?_, ?_, ?_⟩
  · rw [Fragment.referenced, List.mem_filter, mem_nodes, Node.isReferenced_iff]
  · have hk : ∀ e : Opcode Nat × List Nat, (kept? e).isSome → e.1.isReference := by
      intro e he
      simp [Opcode.isReference, (Option.isSome_map ▸ he : e.1.keeps?.isSome)]
    rw [← filterMap_filter_of_isSome hk, hlog, kept_referenceLog]
  · have hb : ∀ e : Opcode Nat × List Nat, (e.1.bindsTo?.isSome && e.1.isReference) =
        e.1.bindsTo?.isSome := by
      intro e
      cases h : e.1.bindsTo?.isSome <;> simp [Opcode.isReference, h]
    rw [← bound_referenceLog, ← hlog, List.filter_filter]
    simp only [hb]
  · -- Nothing but references and their uses has a part in this, so the rest may be left out.
    have hp : BoundAfter (hoistLog (f.log o)) := by
      refine Preceded.of_filter (q := (·.1.isReference)) (fun e he => ?_) ?_
      · simp [Opcode.isReference, he]
      · rw [hlog]
        exact boundAfter_referenceLog 0 (f.referenced o)
    intro front op scope back hsplit k hk
    obtain ⟨kept, hmem, hkept⟩ := hp front (op, scope) back hsplit (by simp [hk])
    obtain rfl : (.element k, scope) = kept := by simpa [hk] using hkept
    exact hmem

/-- **The references of a program are to the elements of its fragment.** -/
structure ReferencesAgree (o : Options) (f : Fragment) (p : Program UInt32) : Prop where
  /-- They are numbered from zero on in the order of the stream. -/
  numbered : (p.opcodes.filterMap Opcode.keeps?).map Counter.toNat =
    List.range (f.referenced o).length
  /-- They are kept and used where their elements are current. -/
  refers : ∃ log, replay f.startScope.length (f.startScope.map ofNat) p.opcodes =
    some (log, f.startScope.map ofNat) ∧ f.Refers o (log.map readEntry)

theorem keeps?_read {ι : Type} [Counter ι] (op : Opcode ι) :
    op.read.keeps? = op.keeps?.map Counter.toNat := by
  cases op <;> rfl

theorem referencesAgree (o : Options) {f : Fragment} (hf : f.size < 2 ^ 32)
    (children : List (Program UInt32)) : ReferencesAgree o f ⟨hoist (f.stream o), children⟩ := by
  refine ⟨?_, _, replay_hoist (replay_fragment o f), ?_⟩
  · have hr : (hoistLog (f.log o) : List (Opcode Nat × List Nat)).map Prod.fst =
        hoist (f.stream o) := map_fst_of_replay (replay_hoist (replay_fragment (ι := Nat) o f))
    have hk : (hoist (f.stream o) : List (Opcode Nat)).filterMap Opcode.keeps? =
        ((hoistLog (f.log o)).filterMap kept?).map Prod.fst := by
      rw [← hr, List.filterMap_map, List.map_filterMap]
      refine congrArg (List.filterMap · _) (funext fun e => ?_)
      simp [kept?, Function.comp_def]
    rw [map_filterMap_of_read keeps?_read, read_fragment o hf, hk, (refers_log o f).kept,
      List.map_map, List.range_eq_range', ← List.zipIdx_map_snd]
    rfl
  · rw [read_log o hf]
    exact refers_log o f

/-- **The references of a program are to the elements of its fragment**: numbered and kept in
document order, each at the address of its element, before anything in the tag is bound to it; and
so are those of every program nested in it. -/
theorem program_references_agree {t : Template} {o : Options} {p : Program UInt32}
    (hs : t.root.size < 2 ^ 32) (h : t.program o = .ok p) :
    Throughout (ReferencesAgree o) t.root p := by
  refine throughout_of_program (H := fun f => f.size < 2 ^ 32) ?_ ?_ h hs
  · intro f g hf hg
    exact (size_lt_of_mem_nested hg).trans hf
  · intro f _ hf
    exact referencesAgree o hf _

theorem program_references_agree_roster :
    Template.roster.root.size < 2 ^ 32 ∧ ∃ p, Template.roster.program {} = .ok p ∧
      Throughout (ReferencesAgree {}) Template.roster.root p := by
  have hs : Template.roster.root.size < 2 ^ 32 := by decide +kernel
  obtain ⟨p, hp⟩ := roster_compiles
  exact ⟨hs, p, hp, program_references_agree hs hp⟩

end Hydration
