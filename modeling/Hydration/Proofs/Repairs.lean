import Hydration.Proofs.Reading
import Hydration.Proofs.Restriction

/-!
# Proofs/Repairs — what cloning loses is put back

Cloning loses text nodes without characters and the `checked` state of elements. A *site* is a node
at which something can be lost: the fragment itself, or one of its elements. With both repairs on, a
program has one repair for each site that loses something, in document order.

A repair has to come while its node is still as it was cloned: before anything is bound to the node,
and before its children are entered. What a log says of all this is one list of marks: each element
is entered, repaired, and then bound to (`marks_log`).

* `program_restores`: the repairs of a program, and of every program nested in it, put back exactly
  what is lost, at the right nodes and in time.
-/

namespace Hydration

open Template Counter

/-! ## Sites -/

namespace Template

/-- The statement at a position is a text without characters. -/
def BlankAt (statements : List Statement) (i : Nat) : Prop :=
  ∃ t : TextNode, statements[i]? = some (.text t) ∧ t.chars = ""

/-- **A node at which cloning may lose something**: where it is, what is inside it, and whether it
has a `checked` state. -/
structure Site where
  address : List Nat
  children : List Statement
  checked : Bool

/-- Cloning loses something there. -/
def Site.Lossy (σ : Site) : Prop := (∃ i, BlankAt σ.children i) ∨ σ.checked = true

/-- …which can be checked. -/
def Site.isLossy (σ : Site) : Bool := σ.children.any Statement.isBlank || σ.checked

/-- The fragment itself. -/
def Fragment.site (f : Fragment) : Site := ⟨[], f.body, false⟩

/-- The site of an element. -/
def Node.site? (ν : Node) : Option Site :=
  match ν.statement with
  | .element e => some ⟨ν.address, e.children, e.isChecked⟩
  | _ => none

/-- **The sites of a fragment at which something is lost**: itself, then its elements in document
order. -/
def Fragment.lossy (f : Fragment) : List Site :=
  (f.site :: f.nodes.filterMap Node.site?).filter Site.isLossy

/-- **The fragment has the site**: it is the fragment itself, or one of its elements, with a
`checked` state if one of its attributes has that name. -/
def Fragment.HasSite (f : Fragment) (σ : Site) : Prop :=
  σ = ⟨[], f.body, false⟩ ∨ ∃ ν e, f.Contains ν ∧ ν.statement = .element e ∧
    σ.address = ν.address ∧ σ.children = e.children ∧
      (σ.checked = true ↔ ∃ a ∈ e.attributes, a.name = "checked")

theorem Statement.isBlank_iff {s : Statement} :
    s.isBlank = true ↔ ∃ t : TextNode, s = .text t ∧ t.chars = "" := by
  cases s <;> simp [isBlank]

/-- **The positions of blank texts are listed exactly**… -/
theorem mem_blanks {statements : List Statement} {i : Nat} :
    i ∈ (blanks statements : List Nat) ↔ BlankAt statements i := by
  rw [blanks, List.mem_map]
  constructor
  · rintro ⟨⟨s, j⟩, hs, rfl⟩
    obtain ⟨hm, hb⟩ := List.mem_filter.mp hs
    obtain ⟨t, rfl, ht⟩ := Statement.isBlank_iff.mp hb
    exact ⟨t, List.mem_zipIdx_iff_getElem?.mp hm, ht⟩
  · rintro ⟨t, hs, ht⟩
    refine ⟨(.text t, i), List.mem_filter.mpr ⟨List.mem_zipIdx_iff_getElem?.mpr hs, ?_⟩, rfl⟩
    exact Statement.isBlank_iff.mpr ⟨t, rfl, ht⟩

/-- …and in order. -/
theorem pairwise_blanks (statements : List Statement) :
    (blanks statements : List Nat).Pairwise (· < ·) := by
  have hz : (statements.zipIdx.map Prod.snd).Pairwise (· < ·) := by
    rw [List.zipIdx_map_snd]
    exact List.pairwise_lt_range'
  rw [blanks, List.pairwise_map]
  exact (List.pairwise_map.mp hz).filter _

theorem any_isBlank {statements : List Statement} :
    statements.any Statement.isBlank = true ↔ ∃ i, BlankAt statements i := by
  rw [List.any_eq_true]
  constructor
  · rintro ⟨s, hs, hb⟩
    obtain ⟨i, hi⟩ := List.mem_iff_getElem?.mp hs
    obtain ⟨t, rfl, ht⟩ := Statement.isBlank_iff.mp hb
    exact ⟨i, t, hi, ht⟩
  · rintro ⟨i, t, hi, ht⟩
    exact ⟨.text t, List.mem_of_getElem? hi, Statement.isBlank_iff.mpr ⟨t, rfl, ht⟩⟩

theorem isEmpty_blanks (statements : List Statement) :
    (blanks statements : List Nat).isEmpty = !statements.any Statement.isBlank := by
  rw [Bool.eq_iff_iff, Bool.not_eq_true', ← Bool.not_eq_true, any_isBlank, not_exists,
    List.isEmpty_iff, List.eq_nil_iff_forall_not_mem]
  exact forall_congr' fun i => not_congr mem_blanks

theorem Site.isLossy_iff {σ : Site} : σ.isLossy = true ↔ σ.Lossy := by
  rw [isLossy, Lossy, Bool.or_eq_true, any_isBlank]

theorem Node.eq_of_site? {ν : Node} {σ : Site} (h : ν.site? = some σ) :
    ∃ e, ν.statement = .element e ∧ σ = ⟨ν.address, e.children, e.isChecked⟩ := by
  unfold site? at h
  split at h
  next e he => exact ⟨e, he, (Option.some.inj h).symm⟩
  next => exact absurd h (by simp)

end Template

/-! ## Marks -/

/-- **What happens to a node**, as a log shows it. -/
inductive Mark where
  /-- The node is entered. -/
  | entered
  /-- What cloning lost is put back. -/
  | repaired (blanks : List Nat) (checked : Bool)
  /-- An attribute or helper is bound to it. -/
  | bound
deriving DecidableEq, Repr

/-- The mark an entry of a log leaves, and on which node. -/
def mark? : Opcode Nat × List Nat → Option (Mark × List Nat)
  | (.consumeParent _, scope) => some (.entered, scope)
  | (.repairClonedNode blanks checked, scope) => some (.repaired blanks checked, scope)
  | (.attribute .., scope) | (.nodeHelper .., scope) => some (.bound, scope)
  | _ => none

namespace Template

/-- The mark of a repair, where one is needed. -/
def Site.marks (σ : Site) : List (Mark × List Nat) :=
  if σ.isLossy then [(.repaired (blanks σ.children) σ.checked, σ.address)] else []

/-- How much is bound in the tag of an element: its dynamic attributes and its helpers. -/
def Element.bound (e : Element) : Nat := e.attributes.countP (!·.isStatic) + e.helpers.length

/-- **What happens to an element**: it is entered unless it is the only root, repaired, and bound
to. -/
def Node.marks (ν : Node) : List (Mark × List Nat) :=
  match ν.statement with
  | .element e =>
    (if ν.isSole then [] else [(.entered, ν.address)]) ++
      (Site.marks ⟨ν.address, e.children, e.isChecked⟩ ++
        List.replicate e.bound (.bound, ν.address))
  | _ => []

end Template

/-- Nothing of this happens to other nodes. -/
theorem marks_of_not_isElement {ν : Node} (h : ν.statement.isElement = false) : ν.marks = [] := by
  obtain ⟨path, index, siblings, s⟩ := ν
  cases s with
  | element _ => exact absurd h (by simp [Statement.isElement])
  | text _ | comment _ | mustache _ | block _ | component _ => rfl

theorem marks_eq_nil {ops : List (Opcode Nat)} (scope : List Nat)
    (h : ∀ op ∈ ops, mark? (op, scope) = none) :
    (ops.map (·, scope)).filterMap mark? = [] := by
  refine List.filterMap_eq_nil_iff.mpr fun e he => ?_
  obtain ⟨op, hop, rfl⟩ := List.mem_map.mp he
  exact h op hop

theorem mark?_of_isOperand {op : Opcode Nat} (h : op.isOperand) (scope : List Nat) :
    mark? (op, scope) = none := by
  cases op <;> first | rfl | exact absurd h Bool.false_ne_true

theorem mark?_of_fills? {op : Opcode Nat} {number : Nat} (h : op.fills? = some number)
    (scope : List Nat) : mark? (op, scope) = none := by
  cases op <;> first | rfl | exact absurd h (by simp [Opcode.fills?])

theorem mark?_of_bindsTo? {op : Opcode Nat} {number : Nat} (h : op.bindsTo? = some number)
    (scope : List Nat) : mark? (op, scope) = some (.bound, scope) := by
  cases op <;> first | rfl | exact absurd h (by simp [Opcode.bindsTo?])

/-- **Each phrase on an element marks it once.** -/
theorem marks_bindings {ps : List (Phrase Nat)} {number : Nat}
    (hb : ∀ p ∈ ps, (p.verb number).bindsTo? = some number) (referenced : Bool)
    (scope : List Nat) :
    ((bindings number referenced ps).map (·, scope)).filterMap mark? =
      List.replicate ps.length (.bound, scope) := by
  induction ps generalizing referenced with
  | nil => rfl
  | cons p ps ih =>
    have ho : (p.operands.opcodes.map (·, scope)).filterMap mark? = [] :=
      marks_eq_nil scope fun op hop => mark?_of_isOperand (p.isOperands op hop) scope
    have he : ((if referenced then [] else [Opcode.element number]).map (·, scope)).filterMap
        mark? = [] := by
      cases referenced <;> rfl
    have hv : ([p.verb number].map (·, scope)).filterMap mark? = [(.bound, scope)] := by
      rw [List.map_singleton, List.filterMap_cons_some
        (mark?_of_bindsTo? (hb p List.mem_cons_self) scope), List.filterMap_nil]
    rw [bindings, List.map_append, List.map_append, List.map_append, List.filterMap_append,
      List.filterMap_append, List.filterMap_append, ho, he, hv,
      ih (fun q hq => hb q (List.mem_cons_of_mem p hq)), List.length_cons, List.replicate_succ]
    rfl

/-- A repair is written exactly where something is lost. -/
theorem marks_repair (o : Options) (σ : Site) :
    ((Assembler.repair o.repairing (blanks σ.children) σ.checked).map
      (·, σ.address)).filterMap mark? = σ.marks := by
  have hr : Assembler.repair o.repairing (blanks σ.children : List Nat) σ.checked =
      if σ.isLossy then [.repairClonedNode (blanks σ.children) σ.checked] else [] := by
    change (if (blanks σ.children : List Nat).isEmpty && !(true && σ.checked) then [] else _) = _
    rw [isEmpty_blanks, Bool.true_and, ← Bool.not_or, ← Site.isLossy]
    cases σ.isLossy <;> rfl
  rw [hr, Site.marks]
  cases σ.isLossy <;> rfl

theorem length_phrases (e : Element) : (e.phrases : List (Phrase Nat)).length = e.bound := by
  rw [Element.phrases, List.length_append, List.length_map, List.length_map, Element.bound,
    List.countP_eq_length_filter]

/-- **What the tag of an element marks**: its repair, and all that is bound in it. -/
theorem marks_tag (o : Options) (n : Numbers) (ν : Node) (e : Element) :
    ((ν.tag o.repairing n e : List (Opcode Nat)).map (·, ν.address)).filterMap mark? =
      Site.marks ⟨ν.address, e.children, e.isChecked⟩ ++
        List.replicate e.bound (.bound, ν.address) := by
  have hi : ((if ν.isEager Nat o.repairing then [Opcode.element (ofNat n.references : Nat)]
      else []).map (·, ν.address)).filterMap mark? = [] := by
    cases ν.isEager Nat o.repairing <;> rfl
  rw [Node.tag, List.map_append, List.map_append, List.filterMap_append, List.filterMap_append, hi,
    marks_repair o ⟨ν.address, e.children, e.isChecked⟩, List.nil_append,
    marks_bindings fun p hp => Element.bindsTo?_of_mem_phrases hp _, length_phrases]

/-- **What entering a node marks.** -/
theorem marks_opening (o : Options) (n : Numbers) (ν : Node) :
    ((ν.opening o.repairing n : List (Opcode Nat)).map
      (·, (Visit.enter ν).scope)).filterMap mark? = ν.marks := by
  rcases ν.statement.trichotomy (ι := Nat) n.programs with ⟨e, he⟩ | ⟨hs, hd⟩ | ⟨hs, -, p, hp⟩
  · have ha : (Visit.enter ν).scope = ν.address := by
      rw [Visit.scope, he]
      rfl
    rw [ha, Node.opening, he, List.map_append, List.filterMap_append, marks_tag, Node.marks, he]
    cases ν.isSole <;> rfl
  · rw [Node.opening_of_static _ n hs hd, marks_of_not_isElement hs]
    rfl
  · rw [Node.opening_of_phrase _ hp, marks_of_not_isElement hs]
    refine marks_eq_nil _ fun op hop => ?_
    rw [List.mem_cons, Phrase.opcodes, List.mem_append, List.mem_singleton] at hop
    rcases hop with rfl | hop | rfl
    · rfl
    · exact mark?_of_isOperand (p.isOperands op hop) _
    · exact mark?_of_fills? (Statement.fills?_of_phrase? hp _) _

/-- **What a walk marks**, node by node. -/
theorem marks_walkLog (o : Options) (n : Numbers) (vs : List Visit) :
    (walkLog o.repairing n vs : List (Opcode Nat × List Nat)).filterMap mark? =
      (vs.filterMap Visit.entered?).flatMap Node.marks := by
  induction vs generalizing n with
  | nil => rfl
  | cons v vs ih =>
    rw [walkLog, List.filterMap_append, ih, map_ofNat_nat]
    cases v with
    | enter ν =>
      have he : (Visit.enter ν :: vs).filterMap Visit.entered? =
        ν :: vs.filterMap Visit.entered? := rfl
      rw [he, List.flatMap_cons]
      exact congrArg (· ++ _) (marks_opening o n ν)
    | leave ν =>
      have hc : ((ν.closing : List (Opcode Nat)).map (·, (Visit.leave ν).scope)).filterMap mark? =
          [] := by
        refine marks_eq_nil _ fun op hop => ?_
        rw [eq_popParent_of_mem_closing hop]
        rfl
      rw [Visit.opcodes, hc]
      rfl

/-- A fragment with a text of its own starts outside of its elements. -/
theorem startScope_of_isLossy {f : Fragment} (h : f.site.isLossy = true) : f.startScope = [] := by
  obtain ⟨i, t, hi, -⟩ | h := Site.isLossy_iff.mp h
  · unfold Fragment.startScope
    split
    next e he =>
      rw [Fragment.site, he] at hi
      exact absurd (List.mem_of_getElem? hi) (by simp)
    next => rfl
  · exact absurd h Bool.false_ne_true

theorem marks_header (o : Options) (f : Fragment) :
    ((f.header o.repairing : List (Opcode Nat)).map (·, f.startScope)).filterMap mark? =
      f.site.marks := by
  have hr := marks_repair o ⟨f.startScope, f.body, false⟩
  rw [Fragment.header, List.map_append, List.filterMap_append, hr, marks_eq_nil, List.nil_append]
  · cases h : f.site.isLossy with
    | true =>
      rw [startScope_of_isLossy h]
      rfl
    | false =>
      have h' : Site.isLossy ⟨f.startScope, f.body, false⟩ = false := h
      rw [Site.marks, Site.marks, h, h']
      rfl
  · intro op hop
    obtain ⟨⟨name, i⟩, -, rfl⟩ := List.mem_map.mp hop
    rfl

/-- **What a fragment marks**, hoisted or not: itself, and then each element in document order. -/
theorem marks_log (o : Options) (f : Fragment) :
    (hoistLog (f.log o.repairing) : List (Opcode Nat × List Nat)).filterMap mark? =
      f.site.marks ++ f.nodes.flatMap Node.marks := by
  have hm : ∀ e : Opcode Nat × List Nat, (mark? e).isSome → e.1.isMorph = false := by
    rintro ⟨op, scope⟩ h
    cases op <;> first | rfl | exact absurd h (by simp [mark?])
  rw [hoistLog, filterMap_hoistBy hm, Fragment.log, List.filterMap_append, map_ofNat_nat,
    marks_header, marks_walkLog, Fragment.visits, entered_visits]
  rfl

/-! ### Repairs -/

/-- The instruction is a repair. -/
def Opcode.isRepair {ι : Type} : Opcode ι → Bool
  | .repairClonedNode .. => true
  | _ => false

/-- The entry of a log that left the mark of a repair. -/
def repair? : Mark × List Nat → Option (Opcode Nat × List Nat)
  | (.repaired blanks checked, scope) => some (.repairClonedNode blanks checked, scope)
  | _ => none

theorem filter_isRepair (log : List (Opcode Nat × List Nat)) :
    log.filter (·.1.isRepair) = (log.filterMap mark?).filterMap repair? := by
  rw [List.filterMap_filterMap, ← List.filterMap_eq_filter]
  refine congrArg (List.filterMap · log) (funext fun e => ?_)
  obtain ⟨op, scope⟩ := e
  cases op <;> rfl

/-- The repair a site needs. -/
def Template.Site.repair (σ : Site) : Opcode Nat × List Nat :=
  (.repairClonedNode (blanks σ.children) σ.checked, σ.address)

theorem repairs_site (σ : Site) :
    σ.marks.filterMap repair? = ([σ].filter Site.isLossy).map Site.repair := by
  rw [Site.marks]
  cases h : σ.isLossy <;> simp [h, repair?, Site.repair]

theorem repairs_node (ν : Node) :
    ν.marks.filterMap repair? = (ν.site?.toList.filter Site.isLossy).map Site.repair := by
  obtain ⟨path, index, siblings, s⟩ := ν
  cases s with
  | element e =>
    have hb : ∀ (k : Nat) (scope : List Nat),
        (List.replicate k (Mark.bound, scope)).filterMap repair? = [] := by
      intro k scope
      exact List.filterMap_replicate_of_none rfl
    rw [Node.marks, List.filterMap_append, List.filterMap_append, hb, List.append_nil,
      repairs_site]
    cases (Node.mk path index siblings (.element e)).isSole <;> rfl
  | text _ | comment _ | mustache _ | block _ | component _ => rfl

/-- **The repairs of a log are those that its sites need.** -/
theorem repairs_marks (f : Fragment) :
    (f.site.marks ++ f.nodes.flatMap Node.marks).filterMap repair? = f.lossy.map Site.repair := by
  have hn : ∀ νs : List Node, (νs.flatMap Node.marks).filterMap repair? =
      ((νs.filterMap Node.site?).filter Site.isLossy).map Site.repair := by
    intro νs
    induction νs with
    | nil => rfl
    | cons ν νs ih =>
      have hc : (ν :: νs).filterMap Node.site? = ν.site?.toList ++ νs.filterMap Node.site? := by
        rw [List.filterMap_cons]
        cases ν.site? <;> rfl
      rw [List.flatMap_cons, List.filterMap_append, repairs_node, ih, hc, List.filter_append,
        List.map_append]
  rw [List.filterMap_append, repairs_site, hn, Fragment.lossy, ← List.map_append,
    ← List.filter_append, List.singleton_append]

/-! ### What is bound -/

/-- The node that is marked as bound to. -/
def boundAt? : Mark × List Nat → Option (List Nat)
  | (.bound, scope) => some scope
  | _ => none

theorem map_snd_filter_bindsTo? (log : List (Opcode Nat × List Nat)) :
    (log.filter (·.1.bindsTo?.isSome)).map Prod.snd =
      (log.filterMap mark?).filterMap boundAt? := by
  rw [List.filterMap_filterMap, ← List.filterMap_eq_filter, List.map_filterMap]
  refine congrArg (List.filterMap · log) (funext fun e => ?_)
  obtain ⟨op, scope⟩ := e
  cases op <;> rfl

/-- How much is bound in the tag of a node. -/
def Template.Node.bound (ν : Node) : Nat :=
  match ν.statement with
  | .element e => e.bound
  | _ => 0

theorem boundAt_site (σ : Site) : σ.marks.filterMap boundAt? = [] := by
  rw [Site.marks]
  cases σ.isLossy <;> rfl

theorem boundAt_node (ν : Node) :
    ν.marks.filterMap boundAt? = List.replicate ν.bound ν.address := by
  obtain ⟨path, index, siblings, s⟩ := ν
  cases s with
  | element e =>
    have hb : ∀ (k : Nat) (scope : List Nat),
        (List.replicate k (Mark.bound, scope)).filterMap boundAt? = List.replicate k scope := by
      intro k scope
      exact List.filterMap_replicate_of_some rfl
    rw [Node.marks, List.filterMap_append, List.filterMap_append, boundAt_site, hb]
    cases (Node.mk path index siblings (.element e)).isSole <;> rfl
  | text _ | comment _ | mustache _ | block _ | component _ => rfl

/-! ### In time -/

/-- **A repair comes in time after what is marked before it**: nothing is bound to the node yet, and
none of its children is entered. -/
def InTime (before mark : Mark × List Nat) : Prop :=
  ∀ blanks checked, mark.1 = .repaired blanks checked →
    before ≠ (.bound, mark.2) ∧ ∀ i, before ≠ (.entered, mark.2 ++ [i])

theorem inTime_of_address {x y : Mark × List Nat} (h : x.2 < y.2) : InTime x y := by
  rintro blanks checked -
  refine ⟨?_, fun i => ?_⟩
  · rintro rfl
    exact List.lt_irrefl _ h
  · rintro rfl
    have hi : y.2 ++ [] < y.2 ++ [i] := List.append_left_lt List.Lex.nil
    rw [List.append_nil] at hi
    exact List.lt_irrefl _ (List.lt_trans hi h)

theorem address_of_mem_site {σ : Site} {x : Mark × List Nat} (h : x ∈ σ.marks) :
    x.2 = σ.address := by
  rw [Site.marks] at h
  split at h
  · rw [List.mem_singleton.mp h]
  · exact absurd h List.not_mem_nil

theorem address_of_mem_marks {ν : Node} {x : Mark × List Nat} (h : x ∈ ν.marks) :
    x.2 = ν.address := by
  obtain ⟨path, index, siblings, s⟩ := ν
  cases s with
  | element e =>
    rw [Node.marks, List.mem_append, List.mem_append] at h
    rcases h with h | h | h
    · split at h
      · exact absurd h List.not_mem_nil
      · rw [List.mem_singleton.mp h]
    · exact address_of_mem_site h
    · rw [List.eq_of_mem_replicate h]
  | text _ | comment _ | mustache _ | block _ | component _ => exact absurd h List.not_mem_nil

theorem nil_lt_address (ν : Node) : [] < ν.address := by
  rw [Node.address]
  cases ν.path <;> exact List.Lex.nil

theorem inTime_bound (x : Mark × List Nat) (scope : List Nat) : InTime x (.bound, scope) := by
  intro blanks checked h
  exact absurd h (by simp)

theorem inTime_entered (y : Mark × List Nat) : InTime (.entered, y.2) y := by
  rintro blanks checked -
  refine ⟨by simp, fun i h => ?_⟩
  have hl := congrArg (·.2.length) h
  simp at hl

theorem pairwise_site (σ : Site) : σ.marks.Pairwise InTime := by
  rw [Site.marks]
  split
  · exact List.pairwise_singleton _ _
  · exact .nil

/-- **An element is repaired before anything is bound to it.** -/
theorem pairwise_marks (ν : Node) : ν.marks.Pairwise InTime := by
  cases hs : ν.statement.isElement with
  | false =>
    rw [marks_of_not_isElement hs]
    exact .nil
  | true =>
    obtain ⟨e, he⟩ := Statement.isElement_iff.mp hs
    have ha : ∀ y ∈ ν.marks, y.2 = ν.address := fun y => address_of_mem_marks
    rw [Node.marks, he] at ha ⊢
    refine List.pairwise_append.mpr ⟨?_, List.pairwise_append.mpr ⟨pairwise_site _, ?_, ?_⟩, ?_⟩
    · split
      · exact .nil
      · exact List.pairwise_singleton _ _
    · exact List.pairwise_replicate.mpr (.inr (inTime_bound _ _))
    · intro x _ y hy
      rw [List.eq_of_mem_replicate hy]
      exact inTime_bound _ _
    · intro x hx y hy
      have hy := ha y (List.mem_append_right _ hy)
      split at hx
      · exact absurd hx List.not_mem_nil
      · rw [List.mem_singleton.mp hx, ← hy]
        exact inTime_entered y

/-- **All repairs of a fragment come in time.** -/
theorem pairwise_fragment (f : Fragment) :
    (f.site.marks ++ f.nodes.flatMap Node.marks).Pairwise InTime := by
  have hn : (f.nodes.flatMap Node.marks).Pairwise InTime := by
    refine List.pairwise_flatMap.mpr ⟨fun ν _ => pairwise_marks ν, ?_⟩
    refine (pairwise_nodes [] f.body.length 0 f.body).imp fun {μ ν} h x hx y hy => ?_
    refine inTime_of_address ?_
    rwa [address_of_mem_marks hx, address_of_mem_marks hy]
  refine List.pairwise_append.mpr ⟨pairwise_site _, hn, fun x hx y hy => ?_⟩
  obtain ⟨ν, -, hy⟩ := List.mem_flatMap.mp hy
  refine inTime_of_address ?_
  rw [address_of_mem_site hx, address_of_mem_marks hy]
  exact nil_lt_address ν

/-! ## Programs -/

/-- **A site is restored by an entry of a log**: a repair, executed there, of exactly the blank
texts inside it in increasing order, and of its `checked` state. -/
def Template.Site.RestoredBy (σ : Site) (entry : Opcode Nat × List Nat) : Prop :=
  ∃ blanks, entry = (.repairClonedNode blanks σ.checked, σ.address) ∧
    blanks.Pairwise (· < ·) ∧ ∀ i, i ∈ blanks ↔ BlankAt σ.children i

/-- **A log that restores a fragment.** -/
structure Template.Fragment.Restores (f : Fragment) (log : List (Opcode Nat × List Nat)) :
    Prop where
  /-- The lossy sites are all there are… -/
  complete : ∀ σ, σ ∈ f.lossy ↔ f.HasSite σ ∧ σ.Lossy
  /-- …in document order, the fragment itself first. -/
  ordered : f.lossy.Pairwise fun σ τ => σ.address < τ.address
  /-- The repairs restore them one by one. -/
  repairs : List.Forall₂ Site.RestoredBy f.lossy (log.filter (·.1.isRepair))
  /-- Attributes and helpers are bound where their elements are current… -/
  bound : (log.filter (·.1.bindsTo?.isSome)).map Prod.snd =
    f.nodes.flatMap fun ν => List.replicate ν.bound ν.address
  /-- …and when a node is repaired, nothing is bound to it yet, and no child of it is entered. -/
  early : ∀ front blanks checked scope back,
    log = front ++ (.repairClonedNode blanks checked, scope) :: back →
      (∀ op, (op, scope) ∈ front → op.bindsTo? = none) ∧
        ∀ i, (.consumeParent i, scope ++ [i]) ∉ front

theorem mem_lossy {f : Fragment} {σ : Site} : σ ∈ f.lossy ↔ f.HasSite σ ∧ σ.Lossy := by
  rw [Fragment.lossy, List.mem_filter, Site.isLossy_iff, List.mem_cons, List.mem_filterMap]
  refine and_congr_left fun _ => or_congr_right ⟨?_, ?_⟩
  · rintro ⟨ν, hν, hσ⟩
    obtain ⟨e, he, rfl⟩ := Node.eq_of_site? hσ
    refine ⟨ν, e, mem_nodes.mp hν, he, rfl, rfl, ?_⟩
    simp [Element.isChecked]
  · rintro ⟨ν, e, hν, he, ha, hc, hk⟩
    obtain ⟨address, children, checked⟩ := σ
    have hk : checked = e.isChecked := by
      rw [Bool.eq_iff_iff, hk]
      simp [Element.isChecked]
    refine ⟨ν, mem_nodes.mpr hν, ?_⟩
    rw [Node.site?, he, hk]
    exact congrArg some (by rw [← ha, ← hc])

theorem pairwise_lossy (f : Fragment) :
    f.lossy.Pairwise fun σ τ => σ.address < τ.address := by
  refine List.Pairwise.filter _ (List.pairwise_cons.mpr ⟨fun σ hσ => ?_, ?_⟩)
  · obtain ⟨ν, -, hσ⟩ := List.mem_filterMap.mp hσ
    obtain ⟨e, -, rfl⟩ := Node.eq_of_site? hσ
    exact nil_lt_address ν
  · refine List.pairwise_filterMap.mpr ?_
    refine (pairwise_nodes [] f.body.length 0 f.body).imp fun {μ ν} h σ hσ τ hτ => ?_
    obtain ⟨e, -, rfl⟩ := Node.eq_of_site? hσ
    obtain ⟨e', -, rfl⟩ := Node.eq_of_site? hτ
    exact h

theorem restores_log (o : Options) (f : Fragment) :
    f.Restores (hoistLog (f.log o.repairing)) := by
  have hlog := marks_log o f
  refine ⟨fun σ => mem_lossy, pairwise_lossy f, ?_, ?_, ?_⟩
  · rw [filter_isRepair, hlog, repairs_marks, List.forall₂_map_right_iff, List.forall₂_same]
    exact fun σ _ => ⟨blanks σ.children, rfl, pairwise_blanks _, fun i => mem_blanks⟩
  · rw [map_snd_filter_bindsTo?, hlog, List.filterMap_append, boundAt_site, List.nil_append,
      List.filterMap_flatMap]
    simp only [boundAt_node]
  · intro front blanks checked scope back hsplit
    have hp := pairwise_fragment f
    rw [← hlog, List.pairwise_filterMap, hsplit, List.pairwise_append] at hp
    have ht : ∀ e ∈ front, ∀ x, mark? e = some x →
        InTime x (.repaired blanks checked, scope) :=
      fun e he x hx => hp.2.2 e he _ List.mem_cons_self x hx _ rfl
    refine ⟨fun op hop => ?_, fun i hi => ?_⟩
    · refine Option.eq_none_iff_forall_ne_some.mpr fun number hb => ?_
      exact (ht _ hop _ (mark?_of_bindsTo? hb scope) _ _ rfl).1 rfl
    · exact (ht _ hi _ rfl _ _ rfl).2 i rfl

/-- **The repairs of a program restore its fragment.** -/
def RepairsAgree (f : Fragment) (p : Program UInt32) : Prop :=
  ∃ log, replay f.startScope.length (f.startScope.map ofNat) p.opcodes =
    some (log, f.startScope.map ofNat) ∧ f.Restores (log.map readEntry)

/-- **With both repairs on, what cloning loses is put back**: a program has one repair for each node
that loses something, in document order, with exactly what is lost, executed where that node is
current and before it is bound to or its children are entered; and so has every program nested in
it. -/
theorem program_restores {t : Template} {o : Options} {p : Program UInt32}
    (hs : t.root.size < 2 ^ 32) (h : t.program o.repairing = .ok p) :
    Throughout RepairsAgree t.root p := by
  refine throughout_of_program (H := fun f => f.size < 2 ^ 32) ?_ ?_ h hs
  · intro f g hf hg
    exact (size_lt_of_mem_nested hg).trans hf
  · intro f _ hf
    refine ⟨_, replay_hoist (replay_fragment o.repairing f), ?_⟩
    rw [read_log o.repairing hf]
    exact restores_log o f

/-- **A box to tick**: the fragment and the element in it both lose a blank text, and the element
its `checked` state too. -/
def Template.ballot : Template where
  root := {
    body := [
      .text { chars := "" },
      .element {
        tag := "label"
        attributes := [
          { name := "checked", value := [.text { chars := "" }] },
          { name := "for", value := [.path { segments := ["choice"] }] }]
        children := [
          .mustache { call := { callee := { segments := ["choice"] } } },
          .text { chars := "" }] }] }

theorem program_restores_ballot :
    Template.ballot.root.size < 2 ^ 32 ∧
      Template.ballot.root.lossy.map Site.repair =
        [(.repairClonedNode [0] false, []), (.repairClonedNode [1] true, [1])] ∧
      ∃ p, Template.ballot.program (Options.repairing {}) = .ok p ∧
        Throughout RepairsAgree Template.ballot.root p := by
  have hs : Template.ballot.root.size < 2 ^ 32 := by decide +kernel
  have hl : Template.ballot.root.lossy.map Site.repair =
      [(.repairClonedNode [0] false, []), (.repairClonedNode [1] true, [1])] := by
    simp only [Fragment.lossy, Fragment.nodes, Template.ballot, nodes]
    decide +kernel
  have hv : Template.ballot.root.violations = [] := by decide +kernel
  have hp := program_of_valid (Options.repairing {}) hv
  exact ⟨hs, hl, _, hp, program_restores hs hp⟩

end Hydration
