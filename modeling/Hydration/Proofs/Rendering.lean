import Hydration.Proofs.Reading

/-!
# Proofs/Rendering — where a nested program is rendered

A block or component hands its nested programs over by number, among its operands, and is then
rendered with as many parameters as its body has. `Opcode.transfer?` finds the two kinds of
instruction, and a stream has nothing but them in turns: for each block and component in document
order, what it hands over and what it is rendered with (`transfers_stream`).

* `compile_programs_agree`: the nested programs of a program are those of its nested fragments; they
  are handed over once each, in order of their numbers, and rendered right after that with the
  parameters that they bind.
-/

namespace Hydration

open Template Counter

/-! ## Instructions about nested programs -/

namespace Opcode

variable {ι : Type}

/-- The nested programs that an instruction hands over: a body and perhaps an inverse. -/
def handsOver? : Opcode ι → Option (ι × Option ι)
  | .program (some body) inverse => some (body, inverse)
  | _ => none

/-- The number of parameters that a body is rendered with. -/
def renders? : Opcode ι → Option ι
  | .helper _ _ (some params) => some params
  | .component _ params => some params
  | _ => none

/-- The parameter that an instruction binds, with its position. -/
def parameter? : Opcode ι → Option (String × ι)
  | .blockParam name index => some (name, index)
  | _ => none

/-- Nested programs that are handed over, or rendered. -/
def transfer? (op : Opcode ι) : Option ((ι × Option ι) ⊕ ι) :=
  (op.handsOver?.map .inl).or (op.renders?.map .inr)

theorem transfer?_of_isExpr {op : Opcode ι} (h : op.isExpr) : op.transfer? = none := by
  cases op with
  | program body inverse =>
    cases body <;> first | rfl | exact absurd h Bool.false_ne_true
  | _ => first | rfl | exact absurd h Bool.false_ne_true

theorem transfer?_of_bindsTo? {op : Opcode ι} {number : ι} (h : op.bindsTo? = some number) :
    op.transfer? = none := by
  cases op with
  | «attribute» _ _ _ _ | nodeHelper _ _ => rfl
  | _ => exact absurd h (by simp [bindsTo?])

/-- What is handed over is what is transferred so. -/
theorem getLeft?_transfer? (op : Opcode ι) : op.transfer?.bind Sum.getLeft? = op.handsOver? := by
  rw [transfer?]
  cases op.handsOver? with
  | some _ => rfl
  | none => cases op.renders? <;> rfl

/-- What is rendered is what is transferred so: nothing is handed over by the same instruction. -/
theorem getRight?_transfer? (op : Opcode ι) : op.transfer?.bind Sum.getRight? = op.renders? := by
  rw [transfer?]
  cases hh : op.handsOver? with
  | some _ => cases op <;> first | rfl | exact absurd hh (by simp [handsOver?])
  | none => cases op.renders? <;> rfl

theorem isMorph_of_transfer? {op : Opcode ι} (h : op.transfer?.isSome) : op.isMorph = false := by
  cases op <;> first | rfl | exact absurd h Bool.false_ne_true

end Opcode

/-! ## What a stream says of nested programs -/

variable {ι : Type}

/-- Both parts of every pair, one after the other. -/
def turns {α β : Type} (pairs : List (α × β)) : List (α ⊕ β) :=
  pairs.flatMap fun p => [.inl p.1, .inr p.2]

section

variable {α β : Type}

@[simp] theorem turns_nil : turns ([] : List (α × β)) = [] := rfl

@[simp] theorem turns_cons (p : α × β) (pairs : List (α × β)) :
    turns (p :: pairs) = .inl p.1 :: .inr p.2 :: turns pairs := rfl

@[simp] theorem turns_append (ps qs : List (α × β)) : turns (ps ++ qs) = turns ps ++ turns qs :=
  List.flatMap_append

theorem filterMap_getLeft?_turns (pairs : List (α × β)) :
    (turns pairs).filterMap Sum.getLeft? = pairs.map Prod.fst := by
  induction pairs with
  | nil => rfl
  | cons p pairs ih => simp [List.filterMap_cons, ih]

theorem filterMap_getRight?_turns (pairs : List (α × β)) :
    (turns pairs).filterMap Sum.getRight? = pairs.map Prod.snd := by
  induction pairs with
  | nil => rfl
  | cons p pairs ih => simp [List.filterMap_cons, ih]

end

variable [Counter ι]

/-- **What a statement hands over**, its nested programs being numbered from `programs` on, and the
number of parameters that it is rendered with. -/
def Template.Statement.offers (programs : Nat) : Statement → List ((ι × Option ι) × ι)
  | .block b => [((ofNat programs, b.inverse.map fun _ => ofNat (programs + 1)),
      ofNat b.body.blockParams.length)]
  | .component c => [((ofNat programs, none), ofNat c.body.blockParams.length)]
  | _ => []

/-- What nodes hand over, their nested programs being numbered from `programs` on. -/
def offers (programs : Nat) : List Node → List ((ι × Option ι) × ι)
  | [] => []
  | ν :: νs => ν.statement.offers programs ++ offers (programs + ν.statement.nested.length) νs

omit [Counter ι] in
theorem transfers_eq_nil {ops : List (Opcode ι)} (h : ∀ op ∈ ops, op.transfer? = none) :
    ops.filterMap Opcode.transfer? = [] :=
  List.filterMap_eq_nil_iff.mpr h

omit [Counter ι] in
theorem Code.IsExpr.transfers {c : Code ι} (h : c.IsExpr) :
    c.opcodes.filterMap Opcode.transfer? = [] :=
  transfers_eq_nil fun op hop => Opcode.transfer?_of_isExpr (h op hop)

theorem transfers_tag (o : Options) (n : Numbers) (ν : Node) (e : Element) :
    (ν.tag o n e : List (Opcode ι)).filterMap Opcode.transfer? = [] := by
  refine transfers_eq_nil fun op => forall_mem_tag (P := fun op => op.transfer? = none)
    (fun _ _ => rfl) (fun p hp op hop => ?_) rfl fun p hp => ?_
  · exact Opcode.transfer?_of_isExpr (Element.isExpr_of_mem_phrases hp op hop)
  · exact Opcode.transfer?_of_bindsTo? (Element.bindsTo?_of_mem_phrases hp _)

omit [Counter ι] in
/-- A body is handed over before the operands, and rendered after them. -/
theorem transfers_of_body {c : Code ι} (hc : c.IsExpr) (body : ι) (inverse : Option ι)
    {verb : Opcode ι} {params : ι} (hv : verb.transfer? = some (.inr params)) :
    ((Code.one (.program (some body) inverse) ++ c).opcodes ++ [verb]).filterMap
      Opcode.transfer? = turns [((body, inverse), params)] := by
  have hp : (Code.one (.program (some body) inverse) ++ c).opcodes =
      [.program (some body) inverse] ++ c.opcodes := by
    rw [Code.append_of_none rfl]
    rfl
  rw [hp, List.filterMap_append, List.filterMap_append, hc.transfers,
    List.filterMap_cons_some hv]
  rfl

/-- **A dynamic statement hands its nested programs over and is then rendered.** -/
theorem transfers_phrase {programs : Nat} {s : Statement} {p : Phrase ι}
    (h : s.phrase? programs = some p) (target : ι) :
    (p.opcodes target).filterMap Opcode.transfer? = turns (s.offers programs) := by
  cases s with
  | text _ | comment _ | element _ => exact absurd h (by simp [Statement.phrase?])
  | mustache m =>
    obtain rfl := Option.some.inj h
    unfold Mustache.phrase
    rw [Phrase.opcodes, List.filterMap_append]
    cases m.call.isHelper with
    | true => exact congrArg (· ++ []) (isExpr_noProgram.append m.call.isExpr_code).transfers
    | false => exact congrArg (· ++ []) m.call.callee.isExpr_nameCode.transfers
  | block b =>
    obtain rfl := Option.some.inj h
    exact transfers_of_body b.call.isExpr_code _ _ rfl
  | component c =>
    obtain rfl := Option.some.inj h
    exact transfers_of_body ((Code.isExpr_one rfl).append
      (attributesHash c.attributes).isExpr_code) _ _ rfl

theorem transfers_opening (o : Options) (n : Numbers) (ν : Node) :
    (ν.opening o n : List (Opcode ι)).filterMap Opcode.transfer? =
      turns (ν.statement.offers n.programs) := by
  rcases ν.statement.trichotomy (ι := ι) n.programs with ⟨e, he⟩ | ⟨hs, hd⟩ | ⟨-, -, p, hp⟩
  · have hc : (if ν.isSole then [] else [Opcode.consumeParent (ofNat ν.index : ι)]).filterMap
        Opcode.transfer? = [] := by
      cases ν.isSole <;> rfl
    rw [Node.opening, he]
    simp only [List.filterMap_append, hc, transfers_tag]
    rfl
  · rw [Node.opening_of_static o n hs hd]
    cases hn : ν.statement <;> first | rfl | exact absurd hd (by simp [hn, Statement.isDynamic])
  · rw [Node.opening_of_phrase o hp, List.filterMap_cons_none rfl, transfers_phrase hp]

/-- **All that a walk says of nested programs**, in document order. -/
theorem transfers_stream (o : Options) (n : Numbers) (vs : List Visit) :
    (stream o n vs : List (Opcode ι)).filterMap Opcode.transfer? =
      turns (offers n.programs (vs.filterMap Visit.entered?)) := by
  induction vs generalizing n with
  | nil => rfl
  | cons v vs ih =>
    rw [stream, List.filterMap_append, ih]
    cases v with
    | enter ν =>
      have hν : (Visit.opcodes o n (.enter ν) : List (Opcode ι)).filterMap Opcode.transfer? = _ :=
        transfers_opening o n ν
      rw [hν, ← turns_append]
      rfl
    | leave ν =>
      have hν : (ν.closing : List (Opcode ι)).filterMap Opcode.transfer? = [] := by
        refine transfers_eq_nil fun op hop => ?_
        rw [eq_popParent_of_mem_closing hop]
        rfl
      rw [Visit.opcodes, hν]
      rfl

/-- **All that a fragment says of nested programs**, hoisted or not. -/
theorem transfers_fragment (o : Options) (f : Fragment) :
    (hoist (f.stream o) : List (Opcode ι)).filterMap Opcode.transfer? =
      turns (offers 0 f.nodes) := by
  have hh : (f.header o : List (Opcode ι)).filterMap Opcode.transfer? = [] :=
    transfers_eq_nil fun op =>
      forall_mem_header (P := fun op => op.transfer? = none) (fun _ _ => rfl) fun _ _ => rfl
  rw [hoist, filterMap_hoistBy (b := false) (fun _ => Opcode.isMorph_of_transfer?),
    Fragment.stream, List.filterMap_append, hh, transfers_stream, Fragment.visits, entered_visits]
  rfl

/-- **A fragment starts by binding its parameters**, and binds none later. -/
theorem parameters_fragment (o : Options) (f : Fragment) :
    (hoist (f.stream o) : List (Opcode ι)).filterMap Opcode.parameter? =
      f.blockParams.zipIdx.map fun (name, i) => (name, ofNat i) := by
  have hm : ∀ op : Opcode ι, op.parameter?.isSome → op.isMorph = false := by
    intro op h
    cases op <;> first | rfl | exact absurd h Bool.false_ne_true
  have hr : (Assembler.repair o (blanks f.body) false : List (Opcode ι)).filterMap
      Opcode.parameter? = [] := by
    refine List.filterMap_eq_nil_iff.mpr fun op hop => ?_
    obtain ⟨_, _, rfl⟩ := eq_of_mem_repair hop
    rfl
  have hs : (stream o {} f.visits : List (Opcode ι)).filterMap Opcode.parameter? = [] := by
    refine List.filterMap_eq_nil_iff.mpr fun op hop =>
      forall_mem_stream (P := fun op => op.parameter? = none) (fun _ => rfl) (fun _ => rfl) rfl
        (fun _ => rfl) (fun _ _ => rfl) (fun op h => ?_) (fun op h => ?_) hop
    · cases op <;> first | rfl | exact absurd h Bool.false_ne_true
    · cases op <;> first | rfl | exact absurd h Bool.false_ne_true
  rw [hoist, filterMap_hoistBy (b := false) hm, Fragment.stream, Fragment.header,
    List.filterMap_append, List.filterMap_append, hr, hs, List.append_nil, List.append_nil,
    List.filterMap_map]
  exact congrFun List.filterMap_eq_map' _

theorem handedOver_fragment (o : Options) (f : Fragment) :
    (hoist (f.stream o) : List (Opcode ι)).filterMap Opcode.handsOver? =
      (offers 0 f.nodes).map Prod.fst := by
  rw [← filterMap_getLeft?_turns, ← transfers_fragment o, List.filterMap_filterMap]
  exact congrArg (List.filterMap · _) (funext fun op => op.getLeft?_transfer?.symm)

theorem rendered_fragment (o : Options) (f : Fragment) :
    (hoist (f.stream o) : List (Opcode ι)).filterMap Opcode.renders? =
      (offers 0 f.nodes).map Prod.snd := by
  rw [← filterMap_getRight?_turns, ← transfers_fragment o, List.filterMap_filterMap]
  exact congrArg (List.filterMap · _) (funext fun op => op.getRight?_transfer?.symm)

/-! ## Read with naturals -/

/-- The numbers of the nested programs that are handed over. -/
def handed (programs : ι × Option ι) : List ι := programs.1 :: programs.2.toList

/-- **Nested programs are handed over in order of their numbers.** -/
theorem handed_offers (programs : Nat) (νs : List Node) :
    (offers programs νs : List ((Nat × Option Nat) × Nat)).flatMap (fun x => handed x.1) =
      List.range' programs (νs.flatMap (·.statement.nested)).length := by
  induction νs generalizing programs with
  | nil => rfl
  | cons ν νs ih =>
    have hν : (ν.statement.offers programs : List ((Nat × Option Nat) × Nat)).flatMap
        (fun x => handed x.1) = List.range' programs ν.statement.nested.length := by
      cases ν.statement with
      | text _ | comment _ | element _ | mustache _ | component _ => rfl
      | block b =>
        simp only [Statement.offers, Statement.nested]
        cases b.inverse <;> rfl
    rw [offers, List.flatMap_append, hν, ih, List.flatMap_cons, List.length_append,
      List.range'_append_1]

/-- **A body is rendered with as many parameters as it has.** -/
theorem params_of_mem_offers {programs : Nat} {νs : List Node} {x : (Nat × Option Nat) × Nat}
    (h : x ∈ offers programs νs) :
    ∃ j g, x.1.1 = programs + j ∧ (νs.flatMap (·.statement.nested))[j]? = some g ∧
      x.2 = g.blockParams.length := by
  induction νs generalizing programs with
  | nil => exact absurd h List.not_mem_nil
  | cons ν νs ih =>
    rw [List.flatMap_cons]
    rcases List.mem_append.mp h with h | h
    · cases hs : ν.statement with
      | text _ | comment _ | element _ | mustache _ =>
        rw [hs] at h
        exact absurd h List.not_mem_nil
      | block b =>
        rw [hs] at h
        obtain rfl := List.mem_singleton.mp h
        exact ⟨0, b.body, rfl, rfl, rfl⟩
      | component c =>
        rw [hs] at h
        obtain rfl := List.mem_singleton.mp h
        exact ⟨0, c.body, rfl, rfl, rfl⟩
    · obtain ⟨j, g, hj, hg, hx⟩ := ih h
      refine ⟨ν.statement.nested.length + j, g, by omega, ?_, hx⟩
      rw [List.getElem?_append_right (by omega), Nat.add_sub_cancel_left, hg]

theorem handsOver?_read (op : Opcode ι) :
    op.read.handsOver? = op.handsOver?.map (Prod.map Counter.toNat (Option.map Counter.toNat)) := by
  cases op with
  | program body inverse => cases body <;> rfl
  | _ => rfl

theorem renders?_read (op : Opcode ι) : op.read.renders? = op.renders?.map Counter.toNat := by
  cases op with
  | helper params number blockParams => cases blockParams <;> rfl
  | _ => rfl

theorem parameter?_read (op : Opcode ι) :
    op.read.parameter? = op.parameter?.map (Prod.map id Counter.toNat) := by
  cases op <;> rfl

/-- What is handed over and rendered, with its numbers read. -/
def readOffer (x : (ι × Option ι) × ι) : (Nat × Option Nat) × Nat :=
  x.map (Prod.map Counter.toNat (Option.map Counter.toNat)) Counter.toNat

theorem map_handed (programs : ι × Option ι) :
    (handed programs).map Counter.toNat =
      handed (programs.map Counter.toNat (Option.map Counter.toNat)) := by
  obtain ⟨body, inverse⟩ := programs
  cases inverse <;> rfl

/-- **What is handed over and rendered reads as it is**, in a fragment that is not too large. -/
theorem read_offers (o : Options) {f : Fragment} (hf : f.size < 2 ^ 32) :
    (offers 0 f.nodes : List ((UInt32 × Option UInt32) × UInt32)).map readOffer =
      offers 0 f.nodes := by
  -- Each half can be read off the stream by itself, and the pairs are their zip.
  have hfst : ((offers 0 f.nodes : List ((UInt32 × Option UInt32) × UInt32)).map readOffer).map
      Prod.fst = (offers 0 f.nodes).map Prod.fst := by
    rw [← handedOver_fragment o f, ← read_fragment o hf,
      ← map_filterMap_of_read handsOver?_read, handedOver_fragment, List.map_map,
      List.map_map]
    rfl
  have hsnd : ((offers 0 f.nodes : List ((UInt32 × Option UInt32) × UInt32)).map readOffer).map
      Prod.snd = (offers 0 f.nodes).map Prod.snd := by
    rw [← rendered_fragment o f, ← read_fragment o hf,
      ← map_filterMap_of_read renders?_read, rendered_fragment, List.map_map, List.map_map]
    rfl
  rw [List.zip_of_prod hfst hsnd]
  exact (List.zip_of_prod rfl rfl).symm

/-! ## Programs -/

namespace Program

omit [Counter ι]

/-- The nested programs that a program hands over, in the order of its stream. -/
def handedOver (p : Program ι) : List (ι × Option ι) := p.opcodes.filterMap Opcode.handsOver?

/-- The numbers of parameters that bodies are rendered with, in the order of the stream. -/
def rendered (p : Program ι) : List ι := p.opcodes.filterMap Opcode.renders?

/-- The parameters that a program binds, in the order of its stream. -/
def parameters (p : Program ι) : List (String × ι) := p.opcodes.filterMap Opcode.parameter?

end Program

/-- **The nested programs of a program are those of its fragment.** -/
structure ProgramsAgree (o : Options) (f : Fragment) (p : Program UInt32) : Prop where
  /-- They are what the nested fragments compile to by themselves, in document order. -/
  children : p.children.map .ok = f.nested.map fun g => (g.compile o : Compiled UInt32).result
  /-- They are handed over once each, in order of their numbers. -/
  numbered : (p.handedOver.flatMap handed).map Counter.toNat = List.range f.nested.length
  /-- What is handed over is rendered before anything else is handed over… -/
  matched : p.opcodes.filterMap Opcode.transfer? = turns (p.handedOver.zip p.rendered)
  /-- …with as many parameters as the body binds. -/
  counted : List.Forall₂ (fun programs params => ∃ body,
      p.child? (Counter.toNat programs.1) = some body ∧
        Counter.toNat params = body.parameters.length) p.handedOver p.rendered
  /-- Those are the parameters of its fragment, numbered from zero on. -/
  bound : List.Forall₂ (fun g child =>
    child.parameters.map (Prod.map id Counter.toNat) = g.blockParams.zipIdx) f.nested p.children

/-- A nested program that compiles binds the parameters of its fragment. -/
theorem parameters_output (o : Options) {g : Fragment} (hv : g.violations = [])
    (hg : g.size < 2 ^ 32) :
    (g.output o : Program UInt32).parameters.map (Prod.map id Counter.toNat) =
      g.blockParams.zipIdx := by
  have ho : (g.output o : Program UInt32).opcodes = hoist (g.stream o) := by
    rw [Fragment.output, result_compile o hv]
    rfl
  rw [Program.parameters, ho, map_filterMap_of_read parameter?_read, read_fragment o hg,
    parameters_fragment]
  exact List.map_id _

theorem programsAgree (o : Options) {f : Fragment} (hv : f.violations = [])
    (hf : f.size < 2 ^ 32) :
    ProgramsAgree o f ⟨hoist (f.stream o), f.nested.map (Fragment.output o)⟩ := by
  have hn : ∀ g ∈ f.nested, g.violations = [] ∧ g.size < 2 ^ 32 := fun g hg =>
    ⟨violations_of_nested hv hg, (size_lt_of_mem_nested hg).trans hf⟩
  have hh := handedOver_fragment (ι := UInt32) o f
  have hr := rendered_fragment (ι := UInt32) o f
  refine ⟨?_, ?_, ?_, ?_, ?_⟩
  · rw [List.map_map]
    exact List.map_congr_left fun g hg => (result_eq_output o (hn g hg).1).symm
  · rw [Program.handedOver, hh, List.flatMap_map, List.map_flatMap, List.range_eq_range']
    rw [Fragment.nested, ← handed_offers 0 f.nodes, ← read_offers o hf, List.flatMap_map]
    exact congrArg (List.flatMap · _) (funext fun x => map_handed x.1)
  · rw [Program.handedOver, Program.rendered, hh, hr, transfers_fragment]
    exact congrArg turns (List.zip_of_prod rfl rfl)
  · rw [Program.handedOver, Program.rendered, hh, hr, List.forall₂_map_left_iff,
      List.forall₂_map_right_iff, List.forall₂_same]
    intro x hx
    have hx' : readOffer x ∈ (offers 0 f.nodes : List ((Nat × Option Nat) × Nat)) :=
      read_offers o hf ▸ List.mem_map_of_mem hx
    obtain ⟨j, g, hj, hg, hc⟩ := params_of_mem_offers hx'
    obtain ⟨hgv, hgs⟩ := hn g (List.mem_of_getElem? hg)
    have hp := congrArg List.length (parameters_output o hgv hgs)
    rw [List.length_map, List.length_zipIdx] at hp
    refine ⟨g.output o, ?_, hc.trans hp.symm⟩
    have hj' : Counter.toNat x.1.1 = j := hj.trans (Nat.zero_add j)
    rw [Program.child?, hj', List.getElem?_map]
    exact congrArg (Option.map (Fragment.output o)) hg
  · rw [List.forall₂_map_right_iff, List.forall₂_same]
    intro g hg
    exact parameters_output o (hn g hg).1 (hn g hg).2

/-- **The nested programs of a program are those of its fragment**: what the nested fragments
compile to by themselves, handed over once each in the order of their numbers, and each body
rendered with the parameters that it binds. -/
theorem compile_programs_agree {f : Fragment} {o : Options} {p : Program UInt32}
    (hs : f.size < 2 ^ 32) (h : (f.compile o : Compiled UInt32).result = .ok p) :
    ProgramsAgree o f p := by
  have hv : f.violations = [] := (compile_eq_ok_iff o f).mp ⟨p, h⟩
  obtain rfl : ⟨hoist (f.stream o), f.nested.map (Fragment.output o)⟩ = p :=
    Except.ok.inj ((result_compile o hv).symm.trans h)
  exact programsAgree o hv hs

theorem compile_programs_agree_roster :
    Template.roster.root.size < 2 ^ 32 ∧ ∃ p,
      (Template.roster.root.compile {} : Compiled UInt32).result = .ok p ∧
        ProgramsAgree {} Template.roster.root p := by
  have hs : Template.roster.root.size < 2 ^ 32 := by decide +kernel
  obtain ⟨p, hp⟩ := roster_compiles
  have hr := compile_of_program hp
  exact ⟨hs, p, hr, compile_programs_agree hs hr⟩

end Hydration
