import Hydration.Proofs.Bindings
import Hydration.Proofs.Positions
import Hydration.Proofs.Replay

/-!
# Proofs/Reading — the numbers of a program as naturals

Streams are written once for every counting type. `Opcode.read` reads the numbers of an instruction
as naturals, and what a fragment writes with 32-bit words is then what it writes with naturals,
provided that it has fewer than `2 ^ 32` nodes: every number written counts some of them
(`read_stream`). Reading moves no instruction, so it passes through hoisting (`read_hoist`) and
through a replay (`replay_read`), and what holds of the naturals holds of the program that a runtime
takes (`read_fragment`, `read_log`).
-/

namespace Hydration

open Template Counter

/-! ## Instructions -/

section

variable {ι κ : Type} (f : ι → κ)

/-- A name or count with its number mapped. -/
def StackLiteral.map : StackLiteral ι → StackLiteral κ
  | .key name => .key name
  | .count number => .count (f number)

/-- **An instruction with its numbers mapped.** -/
def Opcode.map : Opcode ι → Opcode κ
  | .blockParam name index => .blockParam name (f index)
  | .repairClonedNode blanks checked => .repairClonedNode (blanks.map f) checked
  | .consumeParent index => .consumeParent (f index)
  | .element number => .element (f number)
  | .popParent => .popParent
  | .program body inverse => .program (body.map f) (inverse.map f)
  | .string name => .string name
  | .stringLiteral value => .stringLiteral value
  | .literal value => .literal value
  | .id segments => .id segments
  | .sexpr params => .sexpr (f params)
  | .stackLiteral value => .stackLiteral (value.map f)
  | .attribute quoted name parts number => .attribute quoted name (f parts) (f number)
  | .nodeHelper params number => .nodeHelper (f params) (f number)
  | .helper params number blockParams => .helper (f params) (f number) (blockParams.map f)
  | .ambiguous number => .ambiguous (f number)
  | .component number blockParams => .component (f number) (f blockParams)
  | .morph m => .morph (m.map f)

@[simp] theorem Opcode.isAnchor_map (op : Opcode ι) : (op.map f).isAnchor = op.isAnchor := by
  cases op <;> rfl

@[simp] theorem Opcode.isMorph_map (op : Opcode ι) : (op.map f).isMorph = op.isMorph := by
  cases op <;> rfl

end

variable {ι : Type} [Counter ι]

/-- **An instruction with its numbers read as naturals.** -/
def Opcode.read (op : Opcode ι) : Opcode Nat := op.map Counter.toNat

/-- What is found in instructions and then read is found in the instructions read. -/
theorem map_filterMap_of_read {α β : Type} {find : Opcode ι → Option α} {read : α → β}
    {find' : Opcode Nat → Option β} (h : ∀ op : Opcode ι, find' op.read = (find op).map read)
    (ops : List (Opcode ι)) :
    (ops.filterMap find).map read = (ops.map Opcode.read).filterMap find' := by
  rw [List.map_filterMap, List.filterMap_map]
  exact congrArg (List.filterMap · ops) (funext fun op => (h op).symm)

/-- Reading moves no instruction. -/
theorem read_hoist (ops : List (Opcode ι)) :
    (hoist ops).map Opcode.read = hoist (ops.map Opcode.read) := by
  refine (hoistBy_map (fun op => ?_) (fun op => ?_) ops).symm
  · exact op.isAnchor_map _
  · exact op.isMorph_map _

/-! ## Operands -/

/-- Code with its numbers read. -/
def Code.read (c : Code ι) : Code Nat := ⟨c.opcodes.map Opcode.read, c.violation?⟩

theorem Code.read_append (c d : Code ι) : (c ++ d).read = c.read ++ d.read := by
  cases h : c.violation? with
  | some v => rw [append_of_violation h, append_of_violation (c := c.read) h]
  | none =>
    rw [append_of_none h, append_of_none (c := c.read) h]
    simp [read]

theorem read_countCode {n : Nat} (h : n < 2 ^ 32) :
    (countCode n : Code UInt32).read = countCode n :=
  congrArg (fun k => Code.one (.stackLiteral (.count k))) (toNat_ofNat_of_lt h)

namespace Template

theorem Path.read_nameCode (p : Path) : (p.nameCode : Code ι).read = p.nameCode := by
  rw [nameCode, Code.read_append]
  rfl

mutual

/-- **The code of an expression reads as its code.** -/
theorem Expr.read_code (e : Expr) (h : e.size < 2 ^ 32) : (e.code : Code UInt32).read = e.code := by
  match e with
  | .path p =>
    rw [Expr.code, Path.code, Code.read_append, Expr.code]
    rfl
  | .sub c =>
    rw [Expr.size] at h
    have hp : toNat (ofNat c.params.length : UInt32) = c.params.length :=
      toNat_ofNat_of_lt (c.bounds.1.trans h)
    have hs : (Code.one (.sexpr (ofNat c.params.length)) : Code UInt32).read =
        .one (.sexpr c.params.length) := congrArg (fun k => Code.one (.sexpr k)) hp
    rw [Expr.code, Code.read_append, Code.read_append, c.read_code h, hs, Expr.code]
    rfl
  | .string .. | .number .. | .boolean .. =>
    rw [Expr.code, Expr.code]
    rfl

/-- **The code of a call reads as its code.** -/
theorem Call.read_code (c : Call) (h : c.size < 2 ^ 32) : (c.code : Code UInt32).read = c.code := by
  match c with
  | ⟨callee, params, none, span⟩ =>
    obtain ⟨-, he, -⟩ := Call.bounds ⟨callee, params, none, span⟩
    rw [Call.code, Call.code, Code.read_append, Code.read_append, callee.read_nameCode,
      read_exprsCode params fun e hm => (he e hm).trans h, read_countCode (by decide)]
  | ⟨callee, params, some ⟨pairs, hspan⟩, span⟩ =>
    obtain ⟨-, he, hh⟩ := Call.bounds ⟨callee, params, some ⟨pairs, hspan⟩, span⟩
    obtain ⟨hl, hp⟩ := hh _ rfl
    rw [Call.code, Call.code, Code.read_append, Code.read_append, Code.read_append,
      callee.read_nameCode, read_exprsCode params fun e hm => (he e hm).trans h,
      read_pairsCode pairs fun p hm => (hp p hm).trans h, read_countCode (hl.trans h)]

theorem read_exprsCode (es : List Expr) (h : ∀ e ∈ es, e.size < 2 ^ 32) :
    (exprsCode es : Code UInt32).read = exprsCode es := by
  match es with
  | [] =>
    rw [exprsCode, exprsCode]
    rfl
  | e :: es =>
    rw [exprsCode, exprsCode, Code.read_append, e.read_code (h e List.mem_cons_self),
      read_exprsCode es fun x hx => h x (List.mem_cons_of_mem e hx)]

theorem read_pairsCode (pairs : List Pair) (h : ∀ p ∈ pairs, p.value.size < 2 ^ 32) :
    (pairsCode pairs : Code UInt32).read = pairsCode pairs := by
  match pairs with
  | [] =>
    rw [pairsCode, pairsCode]
    rfl
  | ⟨key, value, span⟩ :: pairs =>
    rw [pairsCode, pairsCode, Code.read_append, Code.read_append, Code.read_append,
      value.read_code (h _ List.mem_cons_self),
      read_pairsCode pairs fun x hx => h x (List.mem_cons_of_mem _ hx)]
    rfl

end

end Template

/-! ## Phrases -/

/-- **A phrase of words reads as a phrase of naturals**, on every element or morph whose number
fits. -/
structure Phrase.Reads (p : Phrase UInt32) (q : Phrase Nat) : Prop where
  operands : p.operands.read = q.operands
  verb : ∀ target, target < 2 ^ 32 → (p.verb (ofNat target)).read = q.verb target

theorem Phrase.Reads.opcodes {p : Phrase UInt32} {q : Phrase Nat} (h : p.Reads q) {target : Nat}
    (ht : target < 2 ^ 32) : (p.opcodes (ofNat target)).map Opcode.read = q.opcodes target := by
  have ho : p.operands.opcodes.map Opcode.read = q.operands.opcodes :=
    congrArg Code.opcodes h.operands
  rw [Phrase.opcodes, Phrase.opcodes, List.map_append, ho, List.map_singleton, h.verb target ht]

namespace Template

theorem Attribute.reads_phrase (a : Attribute) (h : a.size < 2 ^ 32) :
    (a.phrase : Phrase UInt32).Reads a.phrase := by
  obtain ⟨hl, hs⟩ := a.bounds
  refine ⟨?_, fun target ht => ?_⟩
  · change (a.code : Code UInt32).read = a.code
    rw [code, code, Code.read_append, Code.read_append, Code.read_append,
      read_exprsCode _ fun e he => (hs e he).trans h, read_countCode (by decide)]
    rfl
  · change Opcode.attribute a.quoted a.name (toNat (ofNat a.value.length : UInt32))
      (toNat (ofNat target : UInt32)) = .attribute a.quoted a.name a.value.length target
    rw [toNat_ofNat_of_lt (hl.trans h), toNat_ofNat_of_lt ht]

theorem Call.read_program (c : Call) (h : c.size < 2 ^ 32) (body inverse : Option UInt32) :
    (.one (.program body inverse) ++ c.code : Code UInt32).read =
      .one (.program (body.map Counter.toNat) (inverse.map Counter.toNat)) ++ c.code := by
  rw [Code.read_append, c.read_code h]
  rfl

theorem Call.reads_phrase (c : Call) (h : c.size < 2 ^ 32) :
    (c.phrase : Phrase UInt32).Reads c.phrase := by
  refine ⟨c.read_program h none none, fun target ht => ?_⟩
  change Opcode.nodeHelper (toNat (ofNat c.params.length : UInt32))
    (toNat (ofNat target : UInt32)) = .nodeHelper c.params.length target
  rw [toNat_ofNat_of_lt (c.bounds.1.trans h), toNat_ofNat_of_lt ht]

/-- What is bound in a tag reads as what is bound there. -/
theorem Element.reads_phrases {e : Element} (h : (Statement.element e).size < 2 ^ 32) :
    List.Forall₂ Phrase.Reads e.phrases e.phrases := by
  refine List.rel_append ?_ ?_
  · rw [List.forall₂_map_left_iff, List.forall₂_map_right_iff, List.forall₂_same]
    intro a ha
    exact a.reads_phrase ((size_lt_of_mem_attributes (List.mem_of_mem_filter ha)).trans h)
  · rw [List.forall₂_map_left_iff, List.forall₂_map_right_iff, List.forall₂_same]
    exact fun c hc => c.reads_phrase ((size_lt_of_mem_helpers hc).trans h)

theorem Mustache.reads_phrase (m : Mustache) (h : m.call.size < 2 ^ 32) :
    (m.phrase : Phrase UInt32).Reads m.phrase := by
  unfold Mustache.phrase
  cases m.call.isHelper with
  | true =>
    refine ⟨m.call.read_program h none none, fun target ht => ?_⟩
    change Opcode.helper (toNat (ofNat m.call.params.length : UInt32))
      (toNat (ofNat target : UInt32)) none = .helper m.call.params.length target none
    rw [toNat_ofNat_of_lt (m.call.bounds.1.trans h), toNat_ofNat_of_lt ht]
  | false =>
    refine ⟨m.call.callee.read_nameCode, fun target ht => ?_⟩
    exact congrArg Opcode.ambiguous (toNat_ofNat_of_lt ht)

theorem Block.reads_phrase (b : Block) (h : (Statement.block b).size < 2 ^ 32) {programs : Nat}
    (hp : programs + 1 < 2 ^ 32) :
    (b.phrase programs : Phrase UInt32).Reads (b.phrase programs) := by
  have hb := size_le_of_mem_statement (s := .block b) (g := b.body) List.mem_cons_self
  have hn : b.body.blockParams.length < 2 ^ 32 := by
    have := b.body.size_eq
    omega
  have hc : b.call.size < 2 ^ 32 := by
    rw [Statement.size] at h
    omega
  have hi : (b.inverse.map fun _ => (ofNat (programs + 1) : UInt32)).map Counter.toNat =
      b.inverse.map fun _ => programs + 1 := by
    rw [Option.map_map]
    exact congrArg (b.inverse.map ·) (funext fun _ => toNat_ofNat_of_lt hp)
  refine ⟨?_, fun target ht => ?_⟩
  · refine (b.call.read_program hc _ _).trans ?_
    rw [Option.map_some, toNat_ofNat_of_lt (Nat.lt_of_succ_lt hp), hi]
    rfl
  · change Opcode.helper (toNat (ofNat b.call.params.length : UInt32))
      (toNat (ofNat target : UInt32))
      (some (toNat (ofNat b.body.blockParams.length : UInt32))) = _
    rw [toNat_ofNat_of_lt (b.call.bounds.1.trans hc), toNat_ofNat_of_lt ht, toNat_ofNat_of_lt hn]
    rfl

/-- The attributes of a component read as its named operands. -/
theorem Component.read_attributesHash (c : Component)
    (h : (Statement.component c).size < 2 ^ 32) :
    ((attributesHash c.attributes).code : Code UInt32).read =
      (attributesHash c.attributes).code := by
  have ha : (c.attributes.map Attribute.size).sum < 2 ^ 32 := by
    rw [Statement.size] at h
    omega
  have hl : (attributesHash c.attributes).pairs.length < 2 ^ 32 := by
    change (c.attributes.map _).length < 2 ^ 32
    rw [List.length_map]
    exact (length_attributes_le c.attributes).trans_lt ha
  rw [Hash.code, Code.read_append, read_countCode hl,
    read_pairsCode _ fun p hp => (size_le_of_mem_attributesHash hp).trans_lt ha]
  rfl

theorem Component.reads_phrase (c : Component) (h : (Statement.component c).size < 2 ^ 32)
    {programs : Nat} (hp : programs < 2 ^ 32) :
    (c.phrase programs : Phrase UInt32).Reads (c.phrase programs) := by
  have hb := size_le_of_mem_statement (s := .component c) (g := c.body) List.mem_cons_self
  have hn : c.body.blockParams.length < 2 ^ 32 := by
    have := c.body.size_eq
    omega
  refine ⟨?_, fun target ht => ?_⟩
  · change (.one (.program (some (ofNat programs)) none) ++
      (.one (.string c.tag) ++ (attributesHash c.attributes).code) : Code UInt32).read = _
    rw [Code.read_append, Code.read_append, c.read_attributesHash h]
    change Code.one (.program (some (toNat (ofNat programs : UInt32))) none) ++ _ = _
    rw [toNat_ofNat_of_lt hp]
    rfl
  · change Opcode.component (toNat (ofNat target : UInt32))
      (toNat (ofNat c.body.blockParams.length : UInt32)) = _
    rw [toNat_ofNat_of_lt ht, toNat_ofNat_of_lt hn]
    rfl

/-- **What is bound at a dynamic statement reads as what is bound there.** -/
theorem Statement.reads_phrase {s : Statement} (h : s.size < 2 ^ 32) {programs : Nat}
    (hp : programs + s.nested.length < 2 ^ 32) {p : Phrase UInt32}
    (hs : s.phrase? programs = some p) :
    ∃ q : Phrase Nat, s.phrase? programs = some q ∧ p.Reads q := by
  cases s with
  | text _ | comment _ | element _ => exact absurd hs (by simp [phrase?])
  | mustache m =>
    obtain rfl := Option.some.inj hs
    rw [size] at h
    exact ⟨_, rfl, m.reads_phrase (by omega)⟩
  | block b =>
    obtain rfl := Option.some.inj hs
    rw [nested, List.length_cons] at hp
    exact ⟨_, rfl, b.reads_phrase h (by omega)⟩
  | component c =>
    obtain rfl := Option.some.inj hs
    exact ⟨_, rfl, c.reads_phrase h (by omega)⟩

end Template

/-! ## Streams -/

theorem read_bindings {ps : List (Phrase UInt32)} {qs : List (Phrase Nat)}
    (h : List.Forall₂ Phrase.Reads ps qs) {reference : Nat} (hr : reference < 2 ^ 32)
    (referenced : Bool) :
    (bindings (ofNat reference) referenced ps).map Opcode.read =
      bindings reference referenced qs := by
  induction h generalizing referenced with
  | nil => rfl
  | @cons p q ps qs hpq _ ih =>
    have ho : p.operands.opcodes.map Opcode.read = q.operands.opcodes :=
      congrArg Code.opcodes hpq.operands
    have he : (if referenced then [] else [Opcode.element (ofNat reference : UInt32)]).map
        Opcode.read = if referenced then [] else [.element reference] := by
      cases referenced with
      | true => rfl
      | false => exact congrArg (fun k => [Opcode.element k]) (toNat_ofNat_of_lt hr)
    rw [bindings, bindings, List.map_append, List.map_append, List.map_append, ho, he, ih,
      List.map_singleton, hpq.verb reference hr]

theorem read_repair (o : Options) (blanks : List ι) (checked : Bool) :
    (Assembler.repair o blanks checked).map Opcode.read =
      Assembler.repair o (blanks.map Counter.toNat) checked := by
  unfold Assembler.repair
  cases o.repairBlankText <;> cases blanks <;> cases o.repairChecked && checked <;> rfl

theorem read_blanks {statements : List Statement} (h : statements.length < 2 ^ 32) :
    (blanks statements : List UInt32).map Counter.toNat = blanks statements := by
  rw [blanks, blanks, List.map_map]
  refine List.map_congr_left ?_
  rintro ⟨s, i⟩ hs
  exact toNat_ofNat_of_lt ((List.snd_lt_of_mem_zipIdx (List.mem_of_mem_filter hs)).trans h)

section

variable {f : Fragment} (hf : f.size < 2 ^ 32) {ν : Node} (hν : ν ∈ f.nodes)

include hf hν

theorem isEager_word (o : Options) : ν.isEager UInt32 o = ν.isEager Nat o := by
  unfold Node.isEager
  split
  next e he => rw [toNat_ofNat_of_lt ((uses_lt_size hν he).trans hf)]; rfl
  next => rfl

theorem isReferenced_word (o : Options) : ν.isReferenced UInt32 o = ν.isReferenced Nat o := by
  unfold Node.isReferenced
  split
  next e he => rw [isEager_word hf hν, e.isEmpty_phrases, e.isEmpty_phrases]
  next => rfl

/-- Words give out as many numbers as naturals. -/
theorem step_word (o : Options) (n : Numbers) :
    n.step UInt32 o (.enter ν) = n.step Nat o (.enter ν) := by
  rw [Numbers.step, Numbers.step, isReferenced_word hf hν]

theorem read_tag (o : Options) {n : Numbers} (hn : n.references < 2 ^ 32) {e : Element}
    (he : ν.statement = .element e) :
    (ν.tag o n e : List (Opcode UInt32)).map Opcode.read = ν.tag o n e := by
  have hw := whole_size_lt hν
  rw [he] at hw
  have hc : e.children.length < 2 ^ 32 := by
    have hl := length_le_sizeIn e.children
    rw [Statement.children] at hw
    omega
  have hs : (Statement.element e).size < 2 ^ 32 := by omega
  have hr : (if ν.isEager Nat o then [Opcode.element (ofNat n.references : UInt32)] else []).map
      Opcode.read = if ν.isEager Nat o then [.element n.references] else [] := by
    cases ν.isEager Nat o with
    | true => exact congrArg (fun k => [Opcode.element k]) (toNat_ofNat_of_lt hn)
    | false => rfl
  rw [Node.tag, Node.tag, isEager_word hf hν, List.map_append, List.map_append, hr, read_repair,
    read_blanks hc, read_bindings (Element.reads_phrases hs) hn]
  rfl

theorem read_morph {k : Nat} (hk : k < 2 ^ 32) :
    (Opcode.morph (ν.morph k : Morph UInt32)).read = .morph (ν.morph k) := by
  have hm : ν.slot k = ν.morph k := by simp [Node.slot, Node.morph]
  exact congrArg Opcode.morph ((map_toNat_morph hf hν hk).trans hm)

/-- **What is written at a node reads as what is written there.** -/
theorem read_opening (o : Options) {n : Numbers} {k : Nat} (hn : n.Below k)
    (hk : k + ν.statement.size < 2 ^ 32) :
    (ν.opening o n : List (Opcode UInt32)).map Opcode.read = ν.opening o n := by
  obtain ⟨hm, hr, hp⟩ := hn
  rcases ν.statement.trichotomy (ι := UInt32) n.programs with ⟨e, he⟩ | ⟨hs, hd⟩ | ⟨-, -, p, hs⟩
  · have hi : ν.index < 2 ^ 32 :=
      ((index_lt_siblings hν).1.trans (index_lt_siblings hν).2).trans hf
    rw [Node.opening, Node.opening, he]
    simp only [List.map_append]
    rw [read_tag hf hν o (by omega) he]
    refine congrArg (· ++ ν.tag o n e) ?_
    cases ν.isSole with
    | true => rfl
    | false => exact congrArg (fun i => [Opcode.consumeParent i]) (toNat_ofNat_of_lt hi)
  · rw [Node.opening_of_static o n hs hd, Node.opening_of_static o n hs hd]
    rfl
  · have hl := ν.statement.length_nested_le
    obtain ⟨q, hq, hpq⟩ := Statement.reads_phrase (by omega) (by omega) hs
    rw [Node.opening_of_phrase o hs, Node.opening_of_phrase o hq, List.map_cons,
      hpq.opcodes (by omega), read_morph hf hν (by omega)]
    rfl

end

theorem read_closing (ν : Node) :
    (ν.closing : List (Opcode ι)).map Opcode.read = ν.closing := by
  unfold Node.closing
  split <;> rfl

/-- **A walk over nodes of a fragment writes with words what it writes with naturals.** -/
theorem read_stream (o : Options) {f : Fragment} (hf : f.size < 2 ^ 32) {n : Numbers} {k : Nat}
    (hn : n.Below k) {vs : List Visit} (hv : ∀ ν ∈ vs.filterMap Visit.entered?, ν ∈ f.nodes)
    (hk : k + ((vs.filterMap Visit.entered?).map (·.statement.size)).sum < 2 ^ 32) :
    (stream o n vs : List (Opcode UInt32)).map Opcode.read = stream o n vs := by
  induction vs generalizing n k with
  | nil => rfl
  | cons v vs ih =>
    rw [stream, stream, List.map_append]
    cases v with
    | enter ν =>
      have he : (Visit.enter ν :: vs).filterMap Visit.entered? =
        ν :: vs.filterMap Visit.entered? := rfl
      rw [he] at hv hk
      rw [List.map_cons, List.sum_cons] at hk
      have hν := hv ν List.mem_cons_self
      have hs := step_word hf hν o n
      have hr := ih (hn.step o ν) (fun μ hμ => hv μ (List.mem_cons_of_mem ν hμ)) (by omega)
      rw [hr, hs]
      exact congrArg (· ++ _) (read_opening hf hν o hn (by omega))
    | leave ν => exact congrArg₂ (· ++ ·) (read_closing ν) (ih hn hv hk)

theorem read_header (o : Options) {f : Fragment} (hf : f.size < 2 ^ 32) :
    (f.header o : List (Opcode UInt32)).map Opcode.read = f.header o := by
  have hs := f.size_eq
  have hb := length_le_sizeIn f.body
  rw [Fragment.header, Fragment.header, List.map_append, read_repair, read_blanks (by omega),
    List.map_map]
  refine congrArg (· ++ _) (List.map_congr_left ?_)
  rintro ⟨name, i⟩ hi
  have hl : i < f.blockParams.length := List.snd_lt_of_mem_zipIdx hi
  exact congrArg (Opcode.blockParam name) (toNat_ofNat_of_lt (by omega))

/-- **What a program is written with reads as naturals**, where the numbers fit. -/
theorem read_fragment (o : Options) {f : Fragment} (hf : f.size < 2 ^ 32) :
    (hoist (f.stream o) : List (Opcode UInt32)).map Opcode.read = hoist (f.stream o) := by
  have hv : f.visits.filterMap Visit.entered? = f.nodes := entered_visits _ _ _ _
  have hk : 0 + (f.nodes.map (·.statement.size)).sum < 2 ^ 32 := by
    have hs := f.size_eq
    rw [Fragment.nodes, ← sizeIn_eq_sum]
    omega
  have h0 : Numbers.Below {} 0 := ⟨Nat.le_refl 0, Nat.le_refl 0, Nat.le_refl 0⟩
  have hw : (stream o {} f.visits : List (Opcode UInt32)).map Opcode.read =
      stream o {} f.visits :=
    read_stream o hf h0 (fun ν hν => hv ▸ hν) (hv.symm ▸ hk)
  rw [read_hoist, Fragment.stream, List.map_append, read_header o hf, hw]
  rfl

/-! ## Logs -/

/-- An entry of a log with its numbers read. -/
def readEntry (e : Opcode ι × List ι) : Opcode Nat × List Nat :=
  (e.1.read, e.2.map Counter.toNat)

theorem scopeAfter?_read (floor : Nat) (scope : List ι) (op : Opcode ι) :
    op.read.scopeAfter? floor (scope.map Counter.toNat) =
      (op.scopeAfter? floor scope).map (List.map Counter.toNat) := by
  cases op with
  | consumeParent i => simp [Opcode.read, Opcode.map, Opcode.scopeAfter?]
  | popParent =>
    simp only [Opcode.read, Opcode.map, Opcode.scopeAfter?, List.length_map]
    split
    · rfl
    · simp
  | _ => rfl

/-- **A replay read as naturals is a replay of naturals.** -/
theorem replay_read {floor : Nat} {scope scope' : List ι} {ops : List (Opcode ι)}
    {log : List (Opcode ι × List ι)} (h : replay floor scope ops = some (log, scope')) :
    replay floor (scope.map Counter.toNat) (ops.map Opcode.read) =
      some (log.map readEntry, scope'.map Counter.toNat) := by
  induction ops generalizing scope log with
  | nil =>
    obtain ⟨rfl, rfl⟩ := Prod.mk.inj (Option.some.inj h)
    rfl
  | cons op ops ih =>
    obtain ⟨next, rest, hn, hr, rfl⟩ := replay_cons.mp h
    refine replay_cons.mpr ⟨next.map Counter.toNat, rest.map readEntry, ?_, ih hr, rfl⟩
    rw [scopeAfter?_read, hn, Option.map_some]

/-- The first position of all is read back. -/
theorem read_startScope (f : Fragment) :
    (f.startScope.map (ofNat : Nat → UInt32)).map Counter.toNat = f.startScope := by
  refine map_toNat_map_ofNat fun i hi => ?_
  unfold Fragment.startScope at hi
  split at hi
  · rw [List.mem_singleton.mp hi]
    decide
  · exact absurd hi List.not_mem_nil

/-- **The log of a program reads as naturals**, where the numbers fit. -/
theorem read_log (o : Options) {f : Fragment} (hf : f.size < 2 ^ 32) :
    (hoistLog (f.log o) : List (Opcode UInt32 × List UInt32)).map readEntry =
      hoistLog (f.log o) := by
  have hw := replay_read (replay_hoist (replay_fragment (ι := UInt32) o f))
  have hn := replay_hoist (replay_fragment (ι := Nat) o f)
  rw [read_startScope, read_fragment o hf] at hw
  rw [map_ofNat_nat, hw] at hn
  exact (Prod.mk.inj (Option.some.inj hn)).1

end Hydration
