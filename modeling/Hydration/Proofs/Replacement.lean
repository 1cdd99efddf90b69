import Hydration.Proofs.Rendering

/-!
# Proofs/Replacement — one nested fragment in the place of another

A *context* is a fragment with one nested fragment left out: a hole in a block or component, with
statements around it and elements around those. Every nested fragment is what some context is filled
with (`exists_context`).

All that the fragment around sees of what fills the hole is how many parameters it has. The
statement at the hole is written in the same way, and so is every element around it, for it counts
its dynamic children and looks for blank texts, and finds the same (`alike_fill`). Numbers are given
out in document order, and one nested fragment takes one of them, whatever is in it.

* `compile_fill`: filling the hole with another fragment changes the program in one place, the
  nested program with the number of the hole.
* `compile_nested`: so any fragment nested in one that compiles can be edited on its own.
-/

namespace Hydration.Template

/-! ## Contexts -/

/-- **A statement with a nested fragment left out.** -/
inductive Hole where
  | blockBody (call : Call) (inverse : Option Fragment) (span : Span)
  | blockInverse (call : Call) (body : Fragment) (span : Span)
  | componentBody (tag : String) (attributes : List Attribute) (span : Span)

namespace Hole

/-- The statement with a fragment put into the hole. -/
def fill : Hole → Fragment → Statement
  | blockBody call inverse span, q => .block ⟨call, q, inverse, span⟩
  | blockInverse call body span, q => .block ⟨call, body, some q, span⟩
  | componentBody tag attributes span, q => .component ⟨tag, attributes, q, span⟩

/-- The fragment of the same statement that comes before the hole. -/
def before : Hole → List Fragment
  | blockInverse _ body _ => [body]
  | _ => []

/-- The fragment of the same statement that comes after the hole. -/
def behind : Hole → List Fragment
  | blockBody _ inverse _ => inverse.toList
  | _ => []

/-- What fills the hole is rendered with its parameters; an inverse is not. -/
def takesParams : Hole → Bool
  | blockInverse .. => false
  | _ => true

/-- **The instruction that hands over what fills the hole**, under a number. -/
def handover {ι : Type} [Counter ι] (number : Nat) : Hole → Opcode ι
  | blockBody _ inverse _ => .program (some (Counter.ofNat number))
      (inverse.map fun _ => Counter.ofNat (number + 1))
  | blockInverse .. => .program (some (Counter.ofNat (number - 1))) (some (Counter.ofNat number))
  | componentBody .. => .program (some (Counter.ofNat number)) none

theorem children_fill (hole : Hole) (q : Fragment) : (hole.fill q).children = [] := by
  cases hole <;> rfl

theorem nested_fill (hole : Hole) (q : Fragment) :
    (hole.fill q).nested = hole.before ++ q :: hole.behind := by
  cases hole <;> rfl

end Hole

/-- The fragments nested in statements, in document order. -/
def nestedIn (statements : List Statement) : List Fragment :=
  (nodes [] 0 0 statements).flatMap (·.statement.nested)

/-- Where the statements stand makes no difference to that. -/
theorem nested_nodes (path : List Nat) (length index : Nat) (statements : List Statement) :
    (nodes path length index statements).flatMap (·.statement.nested) = nestedIn statements := by
  unfold nestedIn
  induction statements using Statement.inside_induction generalizing path length index with
  | nil => rw [nodes_nil, nodes_nil]
  | cons s rest ihs ihr =>
    rw [nodes_cons, nodes_cons, List.flatMap_cons, List.flatMap_cons, List.flatMap_append,
      List.flatMap_append, ihs, ihr, ihs ([] ++ [0]), ihr [] 0 (0 + 1)]

theorem nestedIn_nil : nestedIn [] = [] := by rw [nestedIn, nodes_nil, List.flatMap_nil]

theorem nestedIn_cons (s : Statement) (rest : List Statement) :
    nestedIn (s :: rest) = s.nested ++ (nestedIn s.children ++ nestedIn rest) := by
  rw [nestedIn, nodes_cons, List.flatMap_cons, List.flatMap_append, nested_nodes, nested_nodes]

theorem nestedIn_append (as bs : List Statement) :
    nestedIn (as ++ bs) = nestedIn as ++ nestedIn bs := by
  induction as with
  | nil => rw [nestedIn_nil]; rfl
  | cons s as ih => simp only [List.cons_append, nestedIn_cons, ih, List.append_assoc]

/-- **Statements with a nested fragment left out**, inside any number of elements. -/
inductive Context where
  | here (front : List Statement) (hole : Hole) (back : List Statement)
  | inside (front : List Statement) (tag : String) (attributes : List Attribute)
      (helpers : List Call) (inner : Context) (span : Span) (back : List Statement)

namespace Context

/-- The statements with a fragment put into the hole. -/
def fill : Context → Fragment → List Statement
  | here front hole back, q => front ++ hole.fill q :: back
  | inside front tag attributes helpers inner span back, q =>
    front ++ .element ⟨tag, attributes, helpers, inner.fill q, span⟩ :: back

/-- The hole of a context. -/
def hole : Context → Hole
  | here _ hole _ => hole
  | inside _ _ _ _ inner _ _ => inner.hole

/-- The nested fragments that come before the hole. -/
def before : Context → List Fragment
  | here front hole _ => nestedIn front ++ hole.before
  | inside front _ _ _ inner _ _ => nestedIn front ++ inner.before

/-- The nested fragments that come after the hole. -/
def behind : Context → List Fragment
  | here _ hole back => hole.behind ++ nestedIn back
  | inside _ _ _ _ inner _ back => inner.behind ++ nestedIn back

/-- **The number of the hole**: how many nested fragments come before it. -/
def number (C : Context) : Nat := C.before.length

theorem nestedIn_fill (C : Context) (q : Fragment) :
    nestedIn (C.fill q) = C.before ++ q :: C.behind := by
  induction C with
  | here front hole back =>
    rw [fill, before, behind, nestedIn_append, nestedIn_cons, hole.children_fill, hole.nested_fill,
      nestedIn_nil]
    simp
  | inside front tag attributes helpers inner span back ih =>
    have hs : (Statement.element ⟨tag, attributes, helpers, inner.fill q, span⟩).nested = [] := rfl
    have hc : (Statement.element ⟨tag, attributes, helpers, inner.fill q, span⟩).children =
      inner.fill q := rfl
    rw [fill, before, behind, nestedIn_append, nestedIn_cons, hs, hc, ih]
    simp

/-- The context with one more statement in front. -/
def cons (s : Statement) : Context → Context
  | here front hole back => here (s :: front) hole back
  | inside front tag attributes helpers inner span back =>
    inside (s :: front) tag attributes helpers inner span back

theorem fill_cons (s : Statement) (C : Context) (q : Fragment) :
    (C.cons s).fill q = s :: C.fill q := by
  cases C <;> rfl

theorem number_cons (s : Statement) (C : Context) :
    (C.cons s).number = s.nested.length + (nestedIn s.children).length + C.number := by
  cases C <;> simp [number, before, cons, nestedIn_cons, Nat.add_assoc]

end Context

theorem Statement.exists_hole {s : Statement} {k : Nat} {q : Fragment} (h : s.nested[k]? = some q) :
    ∃ hole : Hole, hole.fill q = s ∧ hole.before.length = k := by
  cases s with
  | text _ | comment _ | element _ | mustache _ => exact absurd h (by simp [nested])
  | block b =>
    obtain ⟨call, body, inverse, span⟩ := b
    rcases k with _ | k
    · obtain rfl : body = q := Option.some.inj h
      exact ⟨.blockBody call inverse span, rfl, rfl⟩
    · have hk : inverse.toList[k]? = some q := h
      obtain rfl : inverse = some q := Option.mem_toList.mp (List.mem_of_getElem? hk)
      obtain rfl : k = 0 := by simpa using (List.getElem?_eq_some_iff.mp hk).1
      exact ⟨.blockInverse call body span, rfl, rfl⟩
  | component c =>
    obtain ⟨tag, attributes, body, span⟩ := c
    obtain rfl : k = 0 := by simpa [nested] using (List.getElem?_eq_some_iff.mp h).1
    obtain rfl : body = q := Option.some.inj h
    exact ⟨.componentBody tag attributes span, rfl, rfl⟩

/-- **Every nested fragment fills a context**, whose number is its position. -/
theorem exists_context {statements : List Statement} {k : Nat} {q : Fragment}
    (h : (nestedIn statements)[k]? = some q) :
    ∃ C : Context, C.fill q = statements ∧ C.number = k := by
  induction statements using Statement.inside_induction generalizing k with
  | nil => exact absurd h (by simp [nestedIn_nil])
  | cons s rest ihs ihr =>
    rw [nestedIn_cons] at h
    by_cases hs : k < s.nested.length
    · -- The fragment is nested in the statement itself.
      rw [List.getElem?_append_left hs] at h
      obtain ⟨hole, rfl, hk⟩ := Statement.exists_hole h
      refine ⟨.here [] hole rest, rfl, ?_⟩
      rw [Context.number, Context.before, nestedIn_nil]
      exact hk
    · rw [List.getElem?_append_right (by omega)] at h
      by_cases hc : k - s.nested.length < (nestedIn s.children).length
      · -- It is nested inside the statement, which is then an element.
        rw [List.getElem?_append_left hc] at h
        obtain ⟨inner, hf, hk⟩ := ihs h
        cases he : s.isElement with
        | false =>
          rw [Statement.children_eq_nil he, nestedIn_nil] at h
          exact absurd h (by simp)
        | true =>
          obtain ⟨⟨tag, attributes, helpers, children, span⟩, rfl⟩ := Statement.isElement_iff.mp he
          obtain rfl : inner.fill q = children := hf
          refine ⟨.inside [] tag attributes helpers inner span rest, rfl, ?_⟩
          rw [Context.number, Context.before, nestedIn_nil]
          exact hk
      · -- It is nested behind the statement.
        rw [List.getElem?_append_right (by omega)] at h
        obtain ⟨C, rfl, hk⟩ := ihr h
        refine ⟨C.cons s, C.fill_cons s q, ?_⟩
        rw [C.number_cons]
        omega

/-! ## What is wrong -/

theorem violationsIn_append (as bs : List Statement) :
    violationsIn (as ++ bs) = violationsIn as ++ violationsIn bs := by
  induction as with
  | nil => rw [violationsIn_nil]; rfl
  | cons s as ih => simp only [List.cons_append, violationsIn_cons, ih, List.append_assoc]

theorem Hole.violations_fill {hole : Hole} {q q' : Fragment} (h : (hole.fill q).violations = [])
    (hq : q'.violations = []) : (hole.fill q').violations = [] := by
  cases hole <;> simp_all [fill, Statement.violations]

/-- **Nothing is wrong in a context** with something else in the hole that has nothing wrong. -/
theorem Context.violations_fill {C : Context} {q q' : Fragment}
    (h : violationsIn (C.fill q) = []) (hq : q'.violations = []) :
    violationsIn (C.fill q') = [] := by
  induction C with
  | here front hole back =>
    rw [fill, violationsIn_append, violationsIn_cons, hole.children_fill] at h ⊢
    simp only [List.append_eq_nil_iff] at h ⊢
    exact ⟨h.1, hole.violations_fill h.2.1 hq, h.2.2⟩
  | inside front tag attributes helpers inner span back ih =>
    rw [fill, violationsIn_append, violationsIn_cons] at h ⊢
    simp only [List.append_eq_nil_iff, Statement.children] at h ⊢
    exact ⟨h.1, h.2.1, ih h.2.2.1, h.2.2.2⟩

/-! ## What an element sees of its children -/

/-- One statement in the place of another that is blank if that is. -/
theorem blanks_middle {ι : Type} [Counter ι] {s s' : Statement} (h : s.isBlank = s'.isBlank)
    (front back : List Statement) :
    (blanks (front ++ s :: back) : List ι) = blanks (front ++ s' :: back) := by
  simp only [blanks, List.zipIdx_append, List.zipIdx_cons, List.filter_append, List.filter_cons, h]
  cases s'.isBlank <;> simp

namespace Context

/-- **The two lists of statements differ in one of them**, and not in what an element counts. -/
theorem exists_middle (C : Context) (q q' : Fragment) :
    ∃ front s s' back, C.fill q = front ++ s :: back ∧ C.fill q' = front ++ s' :: back ∧
      s.isBlank = s'.isBlank ∧ s.isDynamic = s'.isDynamic := by
  cases C with
  | here front hole back => exact ⟨front, _, _, back, rfl, rfl, by cases hole <;> exact ⟨rfl, rfl⟩⟩
  | inside front tag attributes helpers inner span back =>
    exact ⟨front, _, _, back, rfl, rfl, rfl, rfl⟩

theorem length_fill (C : Context) (q q' : Fragment) : (C.fill q).length = (C.fill q').length := by
  obtain ⟨front, s, s', back, h, h', -, -⟩ := C.exists_middle q q'
  simp [h, h']

theorem blanks_fill {ι : Type} [Counter ι] (C : Context) (q q' : Fragment) :
    (blanks (C.fill q) : List ι) = blanks (C.fill q') := by
  obtain ⟨front, s, s', back, h, h', hb, -⟩ := C.exists_middle q q'
  rw [h, h', blanks_middle hb]

theorem countP_isDynamic_fill (C : Context) (q q' : Fragment) :
    (C.fill q).countP Statement.isDynamic = (C.fill q').countP Statement.isDynamic := by
  obtain ⟨front, s, s', back, h, h', -, hd⟩ := C.exists_middle q q'
  rw [h, h', List.countP_append, List.countP_append, List.countP_cons, List.countP_cons, hd]

end Context

theorem visits_append (path : List Nat) (length index : Nat) (as bs : List Statement) :
    visits path length index (as ++ bs) =
      visits path length index as ++ visits path length (index + as.length) bs := by
  induction as generalizing index with
  | nil => rw [visits_nil]; rfl
  | cons s as ih =>
    rw [List.cons_append, visits_cons, visits_cons, ih, List.length_cons,
      Nat.add_right_comm index 1]
    simp [Nat.add_assoc]

end Hydration.Template

namespace Hydration

open Template Counter

variable {ι : Type} [Counter ι]

/-! ## Walks that write the same -/

/-- **Two steps that write the same and give out as many numbers**, whatever was given out
before. -/
def Alike (ι : Type) [Counter ι] (o : Options) (u v : Visit) : Prop :=
  ∀ n : Numbers, (u.opcodes o n : List (Opcode ι)) = v.opcodes o n ∧ n.step ι o u = n.step ι o v

theorem forall₂_alike_refl (o : Options) (vs : List Visit) : List.Forall₂ (Alike ι o) vs vs :=
  List.forall₂_same.mpr fun _ _ _ => ⟨rfl, rfl⟩

/-- **Walks whose steps are alike write the same.** -/
theorem stream_of_alike {o : Options} {us vs : List Visit} (h : List.Forall₂ (Alike ι o) us vs)
    (n : Numbers) : (stream o n us : List (Opcode ι)) = stream o n vs := by
  induction h generalizing n with
  | nil => rfl
  | cons hv _ ih =>
    obtain ⟨hw, hn⟩ := hv n
    rw [stream, stream, hw, hn, ih]

/-- The statement at the hole is written the same way for what has as many parameters. -/
theorem phrase?_fill {hole : Hole} {q q' : Fragment}
    (hb : hole.takesParams → q'.blockParams.length = q.blockParams.length) (programs : Nat) :
    ((hole.fill q').phrase? programs : Option (Phrase ι)) = (hole.fill q).phrase? programs := by
  cases hole with
  | blockBody call inverse span =>
    have hl : q'.blockParams.length = q.blockParams.length := hb rfl
    simp only [Hole.fill, Statement.phrase?, Block.phrase, hl]
  | blockInverse call body span => rfl
  | componentBody tag attributes span =>
    have hl : q'.blockParams.length = q.blockParams.length := hb rfl
    simp only [Hole.fill, Statement.phrase?, Component.phrase, hl]

/-- …and so are the steps there. -/
theorem alike_hole (o : Options) {hole : Hole} {q q' : Fragment}
    (hb : hole.takesParams → q'.blockParams.length = q.blockParams.length) (path : List Nat)
    (length index : Nat) :
    Alike ι o (.enter ⟨path, index, length, hole.fill q'⟩)
      (.enter ⟨path, index, length, hole.fill q⟩) := by
  intro n
  obtain ⟨p, hp⟩ : ∃ p : Phrase ι, (hole.fill q).phrase? n.programs = some p := by
    cases hole <;> exact ⟨_, rfl⟩
  have hp' := (phrase?_fill hb n.programs).trans hp
  refine ⟨?_, by cases hole <;> rfl⟩
  rw [Visit.opcodes, Visit.opcodes, Node.opening_of_phrase o hp',
    Node.opening_of_phrase o hp]
  cases hole <;> rfl

/-- **An element is written the same way with other children**, if as many of them are dynamic and
the same ones are blank. -/
theorem alike_children (o : Options) (e : Element) {children : List Statement}
    (hb : (blanks children : List ι) = blanks e.children)
    (hd : children.countP Statement.isDynamic = e.children.countP Statement.isDynamic)
    (path : List Nat) (length index : Nat) :
    Alike ι o (.enter ⟨path, index, length, .element { e with children }⟩)
      (.enter ⟨path, index, length, .element e⟩) := by
  intro n
  have hu : { e with children : Element }.uses = e.uses := by
    simp only [Element.uses, hd]
  have he : Node.isEager ι o ⟨path, index, length, .element { e with children }⟩ =
      Node.isEager ι o ⟨path, index, length, .element e⟩ := by
    simp only [Node.isEager, hu]
    rfl
  constructor
  · simp only [Visit.opcodes, Node.opening, Node.tag, he, hb]
    rfl
  · simp only [Numbers.step, Node.isReferenced, he]
    rfl

/-- **A walk over a context takes the same steps**, whatever has as many parameters fills it. -/
theorem alike_fill (o : Options) {C : Context} {q q' : Fragment}
    (hb : C.hole.takesParams → q'.blockParams.length = q.blockParams.length) (path : List Nat)
    (length index : Nat) :
    List.Forall₂ (Alike ι o) (visits path length index (C.fill q'))
      (visits path length index (C.fill q)) := by
  have hl (ν ν' : Node) (h : (ν'.closing : List (Opcode ι)) = ν.closing) :
      Alike ι o (.leave ν') (.leave ν) := fun _ => ⟨h, rfl⟩
  induction C generalizing path length index with
  | here front hole back =>
    rw [Context.fill, Context.fill, visits_append, visits_append, visits_cons, visits_cons,
      hole.children_fill, hole.children_fill, visits_nil]
    refine List.rel_append (forall₂_alike_refl o _) (.cons (alike_hole o hb _ _ _) ?_)
    refine .cons (hl _ _ ?_) (forall₂_alike_refl o _)
    cases hole <;> rfl
  | inside front tag attributes helpers inner span back ih =>
    rw [Context.fill, Context.fill, visits_append, visits_append, visits_cons, visits_cons]
    refine List.rel_append (forall₂_alike_refl o _) (.cons ?_ (List.rel_append ?_ ?_))
    · exact alike_children o ⟨tag, attributes, helpers, inner.fill q, span⟩
        (inner.blanks_fill q' q) (inner.countP_isDynamic_fill q' q) _ _ _
    · simp only [Statement.children, inner.length_fill q' q]
      exact ih hb _ _ _
    · exact .cons (hl _ _ rfl) (forall₂_alike_refl o _)

/-! ## Programs -/

/-- The fragment that a context is part of, with a fragment put into the hole. -/
def Template.Context.fragment (C : Context) (params : List String) (span : Span) (q : Fragment) :
    Fragment :=
  ⟨C.fill q, params, span⟩

theorem stream_fill (o : Options) {C : Context} {q q' : Fragment}
    (hb : C.hole.takesParams → q'.blockParams.length = q.blockParams.length)
    (params : List String) (span : Span) :
    ((C.fragment params span q').stream o : List (Opcode ι)) =
      (C.fragment params span q).stream o := by
  have hl := C.length_fill q' q
  have hv : (stream o {} (C.fragment params span q').visits : List (Opcode ι)) =
      stream o {} (C.fragment params span q).visits := by
    simp only [Fragment.visits, Context.fragment, hl]
    exact stream_of_alike (alike_fill o hb _ _ _) {}
  rw [Fragment.stream, Fragment.stream, hv]
  simp only [Fragment.header, Context.fragment, C.blanks_fill q' q]

theorem Template.Fragment.nested_eq (f : Fragment) : f.nested = nestedIn f.body := by
  rw [nested, nodes, nested_nodes]

theorem nested_fragment (C : Context) (params : List String) (span : Span) (q : Fragment) :
    (C.fragment params span q).nested = C.before ++ q :: C.behind := by
  rw [Fragment.nested_eq]
  exact C.nestedIn_fill q

/-! ### The number of the hole -/

theorem Template.nodes_append (path : List Nat) (length index : Nat) (as bs : List Statement) :
    nodes path length index (as ++ bs) =
      nodes path length index as ++ nodes path length (index + as.length) bs := by
  rw [← entered_visits, visits_append, List.filterMap_append, entered_visits, entered_visits]

/-- The node at the hole, and how many nested fragments come before it. -/
theorem Template.Context.exists_node (C : Context) (q : Fragment) (path : List Nat)
    (length index : Nat) :
    ∃ front ν back, nodes path length index (C.fill q) = front ++ ν :: back ∧
      ν.statement = C.hole.fill q ∧
      (front.flatMap (·.statement.nested)).length + C.hole.before.length = C.number := by
  induction C generalizing path length index with
  | here front hole back =>
    rw [fill, nodes_append, nodes_cons]
    refine ⟨_, _, _, rfl, rfl, ?_⟩
    rw [nested_nodes, number, before, List.length_append]
    rfl
  | inside front tag attributes helpers inner span back ih =>
    let ε : Node := ⟨path, index + front.length, length,
      .element ⟨tag, attributes, helpers, inner.fill q, span⟩⟩
    obtain ⟨us, ν, vs, hn, hs, hl⟩ := ih (path ++ [index + front.length]) (inner.fill q).length 0
    refine ⟨nodes path length index front ++ ε :: us, ν,
      vs ++ nodes path length (index + front.length + 1) back, ?_, hs, ?_⟩
    · rw [fill, nodes_append, nodes_cons, Statement.children, hn]
      simp [ε]
    · have he : ε.statement.nested = [] := rfl
      rw [List.flatMap_append, List.flatMap_cons, nested_nodes, he, List.nil_append, number, before,
        List.length_append, List.length_append]
      change _ + inner.hole.before.length = _ + inner.number
      omega

theorem offers_append (programs : Nat) (front back : List Node) :
    (offers programs (front ++ back) : List ((ι × Option ι) × ι)) = offers programs front ++
      offers (programs + (front.flatMap (·.statement.nested)).length) back := by
  induction front generalizing programs with
  | nil => rfl
  | cons ν front ih =>
    rw [List.cons_append, offers, ih, offers, List.append_assoc, List.flatMap_cons,
      List.length_append, Nat.add_assoc]

omit [Counter ι] in
theorem Opcode.eq_program_of_handsOver? {op : Opcode ι} {body : ι} {inverse : Option ι}
    (h : op.handsOver? = some (body, inverse)) : op = .program (some body) inverse := by
  cases op with
  | program body' inverse' => cases body' <;> simp_all [handsOver?]
  | _ => exact absurd h (by simp [handsOver?])

/-- The statement at the hole hands over what fills it, by the number that the hole then has. -/
theorem Template.Hole.handover_offers (hole : Hole) (q : Fragment) (programs : Nat) :
    ∃ x : (ι × Option ι) × ι, x ∈ (hole.fill q).offers programs ∧
      hole.handover (programs + hole.before.length) = .program (some x.1.1) x.1.2 := by
  cases hole <;> exact ⟨_, List.mem_singleton.mpr rfl, rfl⟩

/-- **What fills the hole is handed over under its number.** -/
theorem handover_mem (o : Options) (C : Context) (params : List String) (span : Span)
    (q : Fragment) :
    C.hole.handover C.number ∈ (hoist ((C.fragment params span q).stream o) : List (Opcode ι)) := by
  obtain ⟨front, ν, back, hn, hs, hl⟩ := C.exists_node q [] (C.fill q).length 0
  obtain ⟨x, hx, hc⟩ := C.hole.handover_offers (ι := ι) q
    (front.flatMap (·.statement.nested)).length
  have hm : x.1 ∈ (hoist ((C.fragment params span q).stream o) : List (Opcode ι)).filterMap
      Opcode.handsOver? := by
    have hf : (C.fragment params span q).nodes = front ++ ν :: back := hn
    rw [handedOver_fragment, hf, offers_append, offers, hs, Nat.zero_add]
    exact List.mem_map_of_mem (List.mem_append_right _ (List.mem_append_left _ hx))
  obtain ⟨op, hop, he⟩ := List.mem_filterMap.mp hm
  rwa [← hl, hc, ← Opcode.eq_program_of_handsOver? he]

/-! ### Filling the hole anew -/

section

variable {C : Context} {params : List String} {span : Span} {q q' : Fragment} {o : Options}
  {p r : Program UInt32}

/-- **The program around the hole**: what fills the hole is one of the nested programs. -/
theorem result_fragment (hv : (C.fragment params span q).violations = []) :
    ((C.fragment params span q).compile o : Compiled UInt32).result =
      .ok ⟨hoist ((C.fragment params span q).stream o),
        C.before.map (Fragment.output o) ++ q.output o :: C.behind.map (Fragment.output o)⟩ := by
  rw [result_compile o hv, nested_fragment, List.map_append, List.map_cons]

theorem eq_of_compile_fragment
    (hp : ((C.fragment params span q).compile o : Compiled UInt32).result = .ok p) :
    p = ⟨hoist ((C.fragment params span q).stream o),
      C.before.map (Fragment.output o) ++ q.output o :: C.behind.map (Fragment.output o)⟩ := by
  have hv : (C.fragment params span q).violations = [] := (compile_eq_ok_iff o _).mp ⟨p, hp⟩
  exact Except.ok.inj (hp.symm.trans (result_fragment hv))

theorem Template.Context.number_eq_length (C : Context) (o : Options) :
    C.number = (C.before.map (Fragment.output o : Fragment → Program UInt32)).length :=
  (List.length_map _).symm

/-- **What fills the hole has its number**… -/
theorem child?_fragment
    (hp : ((C.fragment params span q).compile o : Compiled UInt32).result = .ok p) :
    (p.child? C.number).map .ok = some (q.compile o : Compiled UInt32).result := by
  have hv : (C.fragment params span q).violations = [] := (compile_eq_ok_iff o _).mp ⟨p, hp⟩
  have hq : q.violations = [] := by
    refine violations_of_nested hv ?_
    rw [nested_fragment]
    exact List.mem_append_right _ List.mem_cons_self
  rw [result_eq_output o hq, eq_of_compile_fragment hp, Program.child?, C.number_eq_length o,
    List.getElem?_append_right (Nat.le_refl _), Nat.sub_self, List.getElem?_cons_zero,
    Option.map_some]

/-- …and is handed over under it. -/
theorem handover_mem_opcodes
    (hp : ((C.fragment params span q).compile o : Compiled UInt32).result = .ok p) :
    C.hole.handover C.number ∈ p.opcodes := by
  rw [eq_of_compile_fragment hp]
  exact handover_mem o C params span q

/-- **Nothing else changes with what fills the hole.** -/
theorem result_refill
    (hp : ((C.fragment params span q).compile o : Compiled UInt32).result = .ok p)
    (hr : (q'.compile o : Compiled UInt32).result = .ok r)
    (hb : C.hole.takesParams → q'.blockParams.length = q.blockParams.length) :
    ((C.fragment params span q').compile o : Compiled UInt32).result =
      .ok { p with children := p.children.set C.number r } := by
  have hv : (C.fragment params span q).violations = [] := (compile_eq_ok_iff o _).mp ⟨p, hp⟩
  have hq' : q'.violations = [] := (compile_eq_ok_iff o q').mp ⟨r, hr⟩
  have hv' : (C.fragment params span q').violations = [] := by
    rw [Fragment.violations_eq] at hv ⊢
    exact C.violations_fill hv hq'
  obtain rfl : q'.output o = r := Except.ok.inj ((result_eq_output o hq').symm.trans hr)
  rw [result_fragment hv', stream_fill o hb, eq_of_compile_fragment hp, C.number_eq_length o,
    List.set_append_right _ _ (Nat.le_refl _), Nat.sub_self, List.set_cons_zero]

end

/-- **Edits inside a nested fragment stay inside its program.** If a fragment compiles to `p`, and
the nested fragment in one of its places is replaced by one that compiles to `r` and, unless it is
an inverse, has as many parameters, then the result compiles to `p` with `r` as the nested program
of that number. It is the number under which the old one stood, and by which it is handed over. -/
theorem compile_fill {C : Context} {params : List String} {span : Span} {q q' : Fragment}
    {o : Options} {p r : Program UInt32}
    (hp : ((C.fragment params span q).compile o : Compiled UInt32).result = .ok p)
    (hr : (q'.compile o : Compiled UInt32).result = .ok r)
    (hb : C.hole.takesParams → q'.blockParams.length = q.blockParams.length) :
    ((C.fragment params span q').compile o : Compiled UInt32).result =
        .ok { p with children := p.children.set C.number r } ∧
      (p.child? C.number).map .ok = some (q.compile o : Compiled UInt32).result ∧
      C.hole.handover C.number ∈ p.opcodes := by
  exact ⟨result_refill hp hr hb, child?_fragment hp, handover_mem_opcodes hp⟩

/-- The roster without the body of its block, which is nested in the list between two statements. -/
def Template.Context.roster : Context :=
  .inside [.mustache { call := { callee := { segments := ["title"] } } }] "ul"
    [{ name := "class", value := [.text { chars := "list " }, .path { segments := ["kind"] }] }]
    [{ callee := { segments := ["on"] }
       params := [.string "click" {}, .sub {
         callee := { segments := ["pick"] }
         hash := some {
           pairs := [{ key := "by", value := .path { segments := ["this", "id"] } }] } }] }]
    (.here [.text { chars := "" }]
      (.blockBody
        { callee := { segments := ["each"] }, params := [.path { segments := ["items"] }] }
        (some { body := [.text { chars := "none" }] }) {})
      []) {}
    [.component {
      tag := "page-footer"
      attributes := [{ name := "year", value := [.path { segments := ["year"] }] }]
      body := { body := [.mustache { call := { callee := { segments := ["yield"] } } }] } }]

/-- A row of the roster. -/
def Template.Fragment.rosterRow : Fragment where
  body := [.element {
    tag := "li"
    children := [
      .mustache { call := { callee := { segments := ["item", "name"] } } },
      .text { chars := ", " },
      .mustache { call := { callee := { segments := ["note"] } }, escaped := false }] }]
  blockParams := ["item"]

/-- Another row, with a block of its own in it. -/
def Template.Fragment.rosterEntry : Fragment where
  body := [
    .block {
      call := {
        callee := { segments := ["if"] }
        params := [.path { segments := ["entry", "new"] }] }
      body := { body := [.text { chars := "new: " }] } },
    .mustache { call := { callee := { segments := ["entry", "name"] } } }]
  blockParams := ["entry"]

theorem compile_fill_roster : ∃ p r : Program UInt32,
    ((Context.roster.fragment [] {} .rosterRow).compile {} : Compiled UInt32).result = .ok p ∧
      (Fragment.rosterEntry.compile {} : Compiled UInt32).result = .ok r ∧
      Fragment.rosterEntry.blockParams.length = Fragment.rosterRow.blockParams.length ∧
      ((Context.roster.fragment [] {} .rosterEntry).compile {} : Compiled UInt32).result =
        .ok { p with children := p.children.set Context.roster.number r } := by
  have hf : Template.roster.root = Context.roster.fragment [] {} .rosterRow := rfl
  obtain ⟨p, hp⟩ := roster_compiles
  have hp := compile_of_program hp
  rw [hf] at hp
  have hv : Fragment.rosterEntry.violations = [] := by decide +kernel
  obtain ⟨r, hr⟩ := (compile_eq_ok_iff (ι := UInt32) {} Fragment.rosterEntry).mpr hv
  exact ⟨p, r, hp, hr, rfl, (compile_fill hp hr fun _ => rfl).1⟩

/-- **Every nested fragment can be edited on its own.** If a fragment compiles to `p`, each fragment
nested in it fills the hole of a context, under the number of its program in `p`, and whatever is
put there in its stead changes that program and nothing else. -/
theorem compile_nested {f q : Fragment} {k : Nat} {o : Options} {p : Program UInt32}
    (hp : (f.compile o : Compiled UInt32).result = .ok p) (hq : f.nested[k]? = some q) :
    ∃ C : Context, C.fragment f.blockParams f.span q = f ∧ C.number = k ∧
      (p.child? k).map .ok = some (q.compile o : Compiled UInt32).result ∧
      C.hole.handover k ∈ p.opcodes ∧
      ∀ q' r, (q'.compile o : Compiled UInt32).result = .ok r →
        (C.hole.takesParams → q'.blockParams.length = q.blockParams.length) →
        ((C.fragment f.blockParams f.span q').compile o : Compiled UInt32).result =
          .ok { p with children := p.children.set k r } := by
  obtain ⟨body, params, span⟩ := f
  rw [Fragment.nested_eq] at hq
  obtain ⟨C, hfill, rfl⟩ := exists_context hq
  obtain rfl : C.fill q = body := hfill
  exact ⟨C, rfl, rfl, child?_fragment hp, handover_mem_opcodes hp, fun _ _ => result_refill hp⟩

end Hydration
