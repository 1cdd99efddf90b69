import Hydration.Compile.Walk
import Mathlib.Data.List.Basic

/-!
# Proofs/Document — the statements of a fragment in document order

Cloning the static markup of a fragment gives one node for each statement that is reached through
the children of elements; nested fragments are not part of it. `nodes` lists them in document order,
each with its place: the positions of the elements around it and its own among its siblings.
`mem_nodes` says that this is a list of all places there are.

`visits` is the same list with every node left again after what is inside it, the order in which a
walk meets them.

Induction over a fragment comes in two shapes: `Statement.inside_induction` stays within the markup
of one fragment, and `Fragment.nested_induction` goes from nested fragments to the one around them.
-/

namespace Hydration.Template

/-! ## Inside a statement -/

namespace Statement

/-- The statements inside an element; other statements have none in the same fragment. -/
def children : Statement → List Statement
  | .element e => e.children
  | _ => []

/-- The statement is an element. -/
def isElement : Statement → Bool
  | .element _ => true
  | _ => false

/-- **The fragments directly nested in a statement**, in document order. -/
def nested : Statement → List Fragment
  | .block b => b.body :: b.inverse.toList
  | .component c => [c.body]
  | _ => []

theorem isElement_iff {s : Statement} : s.isElement = true ↔ ∃ e, s = .element e := by
  cases s <;> simp [isElement]

theorem children_eq_nil {s : Statement} (h : s.isElement = false) : s.children = [] := by
  cases s <;> first | rfl | simp [isElement] at h

/-- **Induction within a fragment**: what holds inside a statement and behind it holds from it on.
-/
@[elab_as_elim]
theorem inside_induction {motive : List Statement → Prop} (nil : motive [])
    (cons : ∀ s rest, motive s.children → motive rest → motive (s :: rest)) :
    ∀ statements, motive statements
  | [] => nil
  | .text t :: rest => cons (.text t) rest nil (inside_induction nil cons rest)
  | .comment c :: rest => cons (.comment c) rest nil (inside_induction nil cons rest)
  | .element ⟨tag, attributes, helpers, children, span⟩ :: rest =>
    cons (.element ⟨tag, attributes, helpers, children, span⟩) rest
      (inside_induction nil cons children) (inside_induction nil cons rest)
  | .mustache m :: rest => cons (.mustache m) rest nil (inside_induction nil cons rest)
  | .block b :: rest => cons (.block b) rest nil (inside_induction nil cons rest)
  | .component c :: rest => cons (.component c) rest nil (inside_induction nil cons rest)

end Statement

/-! ## Nodes -/

/-- **A statement in its place**: under which elements, and where among how many siblings. -/
structure Node where
  /-- The positions of the elements around it, outermost first. -/
  path : List Nat
  /-- Its position among its siblings. -/
  index : Nat
  /-- How many siblings there are, itself included. -/
  siblings : Nat
  statement : Statement

namespace Node

/-- The positions from the root of the fragment down to the node itself. -/
def address (ν : Node) : List Nat := ν.path ++ [ν.index]

/-- The node is the only root of its fragment. -/
def isSole (ν : Node) : Bool := ν.path.isEmpty && ν.siblings == 1

end Node

/-- **The nodes of the statements at `path`**, from the `index`-th of `length` siblings on, and of
all that is inside them, in document order. -/
def nodes (path : List Nat) (length : Nat) : Nat → List Statement → List Node
  | _, [] => []
  | index, .element ⟨tag, attributes, helpers, children, span⟩ :: rest =>
    ⟨path, index, length, .element ⟨tag, attributes, helpers, children, span⟩⟩ ::
      (nodes (path ++ [index]) children.length 0 children ++ nodes path length (index + 1) rest)
  | index, s :: rest => ⟨path, index, length, s⟩ :: nodes path length (index + 1) rest

theorem nodes_nil (path : List Nat) (length index : Nat) : nodes path length index [] = [] := by
  rw [nodes]

/-- **A node, what is inside it, and what is behind it**, whatever kind of statement it is. -/
theorem nodes_cons (path : List Nat) (length index : Nat) (s : Statement) (rest : List Statement) :
    nodes path length index (s :: rest) = ⟨path, index, length, s⟩ ::
      (nodes (path ++ [index]) s.children.length 0 s.children ++
        nodes path length (index + 1) rest) := by
  rcases s with t | c | ⟨tag, attributes, helpers, children, span⟩ | m | b | c <;> rw [nodes] <;>
    simp [Statement.children, nodes_nil]

/-- **The nodes of a fragment**, in document order. -/
def Fragment.nodes (f : Fragment) : List Node :=
  Template.nodes [] f.body.length 0 f.body

/-- **The fragments directly nested in a fragment**, in document order. -/
def Fragment.nested (f : Fragment) : List Fragment := f.nodes.flatMap (·.statement.nested)

/-! ### All places there are -/

/-- The statements found by going down along `path`. -/
def level? : List Nat → List Statement → Option (List Statement)
  | [], statements => some statements
  | i :: path, statements => statements[i]?.bind fun s => level? path s.children

/-- A node with `base` put in front of its path. -/
def Node.under (base : List Nat) (ν : Node) : Node := { ν with path := base ++ ν.path }

/-- Nodes at a path are those at the root, moved there. -/
theorem nodes_eq_map_under (path : List Nat) (length index : Nat) (statements : List Statement) :
    nodes path length index statements =
      (nodes [] length index statements).map (Node.under path) := by
  induction statements using Statement.inside_induction generalizing path length index with
  | nil => simp [nodes_nil]
  | cons s rest ihs ihr =>
    rw [nodes_cons, nodes_cons, ihs, ihr path, ihs ([] ++ [index])]
    simp [Node.under, Function.comp_def]

/-- One level down: a node is one of the statements, or inside one of them. -/
theorem mem_nodes_iff_level {length index : Nat} {statements : List Statement} {ν : Node} :
    ν ∈ nodes [] length index statements ↔ ∃ j s, statements[j]? = some s ∧
      (ν = ⟨[], index + j, length, s⟩ ∨
        ∃ μ ∈ nodes [] s.children.length 0 s.children, ν = μ.under [index + j]) := by
  induction statements generalizing index with
  | nil => simp [nodes_nil]
  | cons s rest ih =>
    rw [nodes_cons, List.mem_cons, List.mem_append, nodes_eq_map_under ([] ++ [index]),
      List.mem_map, ih]
    constructor
    · rintro (rfl | ⟨μ, hμ, rfl⟩ | ⟨j, t, hj, h⟩)
      · exact ⟨0, s, rfl, .inl rfl⟩
      · exact ⟨0, s, rfl, .inr ⟨μ, hμ, rfl⟩⟩
      · refine ⟨j + 1, t, hj, ?_⟩
        rwa [show index + (j + 1) = index + 1 + j by omega]
    · rintro ⟨j, t, hj, h⟩
      cases j with
      | zero =>
        obtain rfl : s = t := by simpa using hj
        rcases h with rfl | ⟨μ, hμ, rfl⟩
        · exact .inl rfl
        · exact .inr (.inl ⟨μ, hμ, rfl⟩)
      | succ j =>
        refine .inr (.inr ⟨j, t, by simpa using hj, ?_⟩)
        rwa [show index + 1 + j = index + (j + 1) by omega]

/-- **The node is there in the fragment**: its path leads to a list of as many statements as it has
siblings, and its statement is the one at its position. -/
def Fragment.Contains (f : Fragment) (ν : Node) : Prop :=
  ∃ level, level? ν.path f.body = some level ∧ level[ν.index]? = some ν.statement ∧
    level.length = ν.siblings

/-- **A node is listed exactly when it is there.** -/
theorem mem_nodes {f : Fragment} {ν : Node} : ν ∈ f.nodes ↔ f.Contains ν := by
  obtain ⟨path, index, siblings, s⟩ := ν
  change _ ∈ nodes [] f.body.length 0 f.body ↔ ∃ level, level? path f.body = some level ∧
    level[index]? = some s ∧ level.length = siblings
  generalize f.body = body
  induction path generalizing body with
  | nil =>
    rw [mem_nodes_iff_level]
    constructor
    · rintro ⟨j, t, hj, h | ⟨μ, -, h⟩⟩
      · obtain ⟨-, rfl, rfl, rfl⟩ := Node.mk.inj h
        exact ⟨body, rfl, by simpa using hj, rfl⟩
      · exact absurd (congrArg Node.path h) (by simp [Node.under])
    · rintro ⟨level, hl, hs, rfl⟩
      obtain rfl : body = level := by simpa [level?] using hl
      exact ⟨index, s, hs, .inl (by simp)⟩
  | cons i path ih =>
    rw [mem_nodes_iff_level]
    constructor
    · rintro ⟨j, t, hj, h | ⟨μ, hμ, h⟩⟩
      · exact absurd (congrArg Node.path h) (by simp)
      · obtain ⟨hp, rfl, rfl, rfl⟩ := Node.mk.inj h
        obtain ⟨rfl, rfl⟩ : i = j ∧ path = μ.path := by simpa using hp
        obtain ⟨level, hl, hs⟩ := (ih t.children).mp hμ
        exact ⟨level, by simp [level?, hj, hl], hs⟩
    · rintro ⟨level, hl, hs⟩
      rw [level?, Option.bind_eq_some_iff] at hl
      obtain ⟨t, ht, hl⟩ := hl
      exact ⟨i, t, ht, .inr ⟨⟨path, index, siblings, s⟩, (ih t.children).mpr ⟨level, hl, hs⟩,
        by simp [Node.under]⟩⟩

/-! ### Their order -/

/-- Nodes are found from their index on. -/
theorem address_of_mem_nodes {path : List Nat} {length index : Nat} {statements : List Statement}
    {ν : Node} (h : ν ∈ nodes path length index statements) :
    ∃ i below, index ≤ i ∧ ν.address = path ++ i :: below := by
  rw [nodes_eq_map_under, List.mem_map] at h
  obtain ⟨ν, hν, rfl⟩ := h
  obtain ⟨j, s, -, rfl | ⟨μ, -, rfl⟩⟩ := mem_nodes_iff_level.mp hν
  · exact ⟨index + j, [], by omega, by simp [Node.address, Node.under]⟩
  · exact ⟨index + j, μ.address, by omega, by simp [Node.address, Node.under]⟩

/-- **Document order is the order of addresses**: an element comes before what is inside it, and all
of that before its next sibling. -/
theorem pairwise_nodes (path : List Nat) (length index : Nat) (statements : List Statement) :
    (nodes path length index statements).Pairwise fun μ ν => μ.address < ν.address := by
  induction statements using Statement.inside_induction generalizing path length index with
  | nil => simp [nodes_nil]
  | cons s rest ihs ihr =>
    rw [nodes_cons, List.pairwise_cons, List.pairwise_append]
    refine ⟨fun ν hν => ?_, ihs _ _ _, ihr _ _ _, fun μ hμ ν hν => ?_⟩
    · rcases List.mem_append.mp hν with hν | hν
      · obtain ⟨i, below, -, h⟩ := address_of_mem_nodes hν
        rw [h, List.append_assoc]
        exact List.append_left_lt (List.Lex.cons List.Lex.nil)
      · obtain ⟨i, below, hi, h⟩ := address_of_mem_nodes hν
        rw [h]
        exact List.append_left_lt (List.Lex.rel hi)
    · obtain ⟨i, below, -, h⟩ := address_of_mem_nodes hμ
      obtain ⟨j, beside, hj, h'⟩ := address_of_mem_nodes hν
      rw [h, h', List.append_assoc]
      exact List.append_left_lt (List.Lex.rel (by omega))

/-! ## Visits -/

/-- **A step of a walk**: a node is entered, or left again after all that is inside it. -/
inductive Visit where
  | enter (node : Node)
  | leave (node : Node)

/-- The node that is entered. -/
def Visit.entered? : Visit → Option Node
  | .enter ν => some ν
  | .leave _ => none

/-- The fragments nested in the node that is entered. -/
def Visit.nested : Visit → List Fragment
  | .enter ν => ν.statement.nested
  | .leave _ => []

/-- **The steps of a walk over the statements at `path`**, from the `index`-th of `length` siblings
on. -/
def visits (path : List Nat) (length : Nat) : Nat → List Statement → List Visit
  | _, [] => []
  | index, .element ⟨tag, attributes, helpers, children, span⟩ :: rest =>
    let ν : Node := ⟨path, index, length, .element ⟨tag, attributes, helpers, children, span⟩⟩
    .enter ν :: (visits (path ++ [index]) children.length 0 children ++
      .leave ν :: visits path length (index + 1) rest)
  | index, s :: rest =>
    .enter ⟨path, index, length, s⟩ :: .leave ⟨path, index, length, s⟩ ::
      visits path length (index + 1) rest

theorem visits_nil (path : List Nat) (length index : Nat) : visits path length index [] = [] := by
  rw [visits]

/-- **A node is entered, its inside is walked over, and it is left.** -/
theorem visits_cons (path : List Nat) (length index : Nat) (s : Statement)
    (rest : List Statement) :
    visits path length index (s :: rest) = .enter ⟨path, index, length, s⟩ ::
      (visits (path ++ [index]) s.children.length 0 s.children ++
        .leave ⟨path, index, length, s⟩ :: visits path length (index + 1) rest) := by
  rcases s with t | c | ⟨tag, attributes, helpers, children, span⟩ | m | b | c <;> rw [visits] <;>
    simp [Statement.children, visits_nil]

/-- **The nodes entered are the nodes in document order.** -/
theorem entered_visits (path : List Nat) (length index : Nat) (statements : List Statement) :
    (visits path length index statements).filterMap Visit.entered? =
      nodes path length index statements := by
  induction statements using Statement.inside_induction generalizing path length index with
  | nil => rw [visits_nil, nodes_nil, List.filterMap_nil]
  | cons s rest ihs ihr =>
    rw [visits_cons, nodes_cons, ← ihs, ← ihr]
    simp [List.filterMap_cons, Visit.entered?]

/-- **Nested fragments are met in document order.** -/
theorem flatMap_nested_visits (path : List Nat) (length index : Nat)
    (statements : List Statement) :
    (visits path length index statements).flatMap Visit.nested =
      (nodes path length index statements).flatMap (·.statement.nested) := by
  induction statements using Statement.inside_induction generalizing path length index with
  | nil => rw [visits_nil, nodes_nil, List.flatMap_nil, List.flatMap_nil]
  | cons s rest ihs ihr =>
    rw [visits_cons, nodes_cons, List.flatMap_cons, List.flatMap_append, List.flatMap_cons, ihs,
      ihr, List.flatMap_cons, List.flatMap_append]
    rfl

/-- The steps of a walk over a fragment. -/
def Fragment.visits (f : Fragment) : List Visit := Template.visits [] f.body.length 0 f.body

theorem mem_nodes_of_enter {f : Fragment} {ν : Node} (h : .enter ν ∈ f.visits) : ν ∈ f.nodes := by
  rw [Fragment.nodes, ← entered_visits]
  exact List.mem_filterMap.mpr ⟨.enter ν, h, rfl⟩

/-! ## Nested fragments are smaller -/

theorem Statement.sizeOf_children_le (s : Statement) : sizeOf s.children ≤ sizeOf s := by
  cases s with
  | element e =>
    obtain ⟨tag, attributes, helpers, children, span⟩ := e
    simp only [Statement.children, Statement.element.sizeOf_spec, Element.mk.sizeOf_spec]
    omega
  | text _ | comment _ | mustache _ | block _ | component _ => simp [Statement.children]

theorem Statement.sizeOf_lt_of_mem_nested {s : Statement} {g : Fragment} (h : g ∈ s.nested) :
    sizeOf g < sizeOf s := by
  cases s with
  | text _ | comment _ | element _ | mustache _ => exact absurd h List.not_mem_nil
  | block b =>
    obtain ⟨call, body, inverse, span⟩ := b
    rcases List.mem_cons.mp h with rfl | h
    · simp only [Statement.block.sizeOf_spec, Block.mk.sizeOf_spec]
      omega
    · obtain rfl : inverse = some g := Option.mem_toList.mp h
      simp only [Statement.block.sizeOf_spec, Block.mk.sizeOf_spec, Option.some.sizeOf_spec]
      omega
  | component c =>
    obtain ⟨tag, attributes, body, span⟩ := c
    rw [List.mem_singleton.mp h]
    simp only [Statement.component.sizeOf_spec, Component.mk.sizeOf_spec]
    omega

theorem sizeOf_lt_of_mem_nested {path : List Nat} {length index : Nat}
    {statements : List Statement} {g : Fragment}
    (h : g ∈ (nodes path length index statements).flatMap (·.statement.nested)) :
    sizeOf g < sizeOf statements := by
  induction statements using Statement.inside_induction generalizing path length index with
  | nil =>
    rw [nodes_nil] at h
    exact absurd h List.not_mem_nil
  | cons s rest ihs ihr =>
    rw [nodes_cons, List.flatMap_cons, List.mem_append, List.flatMap_append, List.mem_append] at h
    rw [List.cons.sizeOf_spec]
    rcases h with h | h | h
    · have hs : sizeOf g < sizeOf s := Statement.sizeOf_lt_of_mem_nested h
      omega
    · have hs := ihs h
      have hc := s.sizeOf_children_le
      omega
    · have hr := ihr h
      omega

/-- **Induction over nesting**: what holds of a fragment once it holds of the fragments nested in it
holds of all. -/
@[elab_as_elim]
theorem Fragment.nested_induction {motive : Fragment → Prop}
    (step : ∀ f : Fragment, (∀ g ∈ f.nested, motive g) → motive f) (f : Fragment) : motive f :=
  step f fun g _ => nested_induction step g
termination_by sizeOf f
decreasing_by
  have hg : sizeOf g < sizeOf f.body := sizeOf_lt_of_mem_nested ‹g ∈ f.nested›
  obtain ⟨body, params, span⟩ := f
  rw [Fragment.mk.sizeOf_spec]
  change sizeOf g < sizeOf body at hg
  omega

end Hydration.Template
