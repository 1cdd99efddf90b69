import Hydration.Proofs.Document
import Mathlib.Algebra.BigOperators.Group.List.Basic
import Mathlib.Algebra.Order.BigOperators.Group.List
import Mathlib.Algebra.Order.Ring.Nat

/-!
# Proofs/Size — how many nodes a fragment has

`Fragment.size` counts the nodes of all kinds in a fragment and in the fragments nested in it. Every
number the compiler writes counts some of them, so that all numbers of a fragment are below its
size: positions and paths (`index_lt_siblings`, `lt_size_of_mem_path`), and how many nodes there are
(`length_nodes_lt_size`). Nested fragments are smaller (`size_lt_of_mem_nested`).
-/

namespace Hydration.Template

/-! ## Counting nodes -/

mutual

/-- The nodes inside an expression, itself not counted. -/
def Expr.size : Expr → Nat
  | .sub c => c.size
  | .path _ | .string .. | .number .. | .boolean .. => 0

/-- **The nodes of a call**: itself, its positional operands and its named ones. -/
def Call.size : Call → Nat
  | ⟨_, params, hash, _⟩ =>
    1 + exprsSize params +
      match hash with
      | none => 0
      | some ⟨pairs, _⟩ => pairsSize pairs

/-- The nodes of positional operands. -/
def exprsSize : List Expr → Nat
  | [] => 0
  | e :: es => 1 + e.size + exprsSize es

/-- The nodes of named operands. -/
def pairsSize : List Pair → Nat
  | [] => 0
  | ⟨_, value, _⟩ :: pairs => 1 + value.size + pairsSize pairs

end

/-- The nodes of a piece of an attribute value. -/
def Part.size : Part → Nat
  | .sub c => 1 + c.size
  | .text _ | .path _ => 1

/-- The nodes of an attribute. -/
def Attribute.size (a : Attribute) : Nat := 1 + (a.value.map Part.size).sum

mutual

/-- **The nodes of a fragment**: itself, its parameters, and those of its statements. -/
def Fragment.size : Fragment → Nat
  | ⟨body, params, _⟩ => 1 + params.length + sizeIn body

/-- The nodes of statements. -/
def sizeIn : List Statement → Nat
  | [] => 0
  | .text _ :: rest => 1 + sizeIn rest
  | .comment _ :: rest => 1 + sizeIn rest
  | .element ⟨_, attributes, helpers, children, _⟩ :: rest =>
    1 + (attributes.map Attribute.size).sum + (helpers.map Call.size).sum + sizeIn children +
      sizeIn rest
  | .mustache m :: rest => 1 + m.call.size + sizeIn rest
  | .block ⟨call, body, none, _⟩ :: rest => 1 + call.size + body.size + sizeIn rest
  | .block ⟨call, body, some inverse, _⟩ :: rest =>
    1 + call.size + body.size + inverse.size + sizeIn rest
  | .component ⟨_, attributes, body, _⟩ :: rest =>
    1 + (attributes.map Attribute.size).sum + body.size + sizeIn rest

end

/-- The nodes of a statement that are not inside its children. -/
def Statement.size : Statement → Nat
  | .text _ | .comment _ => 1
  | .element e => 1 + (e.attributes.map Attribute.size).sum + (e.helpers.map Call.size).sum
  | .mustache m => 1 + m.call.size
  | .block b => 1 + b.call.size + ((b.body :: b.inverse.toList).map Fragment.size).sum
  | .component c => 1 + (c.attributes.map Attribute.size).sum + c.body.size

theorem sizeIn_nil : sizeIn [] = 0 := by rw [sizeIn]

/-- **A statement, what is inside it, and what is behind it.** -/
theorem sizeIn_cons (s : Statement) (rest : List Statement) :
    sizeIn (s :: rest) = s.size + (sizeIn s.children + sizeIn rest) := by
  rcases s with t | c | ⟨tag, attributes, helpers, children, span⟩ | m |
    ⟨call, body, inverse, span⟩ | ⟨tag, attributes, body, span⟩
  case element =>
    rw [sizeIn]
    simp only [Statement.size, Statement.children]
    omega
  case block =>
    cases inverse <;> rw [sizeIn] <;>
      simp only [Statement.size, Statement.children, sizeIn_nil, Option.toList_none,
        Option.toList_some, List.map_cons, List.map_nil, List.sum_cons, List.sum_nil] <;> omega
  all_goals
    rw [sizeIn]
    simp only [Statement.size, Statement.children, sizeIn_nil, Nat.zero_add]

theorem Fragment.size_eq (f : Fragment) : f.size = 1 + f.blockParams.length + sizeIn f.body := by
  obtain ⟨body, params, span⟩ := f
  rw [size]

/-- **All nodes are counted at the statement they belong to.** -/
theorem sizeIn_eq_sum (path : List Nat) (length index : Nat) (statements : List Statement) :
    sizeIn statements = ((nodes path length index statements).map (·.statement.size)).sum := by
  induction statements using Statement.inside_induction generalizing path length index with
  | nil => simp [sizeIn_nil, nodes_nil]
  | cons s rest ihs ihr =>
    rw [sizeIn_cons, nodes_cons, ihs (path ++ [index]) s.children.length 0,
      ihr path length (index + 1)]
    simp

/-! ### Operands -/

theorem length_le_exprsSize (es : List Expr) : es.length ≤ exprsSize es := by
  induction es with
  | nil => exact Nat.zero_le _
  | cons e es ih =>
    rw [exprsSize, List.length_cons]
    omega

theorem size_lt_exprsSize {es : List Expr} {e : Expr} (h : e ∈ es) : e.size < exprsSize es := by
  induction es with
  | nil => exact absurd h List.not_mem_nil
  | cons x es ih =>
    rw [exprsSize]
    rcases List.mem_cons.mp h with rfl | h
    · omega
    · have := ih h
      omega

theorem length_le_pairsSize (pairs : List Pair) : pairs.length ≤ pairsSize pairs := by
  induction pairs with
  | nil => exact Nat.zero_le _
  | cons p pairs ih =>
    obtain ⟨key, value, span⟩ := p
    rw [pairsSize, List.length_cons]
    omega

theorem size_lt_pairsSize {pairs : List Pair} {p : Pair} (h : p ∈ pairs) :
    p.value.size < pairsSize pairs := by
  induction pairs with
  | nil => exact absurd h List.not_mem_nil
  | cons q pairs ih =>
    obtain ⟨key, value, span⟩ := q
    rw [pairsSize]
    rcases List.mem_cons.mp h with rfl | h
    · simp only
      omega
    · have := ih h
      omega

theorem exprsSize_lt_size (c : Call) : exprsSize c.params < c.size := by
  obtain ⟨callee, params, _ | ⟨pairs, _⟩, span⟩ := c
  · change exprsSize params < _
    rw [Call.size]
    omega
  · change exprsSize params < _
    rw [Call.size]
    omega

theorem pairsSize_lt_size {c : Call} {h : Hash} (hc : c.hash = some h) :
    pairsSize h.pairs < c.size := by
  obtain ⟨callee, params, _ | ⟨pairs, _⟩, span⟩ := c
  · exact absurd hc (by simp)
  · obtain rfl := Option.some.inj hc
    change pairsSize pairs < _
    rw [Call.size]
    omega

/-- **A call has fewer operands than nodes**, and so has every call inside it. -/
theorem Call.bounds (c : Call) :
    c.params.length < c.size ∧ (∀ e ∈ c.params, e.size < c.size) ∧
      ∀ h, c.hash = some h → h.pairs.length < c.size ∧ ∀ p ∈ h.pairs, p.value.size < c.size := by
  have he := exprsSize_lt_size c
  refine ⟨Nat.lt_of_le_of_lt (length_le_exprsSize _) he,
    fun e hm => (size_lt_exprsSize hm).trans he, fun h hc => ?_⟩
  have hp := pairsSize_lt_size hc
  exact ⟨Nat.lt_of_le_of_lt (length_le_pairsSize _) hp, fun p hm => (size_lt_pairsSize hm).trans hp⟩

/-- The pieces of an attribute value are counted as the operands of a call would be. -/
theorem exprsSize_map_toExpr (parts : List Part) :
    exprsSize (parts.map Part.toExpr) = (parts.map Part.size).sum := by
  induction parts with
  | nil => rw [List.map_nil, exprsSize, List.map_nil, List.sum_nil]
  | cons part parts ih =>
    have hp : 1 + part.toExpr.size = part.size := by
      cases part <;> rw [Part.toExpr, Expr.size, Part.size]
    rw [List.map_cons, exprsSize, ih, hp, List.map_cons, List.sum_cons]

/-- **Joining the pieces of an attribute value adds no more than the attribute itself.** -/
theorem Attribute.size_toExpr_le (a : Attribute) : a.toExpr.size ≤ a.size := by
  rw [toExpr, size]
  split
  next => rw [Expr.size]; omega
  next part h =>
    have hp : part.toExpr.size ≤ part.size := by
      cases part <;> rw [Part.toExpr, Expr.size, Part.size] <;> omega
    rw [h, List.map_singleton, List.sum_singleton]
    omega
  next =>
    rw [Expr.size, Call.size, exprsSize_map_toExpr]
    exact Nat.le_refl _

/-- **An attribute has fewer pieces than nodes**, and so has every call in it. -/
theorem Attribute.bounds (a : Attribute) :
    a.value.length < a.size ∧ ∀ e ∈ a.value.map Part.toExpr, e.size < a.size := by
  have hl := length_le_exprsSize (a.value.map Part.toExpr)
  rw [List.length_map] at hl
  rw [size, ← exprsSize_map_toExpr]
  refine ⟨by omega, fun e he => ?_⟩
  have := size_lt_exprsSize he
  omega

theorem length_attributes_le (attributes : List Attribute) :
    attributes.length ≤ (attributes.map Attribute.size).sum := by
  rw [← List.length_map Attribute.size]
  refine List.length_le_sum_of_one_le _ fun n hn => ?_
  obtain ⟨a, -, rfl⟩ := List.mem_map.mp hn
  exact Nat.le_add_right 1 _

theorem length_helpers_le (helpers : List Call) :
    helpers.length ≤ (helpers.map Call.size).sum := by
  rw [← List.length_map Call.size]
  refine List.length_le_sum_of_one_le _ fun n hn => ?_
  obtain ⟨c, -, rfl⟩ := List.mem_map.mp hn
  exact Nat.succ_le_of_lt (Nat.zero_lt_of_lt c.bounds.1)

/-- **The named operands of a component have no more nodes than its attributes.** -/
theorem size_le_of_mem_attributesHash {attributes : List Attribute} {p : Pair}
    (h : p ∈ (attributesHash attributes).pairs) :
    p.value.size ≤ (attributes.map Attribute.size).sum := by
  obtain ⟨a, ha, rfl⟩ := List.mem_map.mp h
  exact a.size_toExpr_le.trans (List.le_sum_of_mem (List.mem_map_of_mem ha))

/-! ## Numbers below the size -/

theorem Statement.size_pos (s : Statement) : 1 ≤ s.size := by
  cases s <;> simp only [size] <;> omega

theorem size_lt_of_mem_attributes {e : Element} {a : Attribute} (h : a ∈ e.attributes) :
    a.size < (Statement.element e).size := by
  have ha : a.size ≤ (e.attributes.map Attribute.size).sum :=
    List.le_sum_of_mem (List.mem_map_of_mem h)
  rw [Statement.size]
  omega

theorem size_lt_of_mem_helpers {e : Element} {c : Call} (h : c ∈ e.helpers) :
    c.size < (Statement.element e).size := by
  have hc : c.size ≤ (e.helpers.map Call.size).sum := List.le_sum_of_mem (List.mem_map_of_mem h)
  rw [Statement.size]
  omega

/-- **There are fewer nodes in the markup than in all.** -/
theorem length_nodes_lt_size (f : Fragment) : f.nodes.length < f.size := by
  have hl := List.length_le_sum_of_one_le (f.nodes.map (·.statement.size)) (by
    intro n hn
    obtain ⟨ν, -, rfl⟩ := List.mem_map.mp hn
    exact ν.statement.size_pos)
  rw [List.length_map, Fragment.nodes, ← sizeIn_eq_sum] at hl
  rw [f.size_eq, Fragment.nodes]
  omega

/-- A statement has fewer nodes than its fragment. -/
theorem statement_size_lt {f : Fragment} {ν : Node} (h : ν ∈ f.nodes) :
    ν.statement.size < f.size := by
  have hs : ν.statement.size ≤ sizeIn f.body := by
    rw [sizeIn_eq_sum [] f.body.length 0]
    exact List.le_sum_of_mem (List.mem_map.mpr ⟨ν, h, rfl⟩)
  rw [f.size_eq]
  omega

theorem size_le_sizeIn {path : List Nat} {length index : Nat} {statements : List Statement}
    {ν : Node} (h : ν ∈ nodes path length index statements) :
    ν.statement.size + sizeIn ν.statement.children ≤ sizeIn statements := by
  induction statements using Statement.inside_induction generalizing path length index with
  | nil =>
    rw [nodes_nil] at h
    exact absurd h List.not_mem_nil
  | cons s rest ihs ihr =>
    rw [nodes_cons, List.mem_cons, List.mem_append] at h
    rw [sizeIn_cons]
    rcases h with rfl | h | h
    · simp only
      omega
    · have := ihs h
      omega
    · have := ihr h
      omega

/-- **A statement and what is inside it have fewer nodes than the fragment.** -/
theorem whole_size_lt {f : Fragment} {ν : Node} (h : ν ∈ f.nodes) :
    ν.statement.size + sizeIn ν.statement.children < f.size := by
  have hs := size_le_sizeIn h
  rw [f.size_eq]
  omega

theorem length_le_sizeIn (statements : List Statement) :
    statements.length ≤ sizeIn statements := by
  induction statements with
  | nil => exact Nat.zero_le _
  | cons s rest ih =>
    have hs := s.size_pos
    rw [sizeIn_cons, List.length_cons]
    omega

/-- **An element is used less often than its fragment has nodes.** -/
theorem uses_lt_size {f : Fragment} {ν : Node} (h : ν ∈ f.nodes) {e : Element}
    (he : ν.statement = .element e) : e.uses < f.size := by
  have hw := whole_size_lt h
  rw [he, Statement.size, Statement.children] at hw
  have ha := length_attributes_le e.attributes
  have hh := length_helpers_le e.helpers
  have hc := length_le_sizeIn e.children
  have ha' : e.attributes.countP (!·.isStatic) ≤ e.attributes.length := List.countP_le_length
  have hc' : e.children.countP Statement.isDynamic ≤ e.children.length := List.countP_le_length
  rw [Element.uses]
  omega

theorem size_le_of_mem_statement {s : Statement} {g : Fragment} (h : g ∈ s.nested) :
    g.size ≤ s.size := by
  cases s with
  | text _ | comment _ | element _ | mustache _ => exact absurd h List.not_mem_nil
  | block b =>
    have hb : g.size ≤ ((b.body :: b.inverse.toList).map Fragment.size).sum :=
      List.le_sum_of_mem (List.mem_map.mpr ⟨g, h, rfl⟩)
    rw [Statement.size]
    omega
  | component c =>
    rw [List.mem_singleton.mp h, Statement.size]
    omega

/-- **Nested fragments have fewer nodes.** -/
theorem size_lt_of_mem_nested {f g : Fragment} (h : g ∈ f.nested) : g.size < f.size := by
  obtain ⟨ν, hν, hg⟩ := List.mem_flatMap.mp h
  exact Nat.lt_of_le_of_lt (size_le_of_mem_statement hg) (statement_size_lt hν)

theorem length_le_length_nodes (path : List Nat) (length index : Nat)
    (statements : List Statement) :
    statements.length ≤ (nodes path length index statements).length := by
  induction statements generalizing index with
  | nil => exact Nat.zero_le _
  | cons s rest ih =>
    have hr := ih (index + 1)
    rw [nodes_cons, List.length_cons, List.length_cons, List.length_append]
    omega

/-- Positions are below the number of nodes, those before the list included. -/
theorem bounds_of_mem_nodes {path : List Nat} {length index : Nat} {statements : List Statement}
    (hl : index + statements.length = length) {ν : Node}
    (hν : ν ∈ nodes path length index statements) :
    ν.index < ν.siblings ∧
      ν.siblings ≤ index + (nodes path length index statements).length ∧
      ∀ i ∈ ν.path, i ∈ path ∨ i < index + (nodes path length index statements).length := by
  induction statements using Statement.inside_induction generalizing path length index with
  | nil =>
    rw [nodes_nil] at hν
    exact absurd hν List.not_mem_nil
  | cons s rest ihs ihr =>
    rw [List.length_cons] at hl
    have hrest := length_le_length_nodes path length (index + 1) rest
    rw [nodes_cons] at hν ⊢
    rw [List.length_cons, List.length_append]
    rcases List.mem_cons.mp hν with rfl | hν
    · exact ⟨by simp only; omega, by simp only; omega, fun i hi => .inl hi⟩
    rcases List.mem_append.mp hν with hν | hν
    · obtain ⟨hi, hs, hp⟩ := ihs (Nat.zero_add _) hν
      refine ⟨hi, by omega, fun i hi => ?_⟩
      rcases hp i hi with hi | hi
      · rcases List.mem_append.mp hi with hi | hi
        · exact .inl hi
        · rw [List.mem_singleton.mp hi]
          exact .inr (by omega)
      · exact .inr (by omega)
    · obtain ⟨hi, hs, hp⟩ := ihr (by omega) hν
      refine ⟨hi, by omega, fun i hi => ?_⟩
      rcases hp i hi with hi | hi
      · exact .inl hi
      · exact .inr (by omega)

/-- **A node has fewer siblings than its fragment has nodes**, and its position is one of theirs. -/
theorem index_lt_siblings {f : Fragment} {ν : Node} (h : ν ∈ f.nodes) :
    ν.index < ν.siblings ∧ ν.siblings < f.size := by
  obtain ⟨hi, hs, -⟩ := bounds_of_mem_nodes (Nat.zero_add _) h
  have hn := length_nodes_lt_size f
  rw [Fragment.nodes] at hn
  exact ⟨hi, by omega⟩

/-- **The positions along a path are below the size.** -/
theorem lt_size_of_mem_path {f : Fragment} {ν : Node} (h : ν ∈ f.nodes) {i : Nat}
    (hi : i ∈ ν.path) : i < f.size := by
  obtain ⟨-, -, hp⟩ := bounds_of_mem_nodes (Nat.zero_add _) h
  have hn := length_nodes_lt_size f
  rw [Fragment.nodes] at hn
  rcases hp i hi with hi | hi
  · exact absurd hi List.not_mem_nil
  · omega

end Hydration.Template
