import Hydration.Proofs.Machine
import Hydration.Proofs.Size
import Hydration.Proofs.Stream
import Hydration.Proofs.Violations
import Mathlib.Data.List.Induction

/-!
# Proofs/Operands — operands on a stack

A runtime that reads a stream keeps operands on a stack until an instruction uses them up. `operate`
is one step of it: operand instructions push an item, `sexpr` turns a call on the stack into its
value, and what binds something takes the operands off and gives a `Binding`. It gets stuck where
the stack does not hold what an instruction asks for.

Code that stops at no violation leaves the items of what it is the code of, whatever lies below
(`Leaves`): the value of an expression (`Expr.leaves_code`), or the name and operands of a call
(`Call.leaves_code`).
-/

namespace Hydration

open Template Counter

/-! ## Values, calls and bindings -/

/-- **What an operand stands for**: a literal, a lookup, or the result of a call. -/
inductive Value where
  | string (value : String)
  | literal (value : Literal)
  | lookup (segments : List String)
  | call (name : String) (params : List Value) (hash : List (String × Value))

/-- **What is called, and with what**: positional and named operands, and the programs it renders.
-/
structure Invocation (ι : Type) where
  body : Option ι := none
  inverse : Option ι := none
  name : String
  params : List Value := []
  hash : List (String × Value) := []

/-- **What an instruction binds**, to an element or in a morph given by its number. -/
inductive Binding (ι : Type) where
  | attribute (quoted : Bool) (name : String) (parts : List Value) (element : ι)
  | nodeHelper (call : Invocation ι) (element : ι)
  | helper (call : Invocation ι) (morph : ι) (blockParams : Option ι)
  | ambiguous (name : String) (morph : ι)
  | component (call : Invocation ι) (morph blockParams : ι)

/-! ## The machine -/

/-- **An item on the stack.** -/
inductive Item (ι : Type) where
  | name (name : String)
  | programs (body inverse : Option ι)
  | value (value : Value)
  | key (name : String)
  | count (number : ι)

variable {ι : Type}

/-- Takes `n` values off the stack, the last one first. -/
def popValues : Nat → List (Item ι) → Option (List Value × List (Item ι))
  | 0, stack => some ([], stack)
  | n + 1, .value v :: stack => do
    let (values, stack) ← popValues n stack
    return (values ++ [v], stack)
  | _, _ => none

/-- Takes `n` names with their values off the stack, the last one first. -/
def popPairs : Nat → List (Item ι) → Option (List (String × Value) × List (Item ι))
  | 0, stack => some ([], stack)
  | n + 1, .key k :: .value v :: stack => do
    let (pairs, stack) ← popPairs n stack
    return (pairs ++ [(k, v)], stack)
  | _, _ => none

variable [Counter ι]

/-- **Takes a call off the stack**: a count, that many named operands, `n` positional ones, a name,
and the programs it renders. -/
def popInvocation (n : Nat) : List (Item ι) → Option (Invocation ι × List (Item ι))
  | .count c :: stack => do
    let (hash, stack) ← popPairs (toNat c) stack
    let (params, stack) ← popValues n stack
    match stack with
    | .name name :: .programs body inverse :: stack =>
      some ({ body, inverse, name, params, hash }, stack)
    | _ => none
  | _ => none

/-- **One step of the machine**: what is bound, and the stack after it. -/
def operate (stack : List (Item ι)) : Opcode ι → Option (List (Binding ι) × List (Item ι))
  | .string name => some ([], .name name :: stack)
  | .program body inverse => some ([], .programs body inverse :: stack)
  | .stringLiteral value => some ([], .value (.string value) :: stack)
  | .literal value => some ([], .value (.literal value) :: stack)
  | .id segments => some ([], .value (.lookup segments) :: stack)
  | .stackLiteral (.key name) => some ([], .key name :: stack)
  | .stackLiteral (.count number) => some ([], .count number :: stack)
  | .sexpr params => do
    match ← popInvocation (toNat params) stack with
    | (⟨none, none, name, params, hash⟩, .name keyword :: stack) =>
      if keyword = "sexpr" then some ([], .value (.call name params hash) :: stack) else none
    | _ => none
  | .attribute quoted name parts element => do
    match ← popInvocation (toNat parts) stack with
    | (⟨none, none, callee, values, []⟩, stack) =>
      if callee = "" then some ([.attribute quoted name values element], stack) else none
    | _ => none
  | .nodeHelper params element => do
    let (call, stack) ← popInvocation (toNat params) stack
    return ([.nodeHelper call element], stack)
  | .helper params morph blockParams => do
    let (call, stack) ← popInvocation (toNat params) stack
    return ([.helper call morph blockParams], stack)
  | .component morph blockParams => do
    let (call, stack) ← popInvocation 0 stack
    return ([.component call morph blockParams], stack)
  | .ambiguous morph =>
    match stack with
    | .name name :: stack => some ([.ambiguous name morph], stack)
    | _ => none
  | .morph _ | .element _ | .consumeParent _ | .popParent | .blockParam .. | .repairClonedNode .. =>
    some ([], stack)

/-! ## What lies on the stack -/

section

omit [Counter ι]

/-- Positional operands on the stack, the last one on top. -/
def paramItems (params : List Value) : List (Item ι) := params.reverse.map .value

/-- Named operands on the stack, the last one on top, each name on its value. -/
def pairItems (hash : List (String × Value)) : List (Item ι) :=
  hash.reverse.flatMap fun (k, v) => [.key k, .value v]

theorem popValues_paramItems (params : List Value) (stack : List (Item ι)) :
    popValues params.length (paramItems params ++ stack) = some (params, stack) := by
  induction params using List.reverseRecOn with
  | nil => rfl
  | append_singleton params v ih =>
    have hi : (paramItems (params ++ [v]) : List (Item ι)) = .value v :: paramItems params := by
      simp [paramItems]
    rw [hi, List.length_append, List.length_singleton, List.cons_append, popValues, ih]
    rfl

theorem popPairs_pairItems (hash : List (String × Value)) (stack : List (Item ι)) :
    popPairs hash.length (pairItems hash ++ stack) = some (hash, stack) := by
  induction hash using List.reverseRecOn with
  | nil => rfl
  | append_singleton hash kv ih =>
    have hi : (pairItems (hash ++ [kv]) : List (Item ι)) =
        .key kv.1 :: .value kv.2 :: pairItems hash := by
      simp [pairItems]
    rw [hi, List.length_append, List.length_singleton, List.cons_append, List.cons_append, popPairs,
      ih]
    rfl

end

/-- **A call on the stack**: its name, its positional operands, its named ones and their count. -/
def callItems (name : String) (params : List Value) (hash : List (String × Value)) :
    List (Item ι) :=
  .count (ofNat hash.length) :: (pairItems hash ++ (paramItems params ++ [.name name]))

/-- **A call is taken off as it was put there** where its named operands can be counted. -/
theorem popInvocation_callItems {name : String} {params : List Value}
    {hash : List (String × Value)} (hc : toNat (ofNat hash.length : ι) = hash.length)
    (body inverse : Option ι) (stack : List (Item ι)) :
    popInvocation params.length (callItems name params hash ++ .programs body inverse :: stack) =
      some ({ body, inverse, name, params, hash }, stack) := by
  have hs : callItems name params hash ++ .programs body inverse :: stack =
      .count (ofNat hash.length) :: (pairItems hash ++ (paramItems params ++
        (.name name :: .programs body inverse :: stack))) := by
    simp [callItems]
  rw [hs, popInvocation, hc, popPairs_pairItems]
  change (popValues params.length (paramItems params ++ _)).bind _ = _
  rw [popValues_paramItems]
  rfl

/-! ## Code that leaves items -/

/-- **Code that leaves items on the stack**, whatever lies below, unless it stops at a violation. -/
def Code.Leaves (c : Code ι) (items : List (Item ι)) : Prop :=
  c.violation? = none → ∀ stack, run operate stack c.opcodes = some ([], items ++ stack)

namespace Code

variable {c d : Code ι} {items items' : List (Item ι)}

theorem leaves_empty : (empty : Code ι).Leaves [] := fun _ _ => rfl

theorem leaves_check (v? : Option Violation) : (check v? : Code ι).Leaves [] := fun _ _ => rfl

theorem leaves_one {op : Opcode ι} {item : Item ι}
    (h : ∀ stack, operate stack op = some ([], item :: stack)) : (one op).Leaves [item] :=
  fun _ stack => run_cons.mpr ⟨[], item :: stack, [], h stack, rfl, rfl⟩

/-- **Code after code leaves its items on top.** -/
theorem Leaves.append (hc : c.Leaves items) (hd : d.Leaves items') :
    (c ++ d).Leaves (items' ++ items) := by
  intro hv stack
  rw [violation?_append, Option.or_eq_none_iff] at hv
  rw [append_of_none hv.1]
  refine run_append.mpr ⟨[], _, [], hc hv.1 stack, ?_, rfl⟩
  rw [List.append_assoc]
  exact hd hv.2 (items ++ stack)

/-- An instruction that turns the items on top into others. -/
theorem Leaves.collapse {op : Opcode ι} (hc : c.Leaves items)
    (h : ∀ stack, operate (items ++ stack) op = some ([], items' ++ stack)) :
    (c ++ one op).Leaves items' := by
  intro hv stack
  rw [violation?_append, Option.or_eq_none_iff] at hv
  rw [append_of_none hv.1]
  refine run_append.mpr ⟨[], _, [], hc hv.1 stack, ?_, rfl⟩
  exact run_cons.mpr ⟨[], _, [], h stack, rfl, rfl⟩

end Code

/-! ## The values of a template -/

namespace Template

mutual

/-- **What an expression stands for.** -/
def Expr.toValue : Expr → Value
  | .path p => .lookup p.segments
  | .sub c => c.toValue
  | .string value _ => .string value
  | .number value _ => .literal (.number value)
  | .boolean value _ => .literal (.boolean value)

/-- **What a call stands for.** -/
def Call.toValue : Call → Value
  | ⟨callee, params, hash, _⟩ =>
    .call callee.dotted (exprsValues params)
      (match hash with
        | none => []
        | some ⟨pairs, _⟩ => pairsValues pairs)

/-- Positional operands in order. -/
def exprsValues : List Expr → List Value
  | [] => []
  | e :: es => e.toValue :: exprsValues es

/-- Named operands in order. -/
def pairsValues : List Pair → List (String × Value)
  | [] => []
  | ⟨key, value, _⟩ :: pairs => (key, value.toValue) :: pairsValues pairs

end

theorem exprsValues_eq_map (es : List Expr) : exprsValues es = es.map Expr.toValue := by
  induction es with
  | nil => rw [exprsValues, List.map_nil]
  | cons e es ih => rw [exprsValues, ih, List.map_cons]

theorem pairsValues_eq_map (pairs : List Pair) :
    pairsValues pairs = pairs.map fun p => (p.key, p.value.toValue) := by
  induction pairs with
  | nil => rw [pairsValues, List.map_nil]
  | cons p pairs ih =>
    obtain ⟨key, value, span⟩ := p
    rw [pairsValues, ih, List.map_cons]

/-- The positional operands of a call. -/
def Call.positional (c : Call) : List Value := c.params.map Expr.toValue

/-- The named operands of a call. -/
def Call.named (c : Call) : List (String × Value) :=
  match c.hash with
  | none => []
  | some h => h.pairs.map fun p => (p.key, p.value.toValue)

theorem Call.toValue_eq (c : Call) : c.toValue = .call c.callee.dotted c.positional c.named := by
  obtain ⟨callee, params, _ | ⟨pairs, _⟩, span⟩ := c
  · rw [toValue, exprsValues_eq_map]
    rfl
  · rw [toValue, exprsValues_eq_map, pairsValues_eq_map]
    rfl

theorem Call.length_positional_lt (c : Call) : c.positional.length < c.size := by
  rw [positional, List.length_map]
  exact c.bounds.1

theorem Call.length_named_lt (c : Call) : c.named.length < c.size := by
  obtain ⟨hp, -, hh⟩ := c.bounds
  unfold named
  split
  next => exact Nat.lt_of_le_of_lt (Nat.zero_le _) hp
  next h hc =>
    rw [List.length_map]
    exact (hh h hc).1

/-! ## The code of operands leaves their values -/

theorem leaves_countCode (n : Nat) : (countCode n : Code ι).Leaves [.count (ofNat n)] :=
  Code.leaves_one fun _ => rfl

theorem leaves_noProgram : (noProgram : Code ι).Leaves [.programs none none] :=
  Code.leaves_one fun _ => rfl

theorem Path.leaves_nameCode (p : Path) : (p.nameCode : Code ι).Leaves [.name p.dotted] :=
  (Code.leaves_check _).append (Code.leaves_one fun _ => rfl)

/-- **A call inside another one becomes a value.** -/
theorem operate_sexpr {name : String} {params : List Value} {hash : List (String × Value)}
    (hp : params.length < 2 ^ 32) (hh : hash.length < 2 ^ 32) (stack : List (Item UInt32)) :
    operate ((callItems name params hash ++ [.programs none none, .name "sexpr"]) ++ stack)
        (.sexpr (ofNat params.length)) =
      some ([], [.value (.call name params hash)] ++ stack) := by
  have hi : popInvocation params.length
      (callItems name params hash ++ .programs none none :: .name "sexpr" :: stack) =
        some ({ name, params, hash }, .name "sexpr" :: stack) :=
    popInvocation_callItems (toNat_ofNat_of_lt hh) none none _
  rw [List.append_assoc, operate, toNat_ofNat_of_lt hp]
  change (popInvocation params.length
    (callItems name params hash ++ .programs none none :: .name "sexpr" :: stack)).bind _ = _
  rw [hi]
  rfl

mutual

/-- **The code of an expression leaves its value.** -/
theorem Expr.leaves_code (e : Expr) (h : e.size < 2 ^ 32) :
    (e.code : Code UInt32).Leaves [.value e.toValue] := by
  match e with
  | .path p =>
    rw [Expr.code, Expr.toValue]
    exact (Code.leaves_check _).append (Code.leaves_one fun _ => rfl)
  | .sub c =>
    rw [Expr.size] at h
    have hsub : (subCode : Code UInt32).Leaves [.programs none none, .name "sexpr"] :=
      (Code.leaves_one fun _ => rfl).append leaves_noProgram
    have hl : c.params.length = c.positional.length := (List.length_map _).symm
    rw [Expr.code, Expr.toValue, c.toValue_eq, hl]
    exact (hsub.append (c.leaves_code h)).collapse
      (operate_sexpr (c.length_positional_lt.trans h) (c.length_named_lt.trans h))
  | .string .. | .number .. | .boolean .. =>
    rw [Expr.code, Expr.toValue]
    exact Code.leaves_one fun _ => rfl

/-- **The code of a call leaves its name and operands.** -/
theorem Call.leaves_code (c : Call) (h : c.size < 2 ^ 32) :
    (c.code : Code UInt32).Leaves (callItems c.callee.dotted c.positional c.named) := by
  match c with
  | ⟨callee, params, none, span⟩ =>
    obtain ⟨-, he, -⟩ := Call.bounds ⟨callee, params, none, span⟩
    rw [Call.code]
    exact (callee.leaves_nameCode.append (leaves_exprsCode params fun e hm =>
      (he e hm).trans h)).append (leaves_countCode 0)
  | ⟨callee, params, some ⟨pairs, hspan⟩, span⟩ =>
    obtain ⟨-, he, hh⟩ := Call.bounds ⟨callee, params, some ⟨pairs, hspan⟩, span⟩
    have hn : Call.named ⟨callee, params, some ⟨pairs, hspan⟩, span⟩ =
      pairs.map fun p => (p.key, p.value.toValue) := rfl
    rw [Call.code, hn, callItems, List.length_map]
    exact (callee.leaves_nameCode.append (leaves_exprsCode params fun e hm =>
      (he e hm).trans h)).append ((leaves_pairsCode pairs fun p hm =>
        ((hh _ rfl).2 p hm).trans h).append (leaves_countCode pairs.length))

theorem leaves_exprsCode (es : List Expr) (h : ∀ e ∈ es, e.size < 2 ^ 32) :
    (exprsCode es : Code UInt32).Leaves (paramItems (es.map Expr.toValue)) := by
  match es with
  | [] =>
    rw [exprsCode]
    exact Code.leaves_empty
  | e :: es =>
    have hi : (paramItems ((e :: es).map Expr.toValue) : List (Item UInt32)) =
        paramItems (es.map Expr.toValue) ++ [.value e.toValue] := by
      simp [paramItems]
    rw [exprsCode, hi]
    exact (e.leaves_code (h e List.mem_cons_self)).append
      (leaves_exprsCode es fun x hx => h x (List.mem_cons_of_mem e hx))

theorem leaves_pairsCode (pairs : List Pair) (h : ∀ p ∈ pairs, p.value.size < 2 ^ 32) :
    (pairsCode pairs : Code UInt32).Leaves
      (pairItems (pairs.map fun p => (p.key, p.value.toValue))) := by
  match pairs with
  | [] =>
    rw [pairsCode]
    exact Code.leaves_empty
  | ⟨key, value, span⟩ :: pairs =>
    have hi : (pairItems ((Pair.mk key value span :: pairs).map fun p => (p.key, p.value.toValue)) :
        List (Item UInt32)) = pairItems (pairs.map fun p => (p.key, p.value.toValue)) ++
          ([.key key] ++ ([.value value.toValue] ++ [])) := by
      simp [pairItems]
    rw [pairsCode, hi]
    exact (((Code.leaves_check _).append (value.leaves_code (h _ List.mem_cons_self))).append
      (Code.leaves_one fun _ => rfl)).append
        (leaves_pairsCode pairs fun x hx => h x (List.mem_cons_of_mem _ hx))

end

end Template

end Hydration
