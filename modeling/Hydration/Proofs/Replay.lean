import Hydration.Proofs.Machine
import Hydration.Proofs.Nesting
import Hydration.Proofs.Size

/-!
# Proofs/Replay — which node is current

A runtime keeps the positions from the root down to the current node: `consumeParent` adds one,
`popParent` takes the last one off, and nothing else touches them. `replay` follows a stream in this
way and notes down each instruction with the scope it leaves behind; it fails if a `popParent` would
take off more than was added.

The stream of a fragment is replayed visit by visit (`replay_visits`): all that is written when an
element is opened is executed at the address of the element, and all that is written for another
node at its path. Hoisting a stream hoists its log (`replay_hoist`), since a morph is moved only
past instructions that leave the scope alone.

* `program_replays`: the opcodes of a program, and of every program nested in it, enter its elements
  in document order, come back to where they started, and create each morph at its own path.
-/

namespace Hydration

open Template Counter

variable {ι : Type}

/-! ## Following a stream -/

namespace Opcode

/-- The instruction changes the current node. -/
def isMove : Opcode ι → Bool
  | .consumeParent _ | .popParent => true
  | _ => false

theorem isMove_of_not_isAnchor {op : Opcode ι} (h : op.isAnchor = false) : op.isMove = false := by
  cases op <;> first | rfl | exact absurd h (by simp [isAnchor])

/-- **The scope after an instruction**; the first `floor` positions are never taken off. -/
def scopeAfter? (floor : Nat) (scope : List ι) : Opcode ι → Option (List ι)
  | .consumeParent i => some (scope ++ [i])
  | .popParent => if scope.length ≤ floor then none else some scope.dropLast
  | _ => some scope

theorem scopeAfter?_of_not_isMove {op : Opcode ι} (h : op.isMove = false) (floor : Nat)
    (scope : List ι) : op.scopeAfter? floor scope = some scope := by
  cases op <;> first | rfl | exact absurd h (by simp [isMove])

end Opcode

/-- One instruction, noted down with the scope after it. -/
def replayStep (floor : Nat) (scope : List ι) (op : Opcode ι) :
    Option (List (Opcode ι × List ι) × List ι) :=
  (op.scopeAfter? floor scope).map fun next => ([(op, next)], next)

/-- **The log of a stream**, each instruction with the scope after it, and the scope in the end. -/
def replay (floor : Nat) (scope : List ι) (ops : List (Opcode ι)) :
    Option (List (Opcode ι × List ι) × List ι) :=
  run (replayStep floor) scope ops

section

variable {floor : Nat} {scope scope' scope'' : List ι} {op : Opcode ι} {xs ys : List (Opcode ι)}
  {log : List (Opcode ι × List ι)}

theorem replay_cons :
    replay floor scope (op :: xs) = some (log, scope'') ↔ ∃ next rest,
      op.scopeAfter? floor scope = some next ∧ replay floor next xs = some (rest, scope'') ∧
        log = (op, next) :: rest := by
  rw [replay, run_cons]
  constructor
  · rintro ⟨here, next, rest, hs, hr, rfl⟩
    obtain ⟨scope₁, hn, he⟩ := Option.map_eq_some_iff.mp hs
    obtain ⟨rfl, rfl⟩ := Prod.mk.inj he
    exact ⟨scope₁, rest, hn, hr, rfl⟩
  · rintro ⟨next, rest, hn, hr, rfl⟩
    exact ⟨[(op, next)], next, rest, Option.map_eq_some_iff.mpr ⟨next, hn, rfl⟩, hr, rfl⟩

/-- **One stream after another.** -/
theorem replay_append :
    replay floor scope (xs ++ ys) = some (log, scope'') ↔ ∃ front mid back,
      replay floor scope xs = some (front, mid) ∧ replay floor mid ys = some (back, scope'') ∧
        log = front ++ back := run_append

/-- The log holds every instruction, in order. -/
theorem map_fst_of_replay (h : replay floor scope xs = some (log, scope')) :
    log.map Prod.fst = xs := by
  induction xs generalizing scope log with
  | nil =>
    obtain ⟨rfl, -⟩ := Prod.mk.inj (Option.some.inj h)
    rfl
  | cons op xs ih =>
    obtain ⟨next, rest, -, hr, rfl⟩ := replay_cons.mp h
    rw [List.map_cons, ih hr]

/-- Instructions that leave the scope alone. -/
theorem replay_of_not_isMove (h : ∀ op ∈ xs, op.isMove = false) :
    replay floor scope xs = some (xs.map (·, scope), scope) := by
  rw [← List.flatMap_pure_eq_map]
  refine run_of_idle fun op hop => ?_
  rw [replayStep, Opcode.scopeAfter?_of_not_isMove (h op hop), Option.map_some]
  rfl

/-! ## Hoisting -/

/-- A log with its morphs moved up. -/
def hoistLog (log : List (Opcode ι × List ι)) : List (Opcode ι × List ι) :=
  hoistBy (·.1.isAnchor) (·.1.isMorph) log

/-- Behind an anchor, the log is hoisted anew. -/
theorem hoistLog_append_cons {a : Opcode ι} (ha : a.isAnchor)
    (front back : List (Opcode ι × List ι)) :
    hoistLog (front ++ (a, scope) :: back) = hoistLog front ++ (a, scope) :: hoistLog back :=
  hoistBy_append_cons (a := (a, scope)) ha front back

/-- Without an anchor, everything happens in one scope. -/
theorem replay_of_free (h : ∀ op ∈ xs, op.isAnchor = false) :
    replay floor scope xs = some (xs.map (·, scope), scope) :=
  replay_of_not_isMove fun op hop => Opcode.isMove_of_not_isAnchor (h op hop)

/-- …and morphs move to the front. -/
theorem replay_hoist_of_free (h : ∀ op ∈ xs, op.isAnchor = false) :
    replay floor scope (hoist xs) = some (hoistLog (xs.map (·, scope)), scope) := by
  have hh : ∀ op ∈ hoist xs, op.isAnchor = false := fun op hop =>
    h op ((hoistBy_perm xs).mem_iff.mp hop)
  have hl : hoistLog (xs.map (·, scope)) = (hoist xs).map (·, scope) :=
    hoistBy_map (fun _ => rfl) (fun _ => rfl) xs
  rw [replay_of_free hh, hl]

/-- **Hoisting a stream hoists its log.** -/
theorem replay_hoist {ops : List (Opcode ι)} (h : replay floor scope ops = some (log, scope')) :
    replay floor scope (hoist ops) = some (hoistLog log, scope') := by
  induction ops using anchor_induction Opcode.isAnchor generalizing scope log with
  | free xs hf =>
    obtain ⟨rfl, rfl⟩ : xs.map (·, scope) = log ∧ scope = scope' := by
      simpa [replay_of_free hf] using h
    exact replay_hoist_of_free hf
  | cut xs a ys hf ha ih =>
    obtain ⟨front, mid, back, hx, hy, rfl⟩ := replay_append.mp h
    obtain ⟨rfl, rfl⟩ : xs.map (·, scope) = front ∧ scope = mid := by
      simpa [replay_of_free hf] using hx
    obtain ⟨next, rest, hn, hr, rfl⟩ := replay_cons.mp hy
    -- The scope changes only at the anchor `a`, and nothing is moved past it.
    have hh : hoist (xs ++ a :: ys) = hoist xs ++ a :: hoist ys := hoistBy_append_cons ha xs ys
    rw [hh, hoistLog_append_cons ha]
    exact replay_append.mpr ⟨_, _, _, replay_hoist_of_free hf,
      replay_cons.mpr ⟨next, _, hn, ih hr, rfl⟩, rfl⟩

end

/-! ## The log of a walk -/

variable [Counter ι]

/-- The node that is current for what is written at a step. -/
def Template.Visit.scope : Visit → List Nat
  | .enter ν => if ν.statement.isElement then ν.address else ν.path
  | .leave ν => ν.path

/-- **The log of a walk**: all that is written at a step is executed in its scope. -/
def walkLog (o : Options) (n : Numbers) : List Visit → List (Opcode ι × List ι)
  | [] => []
  | v :: vs =>
    (v.opcodes o n).map (·, v.scope.map ofNat) ++ walkLog o (n.step ι o v) vs

theorem walkLog_append (o : Options) (n : Numbers) (us vs : List Visit) :
    (walkLog o n (us ++ vs) : List (Opcode ι × List ι)) =
      walkLog o n us ++ walkLog o (n.after ι o us) vs := by
  induction us generalizing n with
  | nil => rfl
  | cons u us ih =>
    rw [List.cons_append, walkLog, ih, walkLog, List.append_assoc]
    rfl

theorem walkLog_cons (o : Options) (n : Numbers) (ν : Node) (us vs : List Visit) :
    (walkLog o n (.enter ν :: (us ++ .leave ν :: vs)) : List (Opcode ι × List ι)) =
      (ν.opening o n).map (·, (Visit.enter ν).scope.map ofNat) ++
        (walkLog o (n.step ι o (.enter ν)) us ++ (ν.closing.map (·, ν.path.map ofNat) ++
          walkLog o ((n.step ι o (.enter ν)).after ι o us) vs)) := by
  rw [walkLog, walkLog_append]
  rfl

/-! ### Each visit -/

theorem isMove_of_mem_tag {o : Options} {n : Numbers} {ν : Node} {e : Element} {op : Opcode ι}
    (h : op ∈ ν.tag o n e) : op.isMove = false := by
  rcases plain_or_element_of_mem_tag h with h | rfl
  · exact Opcode.isMove_of_not_isAnchor h.1
  · rfl

/-- What is written for a node that is not an element goes nowhere. -/
theorem isMove_of_mem_opening {o : Options} {n : Numbers} {ν : Node}
    (hs : ν.statement.isElement = false) {op : Opcode ι} (hop : op ∈ ν.opening o n) :
    op.isMove = false := by
  rcases ν.statement.trichotomy (ι := ι) n.programs with ⟨e, he⟩ | ⟨-, hd⟩ | ⟨-, -, p, hp⟩
  · rw [he] at hs
    exact absurd hs (by simp [Statement.isElement])
  · rw [Node.opening_of_static o n hs hd] at hop
    exact absurd hop List.not_mem_nil
  · rw [Node.opening_of_phrase o hp] at hop
    rcases List.mem_cons.mp hop with rfl | hop
    · rfl
    · exact Opcode.isMove_of_not_isAnchor (plain_of_mem_phrase hop).1

variable {floor : Nat} {ν : Node}

/-- **Opening an element goes there**, unless it is the only root. -/
theorem replay_opening_element (o : Options) (n : Numbers) {e : Element}
    (he : ν.statement = .element e) (hs : ν.isSole = false) :
    replay floor (ν.path.map ofNat) (ν.opening o n : List (Opcode ι)) =
      some ((ν.opening o n).map (·, ν.address.map ofNat), ν.address.map ofNat) := by
  have ho : (ν.opening o n : List (Opcode ι)) = .consumeParent (ofNat ν.index) :: ν.tag o n e := by
    rw [Node.opening, he, hs]
    rfl
  have ha : (ν.path.map ofNat ++ [ofNat ν.index] : List ι) = ν.address.map ofNat := by
    rw [Node.address, List.map_append]
    rfl
  rw [ho]
  exact replay_cons.mpr ⟨_, _, congrArg some ha, replay_of_not_isMove fun op => isMove_of_mem_tag,
    rfl⟩

/-- The only root is current from the start. -/
theorem replay_opening_sole (o : Options) (n : Numbers) {e : Element}
    (he : ν.statement = .element e) (hs : ν.isSole = true) (scope : List ι) :
    replay floor scope (ν.opening o n : List (Opcode ι)) =
      some ((ν.opening o n).map (·, scope), scope) := by
  have ho : (ν.opening o n : List (Opcode ι)) = ν.tag o n e := by
    rw [Node.opening, he, hs]
    rfl
  rw [ho]
  exact replay_of_not_isMove fun op => isMove_of_mem_tag

/-- **Any other node is filled in from where it is.** -/
theorem replay_opening_leaf (o : Options) (n : Numbers) (hs : ν.statement.isElement = false)
    (scope : List ι) :
    replay floor scope (ν.opening o n : List (Opcode ι)) =
      some ((ν.opening o n).map (·, scope), scope) := by
  exact replay_of_not_isMove fun op hop => isMove_of_mem_opening hs hop

/-- **Closing an element goes back**, unless it is the only root. -/
theorem replay_closing (he : ν.statement.isElement = true) (hs : ν.isSole = false)
    (hf : floor ≤ ν.path.length) :
    replay floor (ν.address.map ofNat) (ν.closing : List (Opcode ι)) =
      some (ν.closing.map (·, ν.path.map ofNat), ν.path.map ofNat) := by
  have hc : (ν.closing : List (Opcode ι)) = [.popParent] := by
    rw [Node.closing, he, hs]
    rfl
  have hl : ¬ (ν.address.map (ofNat : Nat → ι)).length ≤ floor := by
    rw [List.length_map, Node.address, List.length_append, List.length_singleton]
    omega
  have ha : (ν.address.map (ofNat : Nat → ι)).dropLast = ν.path.map ofNat := by
    rw [Node.address, List.map_append, List.map_singleton, List.dropLast_concat]
  rw [hc]
  refine replay_cons.mpr ⟨ν.path.map ofNat, [], ?_, rfl, rfl⟩
  rw [Opcode.scopeAfter?, if_neg hl, ha]

/-! ### Whole walks -/

/-- **A walk is replayed visit by visit** and comes back to where it started, where no element is
the only root. -/
theorem replay_visits (o : Options) (n : Numbers) {path : List Nat} {length index : Nat}
    {statements : List Statement}
    (hr : ∀ s ∈ statements, s.isElement = true → (path.isEmpty && length == 1) = false)
    (hf : floor ≤ path.length) :
    replay floor (path.map ofNat)
        (stream o n (visits path length index statements) : List (Opcode ι)) =
      some (walkLog o n (visits path length index statements), path.map ofNat) := by
  induction statements using Statement.inside_induction generalizing path length index n with
  | nil =>
    rw [visits_nil]
    rfl
  | cons s rest ihs ihr =>
    have hrest : ∀ m : Numbers, replay floor (path.map ofNat)
        (stream o m (visits path length (index + 1) rest) : List (Opcode ι)) =
          some (walkLog o m (visits path length (index + 1) rest), path.map ofNat) :=
      fun m => ihr m (fun t ht => hr t (List.mem_cons_of_mem s ht)) hf
    rw [visits_cons, stream_cons, walkLog_cons]
    cases he : s.isElement with
    | false =>
      have hs : (Visit.enter ⟨path, index, length, s⟩).scope = path := by
        simp [Visit.scope, he]
      have hc : (Node.mk path index length s).closing = ([] : List (Opcode ι)) := by
        simp [Node.closing, he]
      rw [Statement.children_eq_nil he, visits_nil, hs, hc]
      exact replay_append.mpr ⟨_, _, _, replay_opening_leaf o n he _, hrest _, rfl⟩
    | true =>
      obtain ⟨e, rfl⟩ := Statement.isElement_iff.mp he
      have hn : (Node.mk path index length (.element e)).isSole = false :=
        hr _ List.mem_cons_self rfl
      have hin : ∀ m : Numbers, replay floor ((path ++ [index]).map ofNat)
          (stream o m (visits (path ++ [index]) e.children.length 0 e.children) :
            List (Opcode ι)) =
          some (walkLog o m (visits (path ++ [index]) e.children.length 0 e.children),
            (path ++ [index]).map ofNat) :=
        fun m => ihs m (by simp) (hf.trans (by simp))
      refine replay_append.mpr ⟨_, _, _, replay_opening_element o n rfl hn, ?_, rfl⟩
      refine replay_append.mpr ⟨_, _, _, hin _, ?_, rfl⟩
      exact replay_append.mpr ⟨_, _, _, replay_closing rfl hn hf, hrest _, rfl⟩

/-- **Where the replay of a fragment starts**: at its only root if that is an element. -/
def Template.Fragment.startScope (f : Fragment) : List Nat :=
  match f.body with
  | [.element _] => [0]
  | _ => []

/-- The log of a fragment. -/
def Template.Fragment.log (o : Options) (f : Fragment) : List (Opcode ι × List ι) :=
  (f.header o).map (·, f.startScope.map ofNat) ++ walkLog o {} f.visits

/-- The walk over the only root stays there. -/
theorem replay_sole (o : Options) (n : Numbers) (e : Element) :
    replay 1 ([0].map ofNat) (stream o n (visits [] 1 0 [.element e]) : List (Opcode ι)) =
      some (walkLog o n (visits [] 1 0 [.element e]), [0].map ofNat) := by
  have hin : ∀ m : Numbers, replay 1 ([0].map ofNat)
      (stream o m (visits [0] e.children.length 0 e.children) : List (Opcode ι)) =
      some (walkLog o m (visits [0] e.children.length 0 e.children), [0].map ofNat) :=
    fun m => replay_visits o m (fun _ _ _ => rfl) (Nat.le_refl 1)
  rw [visits_cons, stream_cons, walkLog_cons, visits_nil]
  refine replay_append.mpr ⟨_, _, _, replay_opening_sole o n rfl rfl _, ?_, rfl⟩
  exact replay_append.mpr ⟨_, _, _, hin _, rfl, rfl⟩

/-- **A fragment is replayed visit by visit**, and comes back to where it started. -/
theorem replay_fragment (o : Options) (f : Fragment) :
    replay f.startScope.length (f.startScope.map ofNat) (f.stream o : List (Opcode ι)) =
      some (f.log o, f.startScope.map ofNat) := by
  refine replay_append.mpr ⟨_, _, _, replay_of_not_isMove fun op hop =>
    Opcode.isMove_of_not_isAnchor (plain_of_mem_header hop).1, ?_, rfl⟩
  rw [Fragment.visits]
  unfold Fragment.startScope
  split
  next e he =>
    rw [he]
    exact replay_sole o {} e
  next hne =>
    refine replay_visits o {} (fun s hs he => ?_) (Nat.zero_le _)
    obtain ⟨e, rfl⟩ := Statement.isElement_iff.mp he
    refine beq_eq_false_iff_ne.mpr fun hl => ?_
    obtain ⟨t, ht⟩ := List.length_eq_one_iff.mp hl
    rw [ht, List.mem_singleton] at hs
    exact hne e (by rw [ht, ← hs])

/-! ## What the log shows -/

/-- The scope reached by entering an element. -/
def reached? : Opcode ι × List ι → Option (List ι)
  | (.consumeParent _, scope) => some scope
  | _ => none

/-- **The elements of a fragment that are entered**, in document order: all but its only root. -/
def Template.Fragment.entered (f : Fragment) : List Node :=
  f.nodes.filter fun ν => ν.statement.isElement && !ν.isSole

omit [Counter ι] in
theorem reached_eq_nil {ops : List (Opcode ι)} (h : ∀ op ∈ ops, op.isMove = false)
    (scope : List ι) : (ops.map (·, scope)).filterMap reached? = [] := by
  refine List.filterMap_eq_nil_iff.mpr fun e he => ?_
  obtain ⟨op, hop, rfl⟩ := List.mem_map.mp he
  have hm := h op hop
  cases op <;> first | rfl | exact absurd hm (by simp [Opcode.isMove])

/-- **Opening an element reaches its address**, and nothing else reaches a scope. -/
theorem reached_opening (o : Options) (n : Numbers) (ν : Node) :
    ((ν.opening o n).map (·, (Visit.enter ν).scope.map (ofNat : Nat → ι))).filterMap reached? =
      if ν.statement.isElement && !ν.isSole then [ν.address.map ofNat] else [] := by
  cases he : ν.statement.isElement with
  | false => exact reached_eq_nil (fun op hop => isMove_of_mem_opening he hop) _
  | true =>
    obtain ⟨e, he'⟩ := Statement.isElement_iff.mp he
    have hs : (Visit.enter ν).scope = ν.address := by rw [Visit.scope, if_pos he]
    have ht : ((ν.tag o n e : List (Opcode ι)).map (·, ν.address.map ofNat)).filterMap reached? =
        [] :=
      reached_eq_nil (fun op hop => isMove_of_mem_tag hop) _
    rw [hs, Node.opening, he', List.map_append, List.filterMap_append, ht, List.append_nil]
    cases ν.isSole <;> rfl

/-- **The scopes reached in a walk are the addresses of the elements entered.** -/
theorem reached_walkLog (o : Options) (n : Numbers) (vs : List Visit) :
    (walkLog o n vs : List (Opcode ι × List ι)).filterMap reached? =
      ((vs.filterMap Visit.entered?).filter fun ν => ν.statement.isElement && !ν.isSole).map
        fun ν => ν.address.map ofNat := by
  induction vs generalizing n with
  | nil => rfl
  | cons v vs ih =>
    rw [walkLog, List.filterMap_append, ih]
    cases v with
    | enter ν =>
      have hr := reached_opening (ι := ι) o n ν
      rw [Visit.opcodes, hr]
      cases h : ν.statement.isElement && !ν.isSole <;> simp [Visit.entered?, h]
    | leave ν =>
      have hr : ((ν.closing : List (Opcode ι)).map
          (·, (Visit.leave ν).scope.map ofNat)).filterMap reached? = [] := by
        unfold Node.closing
        split <;> rfl
      rw [Visit.opcodes, hr]
      rfl

/-- **A morph is created at its own path.** -/
theorem scope_of_morph_opening {o : Options} {n : Numbers} {ν : Node} {m : Morph ι}
    (h : .morph m ∈ ν.opening o n) : (Visit.enter ν).scope.map ofNat = m.path := by
  rcases ν.statement.trichotomy (ι := ι) n.programs with ⟨e, he⟩ | ⟨hs, hd⟩ | ⟨hs, -, p, hp⟩
  · exact absurd (isMorph_of_mem_opening he h) (by simp [Opcode.isMorph, Opcode.morph?])
  · rw [Node.opening_of_static o n hs hd] at h
    exact absurd h List.not_mem_nil
  · rw [Node.opening_of_phrase o hp, List.mem_cons] at h
    rcases h with h | h
    · rw [Opcode.morph.inj h, Visit.scope, if_neg (by simp [hs])]
      rfl
    · exact absurd (plain_of_mem_phrase h).2 (by simp [Opcode.isMorph, Opcode.morph?])

theorem scope_of_morph_walkLog {o : Options} {n : Numbers} {vs : List Visit} {m : Morph ι}
    {scope : List ι} (h : (.morph m, scope) ∈ walkLog o n vs) : scope = m.path := by
  induction vs generalizing n with
  | nil => exact absurd h List.not_mem_nil
  | cons v vs ih =>
    rw [walkLog, List.mem_append] at h
    rcases h with h | h
    · obtain ⟨op, hop, he⟩ := List.mem_map.mp h
      obtain ⟨rfl, rfl⟩ := Prod.mk.inj he
      cases v with
      | enter ν => exact scope_of_morph_opening hop
      | leave ν => exact absurd (eq_popParent_of_mem_closing hop) (by simp)
    · exact ih h

/-! ## Programs -/

omit [Counter ι] in
/-- Hoisting keeps the scopes reached. -/
theorem reached_hoistLog (log : List (Opcode ι × List ι)) :
    (hoistLog log).filterMap reached? = log.filterMap reached? := by
  refine filterMap_hoistBy (b := false) ?_ log
  rintro ⟨op, scope⟩ h
  cases op <;> first | rfl | exact absurd h (by simp [reached?])

theorem mem_entered {f : Fragment} {ν : Node} :
    ν ∈ f.entered ↔ f.Contains ν ∧ ν.statement.isElement = true ∧ ν.isSole = false := by
  rw [Fragment.entered, List.mem_filter, mem_nodes, Bool.and_eq_true, Bool.not_eq_true']

/-- **A log that walks the elements of a fragment** and creates morphs at their paths. -/
structure Template.Fragment.Traces (f : Fragment) (log : List (Opcode UInt32 × List UInt32)) :
    Prop where
  /-- The elements entered are all there are but the only root… -/
  complete : ∀ ν, ν ∈ f.entered ↔
    f.Contains ν ∧ ν.statement.isElement = true ∧ ν.isSole = false
  /-- …in document order… -/
  ordered : f.entered.Pairwise fun μ ν => μ.address < ν.address
  /-- …and the scopes reached are their addresses. -/
  reached : log.filterMap reached? = f.entered.map fun ν => ν.address.map ofNat
  /-- No position is cut off where the numbers fit. -/
  exact : f.size < 2 ^ 32 →
    (log.filterMap reached?).map (List.map Counter.toNat) = f.entered.map Node.address
  /-- Each morph is created at its own path. -/
  morphs : ∀ m scope, (.morph m, scope) ∈ log → scope = m.path

/-- **Replaying the opcodes of a program** never takes off more than was added, comes back to where
it started, and traces the fragment. -/
def ReplaysSoundly (f : Fragment) (p : Program UInt32) : Prop :=
  ∃ log, replay f.startScope.length (f.startScope.map ofNat) p.opcodes =
    some (log, f.startScope.map ofNat) ∧ f.Traces log

theorem lt_size_of_mem_address {f : Fragment} {ν : Node} (h : ν ∈ f.nodes) {i : Nat}
    (hi : i ∈ ν.address) : i < f.size := by
  rcases List.mem_append.mp hi with hi | hi
  · exact lt_size_of_mem_path h hi
  · rw [List.mem_singleton.mp hi]
    exact (index_lt_siblings h).1.trans (index_lt_siblings h).2

theorem traces_log (o : Options) (f : Fragment) : f.Traces (hoistLog (f.log o)) := by
  have hheader : ((f.header o : List (Opcode UInt32)).map
      (·, f.startScope.map ofNat)).filterMap reached? = [] :=
    reached_eq_nil (fun op hop => Opcode.isMove_of_not_isAnchor (plain_of_mem_header hop).1) _
  have hreached : (hoistLog (f.log o)).filterMap reached? =
      f.entered.map fun ν => ν.address.map (ofNat : Nat → UInt32) := by
    rw [reached_hoistLog, Fragment.log, List.filterMap_append, hheader, List.nil_append,
      reached_walkLog, Fragment.visits, entered_visits]
    rfl
  refine ⟨fun ν => mem_entered, (pairwise_nodes [] f.body.length 0 f.body).filter _, hreached,
    fun hf => ?_, fun m scope h => ?_⟩
  · rw [hreached, List.map_map]
    refine List.map_congr_left fun ν hν => map_toNat_map_ofNat fun i hi => ?_
    exact (lt_size_of_mem_address (List.mem_of_mem_filter hν) hi).trans hf
  · rw [hoistLog, (hoistBy_perm _).mem_iff, Fragment.log, List.mem_append] at h
    rcases h with h | h
    · obtain ⟨op, hop, he⟩ := List.mem_map.mp h
      obtain ⟨rfl, -⟩ := Prod.mk.inj he
      exact absurd (plain_of_mem_header hop).2 (by simp [Opcode.isMorph, Opcode.morph?])
    · exact scope_of_morph_walkLog h

/-- **The opcodes of a program replay soundly**, and so do those of every program nested in it. -/
theorem program_replays {t : Template} {o : Options} {p : Program UInt32}
    (h : t.program o = .ok p) : Throughout ReplaysSoundly t.root p := by
  refine throughout_of_program (H := fun _ => True) (fun _ _ _ _ => trivial) ?_ h trivial
  intro f _ _
  exact ⟨hoistLog (f.log o), replay_hoist (replay_fragment o f), traces_log o f⟩

theorem program_replays_roster :
    ∃ p, Template.roster.program {} = .ok p ∧ Throughout ReplaysSoundly Template.roster.root p := by
  obtain ⟨p, hp⟩ := roster_compiles
  exact ⟨p, hp, program_replays hp⟩

end Hydration
