import Hydration.Proofs.Nesting
import Hydration.Proofs.Size

/-!
# Proofs/Positions — where morphs go

Every dynamic node of a fragment gets one morph, and the morphs of a program come in document order,
wherever they are placed in the stream: hoisting moves them past other instructions only
(`filterMap_morph?_hoist`). Read as naturals, a morph is the place of its node (`Node.slot`),
provided that the numbers fit in 32 bits.

* `program_morphs_agree`: the morphs of a program, and of every program nested in it, are the slots
  of its dynamic nodes in document order.
-/

namespace Hydration

open Template Counter

variable {ι : Type}

/-! ## The morphs of a stream -/

theorem filterMap_morph?_eq_nil {ops : List (Opcode ι)} (h : ∀ op ∈ ops, op.isMorph = false) :
    ops.filterMap Opcode.morph? = [] := by
  refine List.filterMap_eq_nil_iff.mpr fun op hop => ?_
  exact Option.not_isSome_iff_eq_none.mp (Bool.eq_false_iff.mp (h op hop))

variable [Counter ι]

/-- **A dynamic node creates its morph**, and no other node creates one. -/
theorem morphs_opening (o : Options) (n : Numbers) (ν : Node) :
    (ν.opening o n : List (Opcode ι)).filterMap Opcode.morph? =
      if ν.statement.isDynamic then [ν.morph n.morphs] else [] := by
  rcases ν.statement.trichotomy (ι := ι) n.programs with ⟨e, he⟩ | ⟨hs, hd⟩ | ⟨hs, hd, p, hp⟩
  · have hd : ν.statement.isDynamic = false := by rw [he]; rfl
    rw [hd, filterMap_morph?_eq_nil fun op hop => isMorph_of_mem_opening he hop]
    rfl
  · rw [Node.opening_of_static o n hs hd, hd]
    rfl
  · have hm : (p.opcodes (ofNat n.morphs)).filterMap Opcode.morph? = [] :=
      filterMap_morph?_eq_nil fun op hop => (plain_of_mem_phrase hop).2
    rw [Node.opening_of_phrase o hp, hd, List.filterMap_cons, hm]
    rfl

/-- **The morphs of a walk are those of the dynamic nodes entered**, numbered in order. -/
theorem morphs_stream (o : Options) (n : Numbers) (vs : List Visit) :
    (stream o n vs : List (Opcode ι)).filterMap Opcode.morph? =
      (((vs.filterMap Visit.entered?).filter (·.statement.isDynamic)).zipIdx n.morphs).map
        fun (ν, k) => ν.morph k := by
  induction vs generalizing n with
  | nil => rfl
  | cons v vs ih =>
    rw [stream, List.filterMap_append, ih]
    cases v with
    | enter ν =>
      have hm : (Visit.opcodes o n (.enter ν) : List (Opcode ι)).filterMap Opcode.morph? = _ :=
        morphs_opening o n ν
      rw [hm]
      cases hd : ν.statement.isDynamic <;> simp [Numbers.step, Visit.entered?, hd]
    | leave ν =>
      have hm : (ν.closing : List (Opcode ι)).filterMap Opcode.morph? = [] := by
        refine filterMap_morph?_eq_nil fun op hop => ?_
        rw [eq_popParent_of_mem_closing hop]
        rfl
      rw [Visit.opcodes, hm]
      rfl

/-! ## The slots of a fragment -/

namespace Template

/-- **The dynamic nodes of a fragment**, in document order. -/
def Fragment.dynamics (f : Fragment) : List Node := f.nodes.filter (·.statement.isDynamic)

/-- **Where the `k`-th dynamic node goes**: under the elements around it, from its own position up
to that of the next sibling; at either end of the parent the bound is open. -/
def Node.slot (ν : Node) (k : Nat) : Morph Nat where
  id := k
  path := ν.path
  start := if ν.index = 0 then none else some ν.index
  stop := if ν.index + 1 = ν.siblings then none else some (ν.index + 1)
  escaped := ν.statement.isEscaped

end Template

/-- A morph with its numbers read. -/
def Morph.map {κ : Type} (f : ι → κ) (m : Morph ι) : Morph κ where
  id := f m.id
  path := m.path.map f
  start := m.start.map f
  stop := m.stop.map f
  escaped := m.escaped

/-- The morphs of a fragment are those of its dynamic nodes. -/
theorem morphs_fragment (o : Options) (f : Fragment) :
    (hoist (f.stream o) : List (Opcode ι)).filterMap Opcode.morph? =
      f.dynamics.zipIdx.map fun (ν, k) => ν.morph k := by
  have hh : (f.header o : List (Opcode ι)).filterMap Opcode.morph? = [] :=
    filterMap_morph?_eq_nil fun op hop => (plain_of_mem_header hop).2
  rw [filterMap_morph?_hoist, Fragment.stream, List.filterMap_append, hh, List.nil_append,
    morphs_stream, Fragment.visits, entered_visits]
  rfl

/-- **A morph is read as the slot of its node** where the numbers fit. -/
theorem map_toNat_morph {f : Fragment} (hf : f.size < 2 ^ 32) {ν : Node} (hν : ν ∈ f.nodes)
    {k : Nat} (hk : k < 2 ^ 32) : (ν.morph k : Morph UInt32).map Counter.toNat = ν.slot k := by
  obtain ⟨hi, hs⟩ := index_lt_siblings hν
  have hid : toNat (ofNat k : UInt32) = k := toNat_ofNat_of_lt hk
  have hindex : toNat (ofNat ν.index : UInt32) = ν.index := toNat_ofNat_of_lt (by omega)
  have hnext : toNat (ofNat (ν.index + 1) : UInt32) = ν.index + 1 := toNat_ofNat_of_lt (by omega)
  have hpath : (ν.path.map (ofNat : Nat → UInt32)).map Counter.toNat = ν.path :=
    map_toNat_map_ofNat fun i hi => (lt_size_of_mem_path hν hi).trans hf
  have hstart : (if ν.index = 0 then none else some (ofNat ν.index : UInt32)).map Counter.toNat =
      if ν.index = 0 then none else some ν.index := by
    split
    · rfl
    · rw [Option.map_some, hindex]
  have hstop : (if ν.index + 1 = ν.siblings then none
        else some (ofNat (ν.index + 1) : UInt32)).map Counter.toNat =
      if ν.index + 1 = ν.siblings then none else some (ν.index + 1) := by
    split
    · rfl
    · rw [Option.map_some, hnext]
  rw [Morph.map, Node.morph, Node.slot]
  simp only [hid, hindex, hpath, hstart, hstop]

theorem mem_dynamics {f : Fragment} {ν : Node} :
    ν ∈ f.dynamics ↔ f.Contains ν ∧ ν.statement.isDynamic = true := by
  rw [Fragment.dynamics, List.mem_filter, mem_nodes]

theorem pairwise_dynamics (f : Fragment) :
    f.dynamics.Pairwise fun μ ν => μ.address < ν.address :=
  (pairwise_nodes [] f.body.length 0 f.body).filter _

/-- There are fewer dynamic nodes than nodes in all. -/
theorem length_dynamics_lt_size (f : Fragment) : f.dynamics.length < f.size :=
  Nat.lt_of_le_of_lt (List.length_filter_le _ _) (length_nodes_lt_size f)

/-- **The morphs of a program are where the dynamic nodes of its fragment are.** -/
structure MorphsAgree (f : Fragment) (p : Program UInt32) : Prop where
  /-- The dynamic nodes are all there are… -/
  complete : ∀ ν, ν ∈ f.dynamics ↔ f.Contains ν ∧ ν.statement.isDynamic = true
  /-- …in document order: an element before what is inside it, and that before its next sibling. -/
  ordered : f.dynamics.Pairwise fun μ ν => μ.address < ν.address
  /-- The `k`-th morph has number `k` and is the slot of the `k`-th of them. -/
  morphs : p.morphs.map (Morph.map Counter.toNat) = f.dynamics.zipIdx.map fun (ν, k) => ν.slot k

theorem morphsAgree (o : Options) {f : Fragment} (hf : f.size < 2 ^ 32)
    (children : List (Program UInt32)) : MorphsAgree f ⟨hoist (f.stream o), children⟩ := by
  refine ⟨fun ν => mem_dynamics, pairwise_dynamics f, ?_⟩
  rw [Program.morphs, morphs_fragment, List.map_map]
  refine List.map_congr_left ?_
  rintro ⟨ν, k⟩ hν
  have hk : k < f.dynamics.length := List.snd_lt_of_mem_zipIdx hν
  have hmem : ν ∈ f.dynamics := (List.mem_zipIdx' hν).2 ▸ List.getElem_mem _
  refine map_toNat_morph hf (List.mem_of_mem_filter hmem) ?_
  exact (hk.trans (length_dynamics_lt_size f)).trans hf

/-- **The morphs of a program are where its dynamic nodes are**, in document order, and so are those
of every program nested in it. -/
theorem program_morphs_agree {t : Template} {o : Options} {p : Program UInt32}
    (hs : t.root.size < 2 ^ 32) (h : t.program o = .ok p) : Throughout MorphsAgree t.root p := by
  refine throughout_of_program (H := fun f => f.size < 2 ^ 32) ?_ ?_ h hs
  · intro f g hf hg
    exact (size_lt_of_mem_nested hg).trans hf
  · intro f _ hf
    exact morphsAgree o hf _

theorem program_morphs_agree_roster :
    Template.roster.root.size < 2 ^ 32 ∧ ∃ p, Template.roster.program {} = .ok p ∧
      Throughout MorphsAgree Template.roster.root p := by
  have hs : Template.roster.root.size < 2 ^ 32 := by decide +kernel
  obtain ⟨p, hp⟩ := roster_compiles
  exact ⟨hs, p, hp, program_morphs_agree hs hp⟩

end Hydration
