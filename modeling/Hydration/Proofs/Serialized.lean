import Hydration.Program.Serial
import Hydration.Proofs.Kinds
import Mathlib.Data.List.Nodup

/-!
# Proofs/Serialized — programs can be told apart by their JSON

Two JSON values are the same when they are equal up to the order of members, that is, when their
canonical forms are equal. An object is then known by the values under its keys
(`values_of_canonical_eq`), and so an instruction by its name and operands, and a program by its
instructions and the programs nested in it.

* `program_of_json`: programs with finite numbers that serialise to the same JSON value are equal.
-/

namespace Hydration

/-! ## JSON values up to the order of members -/

namespace Document

variable {φ : Type}

theorem canonicalItems_eq_map (items : List (Document φ)) :
    canonicalItems items = items.map canonical := by
  induction items with
  | nil => rw [canonicalItems, List.map_nil]
  | cons item items ih => rw [canonicalItems, List.map_cons, ih]

theorem lookup_cons_eq_ite (k key : String) (value : Document φ)
    (members : List (String × Document φ)) :
    ((key, value) :: members).lookup k = if k = key then some value else members.lookup k := by
  rw [List.lookup_cons]
  by_cases h : k = key
  · simp [h]
  · rw [beq_eq_false_iff_ne.mpr h, if_neg h]

/-- The member put in is found under its key, and every other one as before. -/
theorem lookup_insertMember (k key : String) (value : Document φ)
    (members : List (String × Document φ)) :
    (insertMember key value members).lookup k =
      if k = key then some value else members.lookup k := by
  induction members with
  | nil => rw [insertMember, lookup_cons_eq_ite]
  | cons member members ih =>
    obtain ⟨key', value'⟩ := member
    rw [insertMember]
    split
    · rw [lookup_cons_eq_ite]
    · split
      next he =>
        rw [lookup_cons_eq_ite, lookup_cons_eq_ite, ← he]
        split <;> rfl
      next he =>
        rw [lookup_cons_eq_ite, lookup_cons_eq_ite, ih]
        grind

/-- **The value under a key is the last one that was written there.** -/
theorem lookup_canonicalMembers (k : String) (done members : List (String × Document φ)) :
    (canonicalMembers done members).lookup k =
      ((members.reverse.lookup k).map canonical).or (done.lookup k) := by
  induction members generalizing done with
  | nil => simp [canonicalMembers]
  | cons member members ih =>
    obtain ⟨key, value⟩ := member
    rw [canonicalMembers, ih, lookup_insertMember, List.reverse_cons, List.lookup_append,
      lookup_cons_eq_ite]
    cases members.reverse.lookup k with
    | none => split <;> simp
    | some value => simp

/-- The same objects have the same values under a key. -/
theorem lookup_eq_of_canonical_eq {members members' : List (String × Document φ)}
    (h : (object members).canonical = (object members').canonical) (k : String) :
    (members.reverse.lookup k).map canonical = (members'.reverse.lookup k).map canonical := by
  rw [canonical, canonical, object.injEq] at h
  have hk := congrArg (List.lookup k) h
  rw [lookup_canonicalMembers, lookup_canonicalMembers] at hk
  simpa using hk

theorem lookup_reverse_of_not_mem {key : String} {members : List (String × Document φ)}
    (hk : key ∉ members.map Prod.fst) : members.reverse.lookup key = none := by
  refine List.lookup_eq_none_iff.mpr fun member hm => bne_iff_ne.mpr ?_
  rintro rfl
  exact hk (List.mem_map_of_mem (List.mem_reverse.mp hm))

/-- Where a key stands once, its value is the one found. -/
theorem lookup_reverse_cons {key : String} {members : List (String × Document φ)}
    (hk : key ∉ members.map Prod.fst) (value : Document φ) (k : String) :
    ((key, value) :: members).reverse.lookup k =
      if k = key then some value else members.reverse.lookup k := by
  rw [List.reverse_cons, List.lookup_append, lookup_cons_eq_ite, List.lookup_nil]
  split
  next h => rw [h, lookup_reverse_of_not_mem hk, Option.none_or]
  next => rw [Option.or_none]

/-- **Objects with the same keys that are the same have the same values.** -/
theorem values_of_canonical_eq {members members' : List (String × Document φ)}
    (h : (object members).canonical = (object members').canonical)
    (hn : (members.map Prod.fst).Nodup) (hk : members.map Prod.fst = members'.map Prod.fst) :
    members.map (·.2.canonical) = members'.map (·.2.canonical) := by
  -- What the two objects share is what is found under each key; the tails share that too.
  have hl := lookup_eq_of_canonical_eq h
  clear h
  induction members generalizing members' with
  | nil =>
    rw [List.map_nil, eq_comm, List.map_eq_nil_iff] at hk
    rw [hk]
  | cons member members ih =>
    obtain ⟨key, value⟩ := member
    cases members' with
    | nil => exact absurd hk (by simp)
    | cons member' members' =>
      obtain ⟨key', value'⟩ := member'
      obtain ⟨hkey, htail⟩ := List.cons.inj hk
      obtain rfl : key = key' := hkey
      obtain ⟨hn, hn'⟩ := List.nodup_cons.mp hn
      have hm : key ∉ members'.map Prod.fst := htail ▸ hn
      simp only [lookup_reverse_cons hn, lookup_reverse_cons hm] at hl
      have hv : value.canonical = value'.canonical := by simpa using hl key
      refine congrArg₂ List.cons hv (ih hn' htail fun k => ?_)
      by_cases h : k = key
      · rw [h, lookup_reverse_of_not_mem hn, lookup_reverse_of_not_mem hm]
      · simpa [h] using hl k

/-- **Arrays that are the same have the same items**, as far as these can be told apart. -/
theorem items_of_canonical_eq {α : Type} {f : α → Document φ} {xs ys : List α}
    (hf : ∀ x ∈ xs, ∀ y ∈ ys, (f x).canonical = (f y).canonical → x = y)
    (h : (array (xs.map f)).canonical = (array (ys.map f)).canonical) : xs = ys := by
  rw [canonical, canonical, canonicalItems_eq_map, canonicalItems_eq_map, array.injEq,
    List.map_map, List.map_map] at h
  exact eq_of_map_eq hf h

@[simp] theorem canonical_string_inj {s s' : String} :
    (string s : Document φ).canonical = (string s').canonical ↔ s = s' := by
  rw [canonical, canonical, string.injEq]

@[simp] theorem canonical_boolean_inj {b b' : Bool} :
    (boolean b : Document φ).canonical = (boolean b').canonical ↔ b = b' := by
  rw [canonical, canonical, boolean.injEq]

@[simp] theorem canonical_ofNat_inj {n n' : Nat} :
    (ofNat n : Document φ).canonical = (ofNat n').canonical ↔ n = n' := by
  rw [ofNat, ofNat, canonical, canonical, number.injEq, JsonNumber.integer.injEq]
  exact Int.ofNat_inj

end Document

/-! ## Operands -/

namespace Serial

@[simp] theorem canonical_count_inj {i i' : UInt32} :
    (count i).canonical = (count i').canonical ↔ i = i' := by
  rw [count, count, Document.canonical_ofNat_inj]
  exact UInt32.toNat_inj

@[simp] theorem canonical_optional_inj {i i' : Option UInt32} :
    (optional i).canonical = (optional i').canonical ↔ i = i' := by
  match i, i' with
  | none, none => simp
  | none, some i' => simp [optional, count, Document.ofNat, Document.canonical]
  | some i, none => simp [optional, count, Document.ofNat, Document.canonical]
  | some i, some i' => simp [optional]

@[simp] theorem canonical_counts_inj {is is' : List UInt32} :
    (counts is).canonical = (counts is').canonical ↔ is = is' := by
  refine ⟨Document.items_of_canonical_eq fun i _ i' _ h => ?_, fun h => by rw [h]⟩
  exact canonical_count_inj.mp h

@[simp] theorem canonical_strings_inj {ss ss' : List String} :
    (.array (ss.map .string) : Json).canonical = (.array (ss'.map .string) : Json).canonical ↔
      ss = ss' := by
  refine ⟨Document.items_of_canonical_eq fun s _ s' _ h => ?_, fun h => by rw [h]⟩
  exact Document.canonical_string_inj.mp h

/-- A key is a string and a count a number. -/
theorem eq_of_stackLiteral {value value' : StackLiteral UInt32}
    (h : (args? (.stackLiteral value)).map Document.canonical =
      (args? (.stackLiteral value')).map Document.canonical) : value = value' := by
  match value, value' with
  | .key name, .key name' => simpa [args?] using h
  | .key name, .count number' => simp [args?, count, Document.ofNat, Document.canonical] at h
  | .count number, .key name' => simp [args?, count, Document.ofNat, Document.canonical] at h
  | .count number, .count number' => simpa [args?] using h

/-- **Finite numbers and truth values can be told apart.** -/
theorem eq_of_literal {value value' : Literal}
    (hv : ∀ x, value = .number x → x.isFinite) (hv' : ∀ x, value' = .number x → x.isFinite)
    (h : (literal value).canonical = (literal value').canonical) : value = value' := by
  match value, value' with
  | .number x, .number y =>
    simpa [literal, hv x rfl, hv' y rfl, Document.canonical] using h
  | .number x, .boolean b => simp [literal, hv x rfl, Document.canonical] at h
  | .boolean b, .number x => simp [literal, hv' x rfl, Document.canonical] at h
  | .boolean b, .boolean b' => simpa [literal] using h

end Serial

/-! ## Instructions -/

namespace Opcode

/-- An instruction is an object with its name and its operands, if any. -/
theorem exists_members (op : Opcode UInt32) : ∃ members, op.toJson = .object members ∧
    members.reverse.lookup "op" = some (.string op.name) ∧
      members.reverse.lookup "args" = Serial.args? op := by
  unfold toJson
  cases Serial.args? op with
  | none => exact ⟨_, rfl, by simp, by simp [Document.lookup_cons_eq_ite]⟩
  | some args => exact ⟨_, rfl, by simp [Document.lookup_cons_eq_ite], by simp⟩

/-- Instructions that are the same in JSON have the same name and operands. -/
theorem name_and_args_of_json {a b : Opcode UInt32}
    (h : a.toJson.canonical = b.toJson.canonical) :
    a.name = b.name ∧
      (Serial.args? a).map Document.canonical = (Serial.args? b).map Document.canonical := by
  obtain ⟨ms, ha, hna, haa⟩ := a.exists_members
  obtain ⟨ns, hb, hnb, hab⟩ := b.exists_members
  rw [ha, hb] at h
  have hl := Document.lookup_eq_of_canonical_eq h
  rw [← haa, ← hab]
  exact ⟨by simpa [hna, hnb] using hl "op", hl "args"⟩

/-- **Instructions with finite numbers that are the same in JSON are equal.** -/
theorem eq_of_json {a b : Opcode UInt32} (ha : ∀ x, a = .literal (.number x) → x.isFinite)
    (hb : ∀ x, b = .literal (.number x) → x.isFinite)
    (h : a.toJson.canonical = b.toJson.canonical) : a = b := by
  obtain ⟨hn, h⟩ := name_and_args_of_json h
  cases a, b, hn using same_kind_cases with
  | popParent => rfl
  | consumeParent _ _ | element _ _ | sexpr _ _ | string _ _ | stringLiteral _ _ | id _ _ =>
    simpa [Serial.args?] using h
  | literal value value' =>
    refine congrArg literal (Serial.eq_of_literal (fun x hx => ha x ?_) (fun x hx => hb x ?_) ?_)
    · rw [hx]
    · rw [hx]
    · exact Option.some.inj h
  | stackLiteral value value' => exact congrArg stackLiteral (Serial.eq_of_stackLiteral h)
  | blockParam _ _ _ _ | repairClonedNode _ _ _ _ | program _ _ _ _ | nodeHelper _ _ _ _
  | «attribute» _ _ _ _ _ _ _ _ | helper _ _ _ _ _ _ | ambiguous _ _ | component _ _ _ _ =>
    simp only [Serial.args?, Option.map_some, Option.some.injEq] at h
    simpa using Document.values_of_canonical_eq h (by simp) rfl
  | morph m m' =>
    obtain ⟨id, path, start, stop, escaped⟩ := m
    obtain ⟨id', path', start', stop', escaped'⟩ := m'
    simp only [Serial.args?, Serial.morph, Option.map_some, Option.some.injEq] at h
    simpa using Document.values_of_canonical_eq h (by simp) rfl

end Opcode

/-! ## Programs -/

theorem Program.childrenToJson_eq_map (children : List (Program UInt32)) :
    Program.childrenToJson children = children.map Program.toJson := by
  induction children with
  | nil => rw [Program.childrenToJson, List.map_nil]
  | cons child children ih => rw [Program.childrenToJson, List.map_cons, ih]

/-- The JSON of a program has its instructions and its nested programs. -/
theorem Program.parts_of_json {p q : Program UInt32} (h : p.toJson.canonical = q.toJson.canonical) :
    (.array (p.opcodes.map Opcode.toJson) : Json).canonical =
        (.array (q.opcodes.map Opcode.toJson) : Json).canonical ∧
      (.array (p.children.map Program.toJson) : Json).canonical =
        (.array (q.children.map Program.toJson) : Json).canonical := by
  obtain ⟨ops, children⟩ := p
  obtain ⟨ops', children'⟩ := q
  rw [Program.toJson, Program.toJson, childrenToJson_eq_map, childrenToJson_eq_map] at h
  simpa using Document.values_of_canonical_eq h (by simp) rfl

/-- **A program is known by its JSON.** Two programs whose numbers are finite, nested ones included,
are equal if they serialise to the same JSON value, members being compared in any order and numbers
by their bits. -/
theorem program_of_json {p q : Program UInt32} (hp : ∀ x ∈ p.numbers, x.isFinite)
    (hq : ∀ x ∈ q.numbers, x.isFinite) (h : p.toJson.canonical = q.toJson.canonical) : p = q := by
  induction p using Program.nested_induction generalizing q with
  | step p ih =>
    obtain ⟨hops, hchildren⟩ := Program.parts_of_json h
    have ho : p.opcodes = q.opcodes := by
      refine Document.items_of_canonical_eq (fun a ha b hb hab => ?_) hops
      refine Opcode.eq_of_json (fun x hx => hp x ?_) (fun x hx => hq x ?_) hab
      · exact Program.mem_numbers_of_literal (hx ▸ ha)
      · exact Program.mem_numbers_of_literal (hx ▸ hb)
    have hc : p.children = q.children := by
      refine Document.items_of_canonical_eq (fun c hc d hd hcd => ?_) hchildren
      refine ih c hc (fun x hx => hp x ?_) (fun x hx => hq x ?_) hcd
      · exact Program.mem_numbers_of_child hc hx
      · exact Program.mem_numbers_of_child hd hx
    obtain ⟨ops, children⟩ := p
    obtain ⟨ops', children'⟩ := q
    exact congrArg₂ Program.mk ho hc

theorem program_of_json_ration :
    (∀ x ∈ Program.ration.numbers, x.isFinite) ∧
      Program.ration = Template.ration.root.output {} := by
  have hf : ∀ x ∈ Program.ration.numbers, x.isFinite := by decide +kernel
  have hf' : ∀ x ∈ (Template.ration.root.output {} : Program UInt32).numbers, x.isFinite := by
    decide +kernel
  exact ⟨hf, program_of_json hf hf' rfl⟩

end Hydration
