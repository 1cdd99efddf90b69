import Hydration.Proofs.Kinds
import Hydration.Proofs.Numerals
import Hydration.Proofs.Tokens

/-!
# Proofs/Legible — programs can be told apart by their listings

An instruction is known by its line: its operands are tokens, and the tokens of a line are known.
The line over a nested program starts with the name of an instruction too, but that one has an
operand more (`Entry.eq_of_text`). How far a line is indented says how deep its instruction is
nested, so a listing amounts to the entries of a program with their depths (`Program.entries`), and
these make up one tree of programs (`Program.entries_append_inj`).

* `program_of_listing`: programs without NaN that have the same listing are equal.
-/

namespace Hydration

open Listing

/-! ## Operands -/

namespace Listing

theorem isPlain_of_isDigit {c : Char} (hc : c.isDigit = true) : isPlain c = true := by
  have all : [' ', ',', '[', ']', '"', '\n'].all (!·.isDigit) = true := by decide
  refine decide_eq_true fun hm => ?_
  have hd := List.all_eq_true.mp all c hm
  rw [hc] at hd
  exact absurd hd (by decide)

/-- Whether a text is a plain word can be decided. -/
theorem atom_of_all {w : List Char} (chars : w.all isPlain = true) (nonempty : w ≠ []) : Atom w :=
  .plain (List.all_eq_true.mp chars) nonempty

theorem atom_natural (n : Nat) : Atom (natural n) :=
  .plain (fun _ hc => isPlain_of_isDigit (Nat.isDigit_of_mem_toDigits (by decide) (by decide) hc))
    Nat.toDigits_ne_nil

theorem atom_truth (b : Bool) : Atom (truth b) := by
  cases b <;> exact atom_of_all (by decide) (by decide)

theorem atom_render (x : Binary64) : Atom x.render := by
  refine .plain (fun c hc => ?_) x.render_ne_nil
  have all : "-.infNaN".toList.all isPlain = true := by decide
  rcases Binary64.isDigit_or_of_mem_render hc with hc | hc
  · exact isPlain_of_isDigit hc
  · exact List.all_eq_true.mp all c hc

theorem atom_count (i : UInt32) : Atom (count i) := atom_natural _

theorem atom_optional (i : Option UInt32) : Atom (optional i) := by
  cases i with
  | none => exact atom_of_all (by decide) (by decide)
  | some i => exact atom_count i

@[simp] theorem token_count (i : UInt32) : Token (count i) := .atom (atom_count i)

@[simp] theorem token_optional (i : Option UInt32) : Token (optional i) := .atom (atom_optional i)

@[simp] theorem token_truth (b : Bool) : Token (truth b) := .atom (atom_truth b)

@[simp] theorem token_quote (s : String) : Token (Text.quote s) := .atom (.quotation s)

@[simp] theorem token_render (x : Binary64) : Token x.render := .atom (atom_render x)

@[simp] theorem token_counts (is : List UInt32) : Token (bracketed (is.map count)) :=
  .list (List.forall_mem_map.mpr fun i _ => atom_count i)

@[simp] theorem token_quotes (ss : List String) : Token (bracketed (ss.map Text.quote)) :=
  .list (List.forall_mem_map.mpr fun s _ => .quotation s)

theorem natural_inj {m n : Nat} (h : natural m = natural n) : m = n :=
  toDigits_inj (by decide) (by decide) h

@[simp] theorem count_inj {i j : UInt32} : count i = count j ↔ i = j :=
  ⟨fun h => UInt32.toNat_inj.mp (natural_inj h), fun h => by rw [h]⟩

/-- Nothing but digits is a number. -/
theorem natural_ne {n : Nat} {w : List Char} (hw : w.any (!·.isDigit) = true) : natural n ≠ w := by
  rintro rfl
  obtain ⟨c, hc, hd⟩ := List.any_eq_true.mp hw
  rw [Nat.isDigit_of_mem_toDigits (by decide) (by decide) hc] at hd
  exact absurd hd (by decide)

theorem count_ne_quote {i : UInt32} {s : String} : count i ≠ Text.quote s :=
  natural_ne rfl

@[simp] theorem optional_inj {i j : Option UInt32} : optional i = optional j ↔ i = j := by
  match i, j with
  | none, none => simp
  | none, some j => simpa [optional, count] using (natural_ne (by decide)).symm
  | some i, none => simpa [optional, count] using natural_ne (by decide)
  | some i, some j => simp [optional]

@[simp] theorem truth_inj {b b' : Bool} : truth b = truth b' ↔ b = b' := by
  revert b b'
  decide

@[simp] theorem quote_inj {s t : String} : Text.quote s = Text.quote t ↔ s = t :=
  ⟨Text.quote_injective, fun h => by rw [h]⟩

theorem bracketed_map_inj {α : Type} {f : α → List Char} (hf : ∀ x, Atom (f x))
    (inj : ∀ x y, f x = f y → x = y) {xs ys : List α}
    (h : bracketed (xs.map f) = bracketed (ys.map f)) : xs = ys := by
  have atoms (zs : List α) : ∀ w ∈ zs.map f, Atom w := List.forall_mem_map.mpr fun x _ => hf x
  exact eq_of_map_eq (fun x _ y _ => inj x y) (bracketed_inj (atoms xs) (atoms ys) h)

@[simp] theorem counts_inj {is js : List UInt32} :
    bracketed (is.map count) = bracketed (js.map count) ↔ is = js :=
  ⟨bracketed_map_inj atom_count fun _ _ => count_inj.mp, fun h => by rw [h]⟩

@[simp] theorem quotes_inj {ss ts : List String} :
    bracketed (ss.map Text.quote) = bracketed (ts.map Text.quote) ↔ ss = ts :=
  ⟨bracketed_map_inj .quotation fun _ _ => Text.quote_injective, fun h => by rw [h]⟩

end Listing

/-! ## Instructions -/

namespace Opcode

theorem atom_name (op : Opcode UInt32) : Atom op.name.toList := by
  cases op <;> simp only [name] <;> exact atom_of_all (by decide) (by decide)

/-- **The operands of an instruction are tokens.** -/
theorem token_of_mem_operands {op : Opcode UInt32} {w : List Char} (hw : w ∈ op.operands) :
    Token w := by
  revert w
  cases op using operands.fun_cases <;> simp [operands]

/-- A number is not a truth value. -/
theorem render_ne_truth (x : Binary64) (b : Bool) : x.render ≠ truth b := by
  intro h
  have hall : (truth b).all (fun c => c.isDigit || "-.infNaN".toList.contains c) = true := by
    refine List.all_eq_true.mpr fun c hc => ?_
    rcases Binary64.isDigit_or_of_mem_render (h ▸ hc) with hc | hc
    · exact Bool.or_eq_true_iff.mpr (.inl hc)
    · exact Bool.or_eq_true_iff.mpr (.inr (List.contains_iff_mem.mpr hc))
  cases b <;> exact absurd hall (by decide)

/-- **Instructions without NaN that have the same name and operands are equal.** -/
theorem eq_of_operands {a b : Opcode UInt32} (ha : ∀ x, a = .literal (.number x) → x.isNaN = false)
    (hb : ∀ x, b = .literal (.number x) → x.isNaN = false) (hn : a.name = b.name)
    (h : a.operands = b.operands) : a = b := by
  cases a, b, hn using same_kind_cases with
  | popParent => rfl
  | consumeParent _ _ | element _ _ | sexpr _ _ | string _ _ | stringLiteral _ _ | id _ _
  | blockParam _ _ _ _ | repairClonedNode _ _ _ _ | program _ _ _ _ | nodeHelper _ _ _ _
  | «attribute» _ _ _ _ _ _ _ _ | ambiguous _ _ | component _ _ _ _ =>
    simpa [operands] using h
  | literal value value' =>
    match value, value' with
    | .number x, .number y =>
      have hxy : x.render = y.render := by simpa [operands] using h
      rw [Binary64.render_injective (ha x rfl) (hb y rfl) hxy]
    | .number x, .boolean b => simp [operands, render_ne_truth] at h
    | .boolean b, .number x => simp [operands, (render_ne_truth x b).symm] at h
    | .boolean b, .boolean b' => simpa [operands] using h
  | stackLiteral value value' =>
    match value, value' with
    | .key name, .key name' => simpa [operands] using h
    | .key name, .count number' => simp [operands, count_ne_quote.symm] at h
    | .count number, .key name' => simp [operands, count_ne_quote] at h
    | .count number, .count number' => simpa [operands] using h
  | helper _ _ bound _ _ bound' =>
    match bound, bound' with
    | none, none | some _, some _ => simpa [operands] using h
    | none, some _ | some _, none => simp [operands] at h
  | morph m m' =>
    obtain ⟨id, path, start, stop, escaped⟩ := m
    obtain ⟨id', path', start', stop', escaped'⟩ := m'
    simpa [operands] using h

/-- Only an instruction with two operands has the name that stands over nested programs. -/
theorem length_operands_of_name {op : Opcode UInt32} (h : op.name = "program") :
    op.operands.length = 2 := by
  cases op with
  | program body inverse => rfl
  | _ => exact absurd h (by simp [name])

end Opcode

/-! ## Lines -/

/-- **What stands on a line**: an instruction, or the number of a nested program. -/
inductive Entry (ι : Type) where
  | instruction (op : Opcode ι)
  | heading (id : Nat)

namespace Entry

/-- The line is of an instruction. -/
def isInstruction : Entry UInt32 → Bool
  | instruction _ => true
  | heading _ => false

/-- The first word of a line. -/
def name : Entry UInt32 → List Char
  | instruction op => op.name.toList
  | heading _ => "program".toList

/-- The words behind it. -/
def operands : Entry UInt32 → List (List Char)
  | instruction op => op.operands
  | heading id => [natural id ++ [':']]

/-- The text of a line. -/
def text (e : Entry UInt32) : List Char := joined [' '] (e.name :: e.operands)

theorem text_heading (id : Nat) :
    (heading id).text = "program ".toList ++ natural id ++ [':'] := by
  change joined [' '] ["program".toList, natural id ++ [':']] = _
  simp [joined_cons]

theorem atom_name (e : Entry UInt32) : Atom e.name := by
  cases e with
  | instruction op => exact op.atom_name
  | heading id => exact atom_of_all (w := "program".toList) (by decide) (by decide)

theorem token_of_mem_words (e : Entry UInt32) : ∀ w ∈ e.name :: e.operands, Token w := by
  refine List.forall_mem_cons.mpr ⟨.atom e.atom_name, ?_⟩
  cases e with
  | instruction op => exact fun _ => Opcode.token_of_mem_operands
  | heading id =>
    refine List.forall_mem_singleton.mpr (.atom (.plain (fun c hc => ?_) (by simp)))
    rcases List.mem_append.mp hc with hc | hc
    · exact isPlain_of_isDigit (Nat.isDigit_of_mem_toDigits (by decide) (by decide) hc)
    · rw [List.mem_singleton.mp hc]
      decide

/-- An instruction is not taken for the line over a nested program. -/
theorem instruction_ne_heading {op : Opcode UInt32} {id : Nat}
    (hn : (instruction op).name = (heading id).name)
    (ho : (instruction op).operands = (heading id).operands) : False := by
  have hl : op.operands.length = 2 := Opcode.length_operands_of_name (String.toList_inj.mp hn)
  have ho : op.operands = [natural id ++ [':']] := ho
  rw [ho] at hl
  exact absurd hl (by simp)

/-- **An entry is known by its line**, unless it has a NaN. -/
theorem eq_of_text {e e' : Entry UInt32}
    (he : ∀ x, e = instruction (.literal (.number x)) → x.isNaN = false)
    (he' : ∀ x, e' = instruction (.literal (.number x)) → x.isNaN = false)
    (h : e.text = e'.text) : e = e' := by
  obtain ⟨hn, ho⟩ := List.cons.inj (joined_inj e.token_of_mem_words e'.token_of_mem_words h)
  match e, e' with
  | instruction a, instruction b =>
    exact congrArg instruction (Opcode.eq_of_operands (fun x hx => he x (hx ▸ rfl))
      (fun x hx => he' x (hx ▸ rfl)) (String.toList_inj.mp hn) ho)
  | instruction a, heading id => exact (instruction_ne_heading hn ho).elim
  | heading id, instruction a => exact (instruction_ne_heading hn.symm ho.symm).elim
  | heading id, heading id' =>
    have hid := List.append_cancel_right (List.singleton_inj.mp ho)
    exact congrArg heading (natural_inj hid)

/-- A line starts with a blank only where it is indented. -/
theorem ceases_text (e : Entry UInt32) : Ceases (· == ' ') e.text := by
  obtain ⟨c, cs, hn, hc⟩ := e.atom_name.exists_cons
  rw [text, joined_cons, hn, List.cons_append, ceases_cons]
  rcases hc with hc | rfl
  · exact beq_eq_false_iff_ne.mpr fun h => absurd (h ▸ hc) (by decide)
  · decide

theorem feed_not_mem_text (e : Entry UInt32) : '\n' ∉ e.text :=
  feed_not_mem_joined (by decide) fun w hw => (e.token_of_mem_words w hw).feed_not_mem

end Entry

/-- **A line of a listing**: an entry, so many levels in. -/
def Listing.line (e : Nat × Entry UInt32) : List Char := indent e.1 ++ e.2.text

/-- **Depth and entry are known by the line.** -/
theorem Listing.line_inj {e e' : Nat × Entry UInt32} (h : line e = line e') :
    e.1 = e'.1 ∧ e.2.text = e'.2.text := by
  have blanks (depth : Nat) : ∀ c ∈ indent depth, (c == ' ') = true := fun c hc =>
    beq_iff_eq.mpr (List.eq_of_mem_replicate hc)
  obtain ⟨hd, ht⟩ := append_inj_of_ceases (blanks e.1) (blanks e'.1) e.2.ceases_text
    e'.2.ceases_text h
  have hl := congrArg List.length hd
  rw [indent, indent, List.length_replicate, List.length_replicate] at hl
  exact ⟨by omega, ht⟩

theorem Listing.feed_not_mem_line (e : Nat × Entry UInt32) : '\n' ∉ line e := by
  rw [line, List.mem_append]
  rintro (h | h)
  · exact absurd (List.eq_of_mem_replicate h) (by decide)
  · exact e.2.feed_not_mem_text h

/-- **Lines are known by the text that they make up.** -/
theorem Listing.lines_inj {ls ls' : List (List Char)} (hl : ∀ l ∈ ls, '\n' ∉ l)
    (hl' : ∀ l ∈ ls', '\n' ∉ l) (h : ls.flatMap (· ++ ['\n']) = ls'.flatMap (· ++ ['\n'])) :
    ls = ls' := by
  have within {l : List Char} (hl : '\n' ∉ l) : ∀ c ∈ l, (c != '\n') = true := fun c hc =>
    bne_iff_ne.mpr fun h => hl (h ▸ hc)
  induction ls generalizing ls' with
  | nil =>
    cases ls' with
    | nil => rfl
    | cons l' ls' => exact absurd h (by simp)
  | cons l ls ih =>
    cases ls' with
    | nil => exact absurd h (by simp)
    | cons l' ls' =>
      simp only [List.flatMap_cons, List.append_assoc, List.cons_append, List.nil_append] at h
      obtain ⟨hll, h⟩ := append_inj_of_ceases (within (hl l List.mem_cons_self))
        (within (hl' l' List.mem_cons_self)) (by simp) (by simp) h
      rw [hll, ih (fun m hm => hl m (List.mem_cons_of_mem l hm))
        (fun m hm => hl' m (List.mem_cons_of_mem l' hm)) (List.cons.inj h).2]

/-! ## Programs -/

namespace Program

mutual

/-- **The entries of a program with their depths**, in the order of its listing. -/
def entries (depth : Nat) : Program UInt32 → List (Nat × Entry UInt32)
  | ⟨ops, children⟩ => ops.map (fun op => (depth, .instruction op)) ++ childEntries depth 0 children

/-- The entries of nested programs, numbered from `id` on. -/
def childEntries (depth id : Nat) : List (Program UInt32) → List (Nat × Entry UInt32)
  | [] => []
  | child :: children =>
    (depth, .heading id) :: (child.entries (depth + 1) ++ childEntries depth (id + 1) children)

end

mutual

/-- **A listing is the entries of the program, line by line.** -/
theorem lines_eq_map (depth : Nat) : ∀ p : Program UInt32,
    p.lines depth = (p.entries depth).map line
  | ⟨ops, children⟩ => by
    rw [lines, entries, childLines_eq_map, List.map_append, List.map_map]
    rfl

theorem childLines_eq_map (depth id : Nat) : ∀ children : List (Program UInt32),
    childLines depth id children = (childEntries depth id children).map line
  | [] => by rw [childLines, childEntries, List.map_nil]
  | child :: children => by
    rw [childLines, childEntries, lines_eq_map, childLines_eq_map, List.map_cons, List.map_append,
      line, Entry.text_heading]

end

section Tree

variable {depth id : Nat} {r r' : List (Nat × Entry UInt32)}

/-- Nested programs start with a line of their own level, which ends what is nested deeper. -/
theorem ceases_childEntries (cs : List (Program UInt32)) (hr : Ceases (depth ≤ ·.1) r) :
    Ceases (depth + 1 ≤ ·.1) (childEntries depth id cs ++ r) := by
  cases cs with
  | nil =>
    rw [childEntries, List.nil_append]
    exact fun e he => decide_eq_false fun h => of_decide_eq_false (hr e he) (Nat.le_of_succ_le h)
  | cons c cs =>
    rw [childEntries, List.cons_append, ceases_cons]
    simp

/-- Nested programs are known by their entries if each of them is. -/
theorem childEntries_append_inj {cs cs' : List (Program UInt32)}
    (hc : ∀ c ∈ cs, ∀ (c' : Program UInt32) (s s' : List (Nat × Entry UInt32)),
      Ceases (depth + 1 ≤ ·.1) s → Ceases (depth + 1 ≤ ·.1) s' →
      c.entries (depth + 1) ++ s = c'.entries (depth + 1) ++ s' → c = c' ∧ s = s')
    (hr : Ceases (depth ≤ ·.1) r) (hr' : Ceases (depth ≤ ·.1) r')
    (h : childEntries depth id cs ++ r = childEntries depth id cs' ++ r') : cs = cs' ∧ r = r' := by
  -- A heading at this depth is not where the nested programs end.
  have heading {k : Nat} {s s' : List (Nat × Entry UInt32)} (hs : Ceases (depth ≤ ·.1) s) :
      s ≠ (depth, .heading k) :: s' := by
    rintro rfl
    exact absurd (ceases_cons.mp hs) (by simp)
  induction cs generalizing cs' id with
  | nil =>
    cases cs' with
    | nil => exact ⟨rfl, h⟩
    | cons c' cs' =>
      rw [childEntries, childEntries] at h
      exact absurd h (heading hr)
  | cons c cs ih =>
    cases cs' with
    | nil =>
      rw [childEntries, childEntries] at h
      exact absurd h.symm (heading hr')
    | cons c' cs' =>
      rw [childEntries, childEntries, List.cons_append, List.cons_append, List.append_assoc,
        List.append_assoc] at h
      obtain ⟨hcc, h⟩ := hc c List.mem_cons_self c' _ _ (ceases_childEntries cs hr)
        (ceases_childEntries cs' hr') (List.cons.inj h).2
      obtain ⟨hcs, hrr⟩ := ih (fun d hd => hc d (List.mem_cons_of_mem c hd)) h
      exact ⟨congrArg₂ List.cons hcc hcs, hrr⟩

/-- Instructions of a level end where its nested programs start. -/
theorem ceases_instructions (cs : List (Program UInt32)) (hr : Ceases (depth ≤ ·.1) r) :
    Ceases (fun e => decide (depth ≤ e.1) && e.2.isInstruction)
      (childEntries depth id cs ++ r) := by
  cases cs with
  | nil =>
    rw [childEntries, List.nil_append]
    exact fun e he => Bool.and_eq_false_iff.mpr (.inl (hr e he))
  | cons c cs =>
    rw [childEntries, List.cons_append, ceases_cons]
    exact Bool.and_false _

/-- **A program is known by its entries**, up to where the depth is less. -/
theorem entries_append_inj {p q : Program UInt32} (hr : Ceases (depth ≤ ·.1) r)
    (hr' : Ceases (depth ≤ ·.1) r') (h : p.entries depth ++ r = q.entries depth ++ r') :
    p = q ∧ r = r' := by
  induction p using nested_induction generalizing q depth r r' with
  | step p ih =>
    obtain ⟨ops, cs⟩ := p
    obtain ⟨ops', cs'⟩ := q
    rw [entries, entries, List.append_assoc, List.append_assoc] at h
    have own (ops : List (Opcode UInt32)) :
        ∀ e ∈ ops.map (fun op => (depth, Entry.instruction op)),
          (decide (depth ≤ e.1) && e.2.isInstruction) = true :=
      List.forall_mem_map.mpr fun op _ => by simp [Entry.isInstruction]
    obtain ⟨ho, h⟩ := append_inj_of_ceases (own ops) (own ops') (ceases_instructions cs hr)
      (ceases_instructions cs' hr') h
    have ho : ops = ops' := eq_of_map_eq (fun op _ op' _ hop => by simpa using hop) ho
    obtain ⟨hc, hrr⟩ := childEntries_append_inj (fun c hc _ _ _ => ih c hc) hr hr' h
    exact ⟨congrArg₂ Program.mk ho hc, hrr⟩

end Tree

/-- The instructions of nested programs are further in. -/
theorem exists_of_mem_childEntries {depth id k : Nat} {op : Opcode UInt32}
    {cs : List (Program UInt32)} (h : (k, .instruction op) ∈ childEntries depth id cs) :
    ∃ c ∈ cs, (k, .instruction op) ∈ c.entries (depth + 1) := by
  induction cs generalizing id with
  | nil =>
    rw [childEntries] at h
    exact absurd h List.not_mem_nil
  | cons c cs ih =>
    rw [childEntries, List.mem_cons, List.mem_append] at h
    rcases h with h | h | h
    · exact absurd h (by simp)
    · exact ⟨c, List.mem_cons_self, h⟩
    · obtain ⟨d, hd, h⟩ := ih h
      exact ⟨d, List.mem_cons_of_mem c hd, h⟩

/-- The numbers of a program are those in its entries. -/
theorem mem_numbers_of_mem_entries {p : Program UInt32} {depth k : Nat} {x : Binary64}
    (h : (k, .instruction (.literal (.number x))) ∈ p.entries depth) : x ∈ p.numbers := by
  induction p using nested_induction generalizing depth with
  | step p ih =>
    obtain ⟨ops, cs⟩ := p
    rw [entries, List.mem_append, List.mem_map] at h
    rcases h with ⟨op, hop, h⟩ | h
    · obtain ⟨rfl, rfl⟩ : depth = k ∧ op = .literal (.number x) := by simpa using h
      exact mem_numbers_of_literal hop
    · obtain ⟨c, hc, h⟩ := exists_of_mem_childEntries h
      exact mem_numbers_of_child hc (ih c hc h)

end Program

/-- **A program is known by its listing.** Two programs without a NaN, nested ones included, are
equal if they are listed in the same way. -/
theorem program_of_listing {p q : Program UInt32} (hp : ∀ x ∈ p.numbers, x.isNaN = false)
    (hq : ∀ x ∈ q.numbers, x.isNaN = false) (h : p.listing = q.listing) : p = q := by
  rw [Program.listing, Program.listing, Program.lines_eq_map, Program.lines_eq_map] at h
  have feeds (es : List (Nat × Entry UInt32)) : ∀ l ∈ es.map line, '\n' ∉ l :=
    List.forall_mem_map.mpr fun e _ => feed_not_mem_line e
  have hlines := lines_inj (feeds _) (feeds _) h
  have hentries : p.entries 0 = q.entries 0 := by
    refine eq_of_map_eq ?_ hlines
    rintro ⟨k, e⟩ he ⟨k', e'⟩ he' hl
    obtain ⟨hd, ht⟩ := line_inj hl
    refine Prod.ext hd (Entry.eq_of_text (fun x hx => hp x ?_) (fun x hx => hq x ?_) ht)
    · obtain rfl : e = _ := hx
      exact Program.mem_numbers_of_mem_entries he
    · obtain rfl : e' = _ := hx
      exact Program.mem_numbers_of_mem_entries he'
  exact (Program.entries_append_inj ceases_nil ceases_nil (congrArg (· ++ []) hentries)).1

theorem program_of_listing_ration :
    (∀ x ∈ Program.ration.numbers, x.isNaN = false) ∧
      Program.ration = Template.ration.root.output {} := by
  have hn : ∀ x ∈ Program.ration.numbers, x.isNaN = false := by decide +kernel
  have hn' : ∀ x ∈ (Template.ration.root.output {} : Program UInt32).numbers, x.isNaN = false := by
    decide +kernel
  have hl : Program.ration.listing = (Template.ration.root.output {} : Program UInt32).listing := by
    decide +kernel
  exact ⟨hn, program_of_listing hn hn' hl⟩

end Hydration
