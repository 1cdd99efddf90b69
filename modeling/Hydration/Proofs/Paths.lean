import Hydration.Proofs.Nesting

/-!
# Proofs/Paths — dotted paths are written and read

A dotted text and the list of its segments say the same: splitting at the periods and joining with
periods undo each other, as far as segments without periods go. A segment is empty exactly where a
period has nothing on one side of it, and those are the paths that the compiler refuses.

* `paths_agree`: every text is the path it is split into; a list of segments is read back exactly
  when it is not empty and none of them has a period; and looking a text up is refused exactly when
  the text is empty, has a period at either end, or two in a row.
-/

namespace Hydration

namespace Template

/-! ## Splitting and joining -/

theorem splitDots_eq_splitOn (cs : List Char) : splitDots cs = cs.splitOn '.' := by
  induction cs with
  | nil => rfl
  | cons c cs ih =>
    rw [splitDots, ih, List.splitOn_cons_eq_if_modifyHead]
    cases h : cs.splitOn '.' with
    | nil => exact absurd h (List.splitOn_ne_nil '.' cs)
    | cons piece pieces => simp

theorem joinDots_eq_intercalate (pieces : List (List Char)) :
    joinDots pieces = ['.'].intercalate pieces := by
  induction pieces with
  | nil => rfl
  | cons piece pieces ih =>
    cases pieces with
    | nil => simp [joinDots]
    | cons next pieces =>
      rw [joinDots, ih, List.intercalate_cons_cons, List.append_assoc, List.singleton_append]

theorem splitDots_ne_nil (cs : List Char) : splitDots cs ≠ [] := by
  rw [splitDots_eq_splitOn]
  exact List.splitOn_ne_nil '.' cs

/-- A period in front adds an empty piece. -/
theorem splitDots_period (cs : List Char) : splitDots ('.' :: cs) = [] :: splitDots cs := by
  rw [splitDots_eq_splitOn, splitDots_eq_splitOn]
  exact List.splitOn_append_cons_self_of_not_mem List.not_mem_nil cs

/-- Any other character is put in front of the first piece. -/
theorem splitDots_cons {c : Char} (hc : c ≠ '.') {cs piece : List Char}
    {pieces : List (List Char)} (h : splitDots cs = piece :: pieces) :
    splitDots (c :: cs) = (c :: piece) :: pieces := by
  simp only [splitDots, h, if_neg hc]

/-- Pieces have no periods. -/
theorem not_mem_of_mem_splitDots {cs piece : List Char} (h : piece ∈ splitDots cs) :
    '.' ∉ piece := by
  induction cs generalizing piece with
  | nil =>
    rw [splitDots, List.mem_singleton] at h
    rw [h]
    exact List.not_mem_nil
  | cons c cs ih =>
    by_cases hc : c = '.'
    · rw [hc, splitDots_period, List.mem_cons] at h
      rcases h with rfl | h
      · exact List.not_mem_nil
      · exact ih h
    · obtain ⟨first, pieces, hs⟩ := List.exists_cons_of_ne_nil (splitDots_ne_nil cs)
      rw [hs] at ih
      rw [splitDots_cons hc hs, List.mem_cons] at h
      rcases h with rfl | h
      · rw [List.mem_cons, not_or]
        exact ⟨Ne.symm hc, ih List.mem_cons_self⟩
      · exact ih (List.mem_cons_of_mem first h)

namespace Path

/-- **Every text is the path it is split into.** -/
theorem dotted_ofString (s : String) : (ofString s).dotted = s := by
  have hl : (splitDots s.toList).map (String.toList ∘ String.ofList) = splitDots s.toList := by
    simp [Function.comp_def]
  rw [dotted, ofString, List.map_map, hl, joinDots_eq_intercalate, splitDots_eq_splitOn,
    List.intercalate_splitOn, String.ofList_toList]

/-- **Segments are read back** exactly when there are some and none of them has a period. -/
theorem segments_ofString_dotted_iff (p : Path) :
    (ofString p.dotted).segments = p.segments ↔
      p.segments ≠ [] ∧ ∀ s ∈ p.segments, '.' ∉ s.toList := by
  constructor
  · intro h
    rw [← h, ofString]
    refine ⟨fun hn => splitDots_ne_nil _ (List.map_eq_nil_iff.mp hn), fun s hs => ?_⟩
    obtain ⟨piece, hp, rfl⟩ := List.mem_map.mp hs
    rw [String.toList_ofList]
    exact not_mem_of_mem_splitDots hp
  · rintro ⟨hn, hd⟩
    have hs : splitDots p.dotted.toList = p.segments.map String.toList := by
      rw [dotted, String.toList_ofList, splitDots_eq_splitOn, joinDots_eq_intercalate]
      refine List.splitOn_intercalate '.' (fun piece hp => ?_) (by simpa using hn)
      obtain ⟨s, hs, rfl⟩ := List.mem_map.mp hp
      exact hd s hs
    rw [ofString, hs, List.map_map]
    simp [Function.comp_def]

end Path

/-! ## Empty segments -/

/-- The first piece is empty where there is nothing before the first period. -/
theorem head?_splitDots_eq_nil_iff {cs : List Char} :
    (splitDots cs).head? = some [] ↔ cs = [] ∨ ['.'] <+: cs := by
  cases cs with
  | nil => simp [splitDots]
  | cons c cs =>
    by_cases hc : c = '.'
    · rw [hc, splitDots_period]
      simp
    · obtain ⟨piece, pieces, hs⟩ := List.exists_cons_of_ne_nil (splitDots_ne_nil cs)
      rw [splitDots_cons hc hs]
      simp [Ne.symm hc]

/-- **A piece is empty** where it is the first of them, or a later one. -/
theorem nil_mem_splitDots_iff_or {cs : List Char} :
    [] ∈ splitDots cs ↔ (cs = [] ∨ ['.'] <+: cs) ∨ [] ∈ (splitDots cs).tail := by
  rw [← head?_splitDots_eq_nil_iff]
  obtain ⟨piece, pieces, hs⟩ := List.exists_cons_of_ne_nil (splitDots_ne_nil cs)
  rw [hs, List.mem_cons, List.head?_cons, Option.some.injEq, List.tail_cons, eq_comm]

/-- A later piece is empty where a period is followed by another one or by nothing. -/
theorem nil_mem_tail_splitDots_iff {cs : List Char} :
    [] ∈ (splitDots cs).tail ↔ ['.'] <:+ cs ∨ ['.', '.'] <:+: cs := by
  induction cs with
  | nil => simp [splitDots]
  | cons c cs ih =>
    rw [List.suffix_cons_iff, List.infix_cons_iff]
    by_cases hc : c = '.'
    · rw [hc, splitDots_period, List.tail_cons, nil_mem_splitDots_iff_or, ih]
      simp only [List.cons.injEq, true_and, List.cons_prefix_cons, List.nil_eq]
      tauto
    · obtain ⟨piece, pieces, hs⟩ := List.exists_cons_of_ne_nil (splitDots_ne_nil cs)
      rw [hs] at ih
      rw [splitDots_cons hc hs]
      simp only [List.tail_cons] at ih ⊢
      rw [ih]
      simp [Ne.symm hc]

/-- **A path is broken exactly where a period has nothing on one side**: the text is empty, has a
period at either end, or two in a row. -/
theorem Path.isBroken_ofString_iff (s : String) :
    (Path.ofString s).isBroken ↔
      s = "" ∨ ['.'] <+: s.toList ∨ ['.'] <:+ s.toList ∨ ['.', '.'] <:+: s.toList := by
  have hb : (Path.ofString s).isBroken ↔ [] ∈ splitDots s.toList := by
    simp [isBroken, ofString, String.ofList_eq_empty_iff]
  rw [hb, nil_mem_splitDots_iff_or, nil_mem_tail_splitDots_iff, String.toList_eq_nil_iff, or_assoc]

end Template

open Template

/-! ## Looking a path up -/

/-- **A template that looks one path up**, and nothing else. -/
def Template.lookup (source : Option String) (path : String) : Template where
  source
  root := { body := [.mustache { call := Call.ofString path }] }

/-- Nothing can be wrong with a lookup but its path. -/
theorem violations_lookup (source : Option String) (s : String) :
    (Template.lookup source s).root.violations = (Path.ofString s).violations := by
  rw [Fragment.violations_eq, Template.lookup, violationsIn_cons, violationsIn_nil]
  change (Call.ofString s).violations ++ _ = _
  rw [Call.violations_of_not_isHelper rfl]
  simp [Call.ofString, Statement.children, violationsIn_nil]

/-- **A lookup is refused exactly when its path is broken.** -/
theorem lookup_refused_iff (source : Option String) (s : String) (o : Options) :
    (∃ d, (Template.lookup source s).program o = .error d) ↔ (Path.ofString s).isBroken := by
  have hv := violations_lookup source s
  rw [Path.violations_eq, Path.violation?] at hv
  cases hb : (Path.ofString s).isBroken with
  | true =>
    rw [if_pos hb] at hv
    simp [program_of_violation o (congrArg List.head? hv)]
  | false =>
    rw [if_neg (by simp [hb])] at hv
    simp [program_of_valid o hv]

/-- A lookup creates a morph, and fills it with what has its name. -/
theorem stream_lookup (source : Option String) (s : String) (o : Options) :
    ∃ m, ((Template.lookup source s).root.stream o : List (Opcode UInt32)) =
      .morph m :: ((Path.ofString s).nameCode.opcodes ++ [.ambiguous (Counter.ofNat 0)]) := by
  let ν : Node := ⟨[], 0, 1, .mustache { call := Call.ofString s }⟩
  have hp : ν.statement.phrase? 0 =
      some (Mustache.phrase { call := Call.ofString s } : Phrase UInt32) := rfl
  have hh : ((Template.lookup source s).root.header o : List (Opcode UInt32)) = [] := by
    simp [Template.lookup, Fragment.header, blanks, Statement.isBlank, Assembler.repair]
  refine ⟨ν.morph 0, ?_⟩
  rw [Fragment.stream, hh, Fragment.visits, Template.lookup, visits_cons, stream_cons,
    Node.opening_of_phrase o hp]
  simp only [Statement.children, visits_nil, stream, Node.closing, Statement.isElement,
    Bool.false_and, Bool.false_eq_true, if_false, List.append_nil, List.nil_append]
  rfl

/-- **A lookup that compiles pushes its text as a name.** -/
theorem string_mem_lookup {source : Option String} {s : String} {o : Options} {p : Program UInt32}
    (h : (Template.lookup source s).program o = .ok p) : .string s ∈ p.opcodes := by
  have hb : (Path.ofString s).isBroken = false := by
    rw [Bool.eq_false_iff]
    intro hb
    obtain ⟨d, hd⟩ := (lookup_refused_iff source s o).mpr hb
    exact absurd (h.symm.trans hd) (by simp)
  have hv : (Template.lookup source s).root.violations = [] := by
    rw [violations_lookup, Path.violations_eq, Path.violation?, if_neg (by simp [hb])]
    rfl
  have hn : ((Path.ofString s).nameCode : Code UInt32).opcodes = [.string s] := by
    rw [Path.nameCode, Path.violation?, if_neg (by simp [hb]), Path.dotted_ofString]
    rfl
  obtain ⟨m, hs⟩ := stream_lookup source s o
  rw [← Except.ok.inj ((program_of_valid o hv).symm.trans h), output_eq o hv]
  refine (hoistBy_perm _).mem_iff.mpr ?_
  rw [hs, hn]
  simp

/-- **Paths and their texts agree.** Every text is the path it is split into. Segments are read back
from their text exactly when there are some and none of them has a period. Looking a text up is
refused exactly when the text is empty, has a period at either end or two in a row, and otherwise
pushes the text as a name. -/
theorem paths_agree :
    (∀ s, (Path.ofString s).dotted = s) ∧
      (∀ p : Path, (Path.ofString p.dotted).segments = p.segments ↔
        p.segments ≠ [] ∧ ∀ s ∈ p.segments, '.' ∉ s.toList) ∧
      ∀ (source : Option String) (s : String) (o : Options),
        ((∃ d, (Template.lookup source s).program o = .error d) ↔
          s = "" ∨ ['.'] <+: s.toList ∨ ['.'] <:+ s.toList ∨ ['.', '.'] <:+: s.toList) ∧
        ∀ p, (Template.lookup source s).program o = .ok p → .string s ∈ p.opcodes := by
  refine ⟨Path.dotted_ofString, Path.segments_ofString_dotted_iff, fun source s o => ⟨?_, ?_⟩⟩
  · rw [lookup_refused_iff, Path.isBroken_ofString_iff]
  · intro p hp
    exact string_mem_lookup hp

end Hydration
