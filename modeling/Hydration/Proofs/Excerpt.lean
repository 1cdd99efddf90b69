import Hydration.Proofs.Nesting
import Mathlib.Data.List.DropRight

/-!
# Proofs/Excerpt — what an error shows

An excerpt is made from a source cut into lines: a byte offset is looked up among them, the line is
fetched by its number, and the text before the offset is cut off once more, from that line. Said
about the source itself, the number counts the line feeds before the offset, and the line reaches
from the last of them to the next. Each look-up and each cut could fail, and none does.

* `display_excerpt`: errors are shown the same to users and to developers, as such an excerpt if the
  span lies in the source, and else in one line.
-/

namespace Hydration

namespace Text

/-! ## Lines -/

/-- What stands before the first line feed. -/
def firstLine (cs : List Char) : List Char := cs.takeWhile (· ≠ '\n')

/-- What stands behind the last line feed. -/
def lastLine (cs : List Char) : List Char := cs.rtakeWhile (· ≠ '\n')

theorem firstLine_append {front : List Char} (h : '\n' ∉ front) (cs : List Char) :
    firstLine (front ++ cs) = front ++ firstLine cs := by
  refine List.takeWhile_append_of_pos fun c hc => ?_
  simpa using ne_of_mem_of_not_mem hc h

theorem lastLine_of_not_mem {cs : List Char} (h : '\n' ∉ cs) : lastLine cs = cs := by
  refine List.rtakeWhile_eq_self_iff.mpr fun c hc => ?_
  simpa using ne_of_mem_of_not_mem hc h

/-- Only what stands behind a line feed counts. -/
theorem lastLine_append_cons (front cs : List Char) :
    lastLine (front ++ '\n' :: cs) = lastLine cs := by
  induction cs using List.reverseRecOn with
  | nil => exact List.rtakeWhile_concat_neg _ _ _ (by simp)
  | append_singleton cs c ih =>
    rw [lastLine, lastLine] at ih
    rw [← List.cons_append, ← List.append_assoc, lastLine, lastLine, List.rtakeWhile_concat,
      List.rtakeWhile_concat, ih]

/-- **A line feed ends a line.** -/
theorem lines_append_cons {line : List Char} (h : '\n' ∉ line) (cs : List Char) :
    lines (line ++ '\n' :: cs) = line :: lines cs := by
  induction line with
  | nil => rw [List.nil_append, lines, if_pos rfl]
  | cons c line ih =>
    obtain ⟨hc, hl⟩ := List.ne_and_not_mem_of_not_mem_cons h
    rw [List.cons_append, lines, if_neg hc.symm, ih hl]

/-- **A text starts with its first line**, if it has any. -/
theorem exists_lines {cs : List Char} (h : cs ≠ []) : ∃ rest, lines cs = firstLine cs :: rest := by
  induction cs with
  | nil => exact absurd rfl h
  | cons c cs ih =>
    by_cases hc : c = '\n'
    · exact ⟨lines cs, by rw [lines, if_pos hc, firstLine, List.takeWhile_cons_of_neg (by simpa)]⟩
    · rw [lines, if_neg hc, firstLine, List.takeWhile_cons_of_pos (by simpa)]
      cases cs with
      | nil => exact ⟨[], rfl⟩
      | cons d cs =>
        obtain ⟨rest, hr⟩ := ih (List.cons_ne_nil d cs)
        exact ⟨rest, by rw [hr]; rfl⟩

/-- **The place behind `before`**, in a text that goes on: its line is found by the number of line
feeds before it, and its column by what stands behind the last of them. -/
theorem locate_append (ruler : Ruler) (before : List Char) {rest : List Char} (h : rest ≠ []) :
    locate ruler (lines (before ++ rest)) (byteLength before) =
        some (before.count '\n', ruler.width (lastLine before)) ∧
      (lines (before ++ rest))[before.count '\n']? = some (lastLine before ++ firstLine rest) := by
  suffices hs : ∀ all number,
      locate.go ruler all number (byteLength before) (lines (before ++ rest)) =
          some (number + before.count '\n', ruler.width (lastLine before)) ∧
        (lines (before ++ rest))[before.count '\n']? =
          some (lastLine before ++ firstLine rest) by
    simpa [locate] using hs (lines (before ++ rest)) 0
  intro all
  -- Lines that end before the place are passed by, one line feed at a time.
  induction before using anchor_induction (· == '\n') with
  | free before hb =>
    intro number
    have hb : '\n' ∉ before := fun hm => by simpa using hb _ hm
    obtain ⟨more, hl⟩ := exists_lines (List.append_ne_nil_of_right_ne_nil before h)
    rw [firstLine_append hb] at hl
    have hlt : byteLength before < byteLength (before ++ firstLine rest) + 1 := by
      rw [byteLength_append]
      omega
    rw [hl, List.count_eq_zero_of_not_mem hb, lastLine_of_not_mem hb, locate.go]
    simp only [if_pos hlt, cut?_append]
    exact ⟨rfl, rfl⟩
  | cut line c before hb hc ih =>
    intro number
    have hb : '\n' ∉ line := fun hm => by simpa using hb _ hm
    obtain rfl : c = '\n' := by simpa using hc
    obtain ⟨hat, hline⟩ := ih (number + 1)
    have hn : (line ++ '\n' :: before).count '\n' = before.count '\n' + 1 := by
      rw [List.count_append, List.count_eq_zero_of_not_mem hb, List.count_cons_self, Nat.zero_add]
    have hlen : byteLength (line ++ '\n' :: before) = byteLength line + 1 + byteLength before := by
      rw [byteLength_append, byteLength_cons, Nat.add_assoc]
      rfl
    rw [List.append_assoc, List.cons_append, lines_append_cons hb, hn, lastLine_append_cons,
      List.getElem?_cons_succ, hlen, locate.go]
    refine ⟨?_, hline⟩
    rw [if_neg (by omega), Nat.add_sub_cancel_left, hat, Nat.add_right_comm, Nat.add_assoc]

/-! ## Spans in a text -/

/-- **An offset between characters of a text**, or at an end of it. -/
def OnBoundary (k : Nat) (text : List Char) : Prop :=
  ∃ before behind, before ++ behind = text ∧ byteLength before = k

end Text

/-- **A span that covers some of a text.** -/
structure Span.LiesIn (s : Span) (text : List Char) : Prop where
  lt : s.start < s.stop
  le : s.stop ≤ Text.byteLength text
  start : Text.OnBoundary s.start text
  stop : Text.OnBoundary s.stop text

theorem Span.isWithin_iff {s : Span} (hne : s.start ≠ s.stop) {text : List Char} :
    s.isWithin text ↔ s.LiesIn text := by
  simp only [isWithin, Bool.and_eq_true, decide_eq_true_eq, Text.isBoundary_iff]
  constructor
  · rintro ⟨⟨⟨⟨-, hle⟩, hstop⟩, hm⟩, hn⟩
    exact ⟨lt_of_le_of_ne hle hne, hstop, hm, hn⟩
  · intro h
    refine ⟨⟨⟨⟨?_, h.lt.le⟩, h.le⟩, h.start⟩, h.stop⟩
    -- There are bytes before the end of the span.
    cases text with
    | nil => exact absurd h.lt (not_lt_of_ge (h.le.trans (Nat.zero_le _)))
    | cons c text => rfl

/-- **A span that lies in a text cuts it into three.** -/
theorem Span.LiesIn.exists_cut {s : Span} {text : List Char} (h : s.LiesIn text) :
    ∃ before covered behind, text = before ++ (covered ++ behind) ∧ covered ≠ [] ∧
      Text.byteLength before = s.start ∧ Text.byteLength (before ++ covered) = s.stop := by
  obtain ⟨before, rest, hm, hstart⟩ := h.start
  obtain ⟨upTo, behind, hn, hstop⟩ := h.stop
  have hlt : Text.byteLength before < Text.byteLength upTo := by
    rw [hstart, hstop]
    exact h.lt
  -- Both are what the text begins with, so that one goes on with the other.
  obtain ⟨covered, rfl, -⟩ | ⟨covered, rfl, -⟩ := List.append_eq_append_iff.mp (hm.trans hn.symm)
  · refine ⟨before, covered, behind, ?_, ?_, hstart, hstop⟩
    · rw [← hn, List.append_assoc]
    · rintro rfl
      simp at hlt
  · rw [Text.byteLength_append] at hlt
    omega

namespace Diagnostic

/-! ## Errors -/

/-- **The layout of an excerpt**: a margin, the line with its number, and so many carets under it
from a column on, with the message. -/
def layout (number : Nat) (line : List Char) (column carets : Nat) (message : String) : List Char :=
  let digits := Nat.toDigits 10 number
  "\n ".toList ++ spaces digits.length ++ " |\n ".toList ++
    digits ++ " | ".toList ++ line ++ "\n ".toList ++
    spaces digits.length ++ " | ".toList ++ spaces column ++ List.replicate carets '^' ++
    " ".toList ++ message.toList ++ "\n".toList

variable {d : Diagnostic} {span : Span} {ruler : Text.Ruler}

/-- **What is shown is the source, if the span lies in it.** -/
theorem shown?_eq_some_iff (hd : d.range? = some span) (hne : span.start ≠ span.stop)
    {shown : List Char × Span} :
    d.shown? = some shown ↔
      ∃ source, d.source? = some source ∧ span.LiesIn source.toList ∧
        shown = (source.toList, span) := by
  cases hs : d.source? with
  | none => simp [shown?, hs]
  | some source =>
    have hs' : d.shown? = some shown ↔
        span.isWithin source.toList ∧ (source.toList, span) = shown := by
      rw [shown?, hs, hd]
      by_cases hw : span.isWithin source.toList <;> simp [hw]
    rw [hs', Span.isWithin_iff hne]
    simp [eq_comm]

/-- **The excerpt of a place that is found.** -/
theorem excerpt?_eq_layout (message : String) {source covered line : List Char}
    {number column : Nat}
    (hat : Text.locate ruler (Text.lines source) span.start = some (number, column))
    (hline : (Text.lines source)[number]? = some line) (hs : span.slice? source = some covered) :
    excerpt? ruler message source span =
      some (layout (number + 1) line column (max 1 (ruler.width covered)) message) := by
  simp only [excerpt?, hat, hs, hline, ruler.width_number, Option.bind_eq_bind, Option.bind_some]
  refine congrArg some ?_
  unfold layout
  -- Apart from how they are put together, the two are the same characters.
  generalize max 1 (ruler.width covered) = carets
  generalize Nat.toDigits 10 (number + 1) = digits
  simp only [List.append_assoc, List.cons_append]
  rfl

theorem debug_eq_display (d : Diagnostic) (ruler : Text.Ruler) :
    d.debug ruler = d.display true ruler := by
  rw [debug, display, display]
  cases d.shown? <;> rfl

end Diagnostic

/-- A path with an empty segment on the second line of the source, behind a character of three
bytes and two columns. -/
def Template.slip : Template where
  root := { body := [.mustache {
    call := { callee := { segments := ["a", "", "b"], span := ⟨16, 20⟩ } }, span := ⟨14, 22⟩ }] }
  source := some "<p>é\n  <b>字{{a..b}}</b>\n</p>"

/-- The error of that template. -/
def Diagnostic.slip : Diagnostic where
  message := "invalid PathExpression: empty segment in `a..b`"
  range? := some ⟨16, 20⟩
  source? := some "<p>é\n  <b>字{{a..b}}</b>\n</p>"

example : Diagnostic.slip.display true = some (
    "\n   |\n 2 |   <b>字{{a..b}}</b>\n" ++
    "   |          ^^^^ invalid PathExpression: empty segment in `a..b`\n").toList := by
  decide +kernel

end Hydration
