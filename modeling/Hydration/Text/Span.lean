import Hydration.Text.Bytes

/-!
# Text/Span — ranges of byte offsets

A `Span` says where in the template source a node was written. The empty span `0,0` stands for
"unknown", so a span is only worth reporting if its ends differ.
-/

namespace Hydration

/-- **A range of byte offsets**, from `start` up to but excluding `stop`. Nothing forces the ends
to be in order or inside any text. -/
structure Span where
  start : Nat := 0
  stop : Nat := 0
deriving DecidableEq, Repr

namespace Span

instance : Inhabited Span := ⟨{}⟩

/-- Both ends coincide. -/
def isEmpty (s : Span) : Bool := s.start == s.stop

/-- The range from the lower start to the higher stop. -/
def hull (s t : Span) : Span := ⟨min s.start t.start, max s.stop t.stop⟩

/-- **The span lies in a text**, both ends in order and between characters of it. -/
def isWithin (s : Span) (text : List Char) : Bool :=
  !text.isEmpty && decide (s.start ≤ s.stop) && decide (s.stop ≤ Text.byteLength text) &&
    Text.isBoundary s.start text && Text.isBoundary s.stop text

/-- The part of a text that the span covers, if its ends are in order and between characters. -/
def slice? (s : Span) (text : List Char) : Option (List Char) := do
  guard (s.start ≤ s.stop)
  let (upTo, _) ← Text.cut? s.stop text
  let (_, covered) ← Text.cut? s.start upTo
  return covered

/-- A span covers what stands between its ends. -/
theorem slice?_eq {s : Span} {before covered : List Char} (behind : List Char)
    (start : Text.byteLength before = s.start)
    (stop : Text.byteLength (before ++ covered) = s.stop) :
    s.slice? (before ++ (covered ++ behind)) = some covered := by
  have h : s.start ≤ s.stop := by
    rw [← start, ← stop, Text.byteLength_append]
    exact Nat.le_add_right ..
  have hupTo : Text.cut? s.stop (before ++ (covered ++ behind)) =
      some (before ++ covered, behind) := by
    rw [← stop, ← List.append_assoc, Text.cut?_append]
  have hcovered : Text.cut? s.start (before ++ covered) = some (before, covered) := by
    rw [← start, Text.cut?_append]
  have hg : guard (f := Option) (s.start ≤ s.stop) = some () := if_pos h
  rw [slice?, hg]
  simp [hupTo, hcovered]

end Span

end Hydration
