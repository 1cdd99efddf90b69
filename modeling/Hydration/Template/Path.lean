import Hydration.Text.Span

/-!
# Template/Path — dotted lookup paths

A path is written as its segments with periods between them. `Path.ofString` splits at every
period, so an empty text is one empty segment, and `Path.dotted` joins the segments again. A path
with no segments at all refers to the current context; a path with an empty segment was malformed
in the source.
-/

namespace Hydration.Template

/-- The pieces between the periods of a text; there is always at least one. -/
def splitDots : List Char → List (List Char)
  | [] => [[]]
  | c :: cs =>
    match splitDots cs with
    | [] => [[c]]
    | piece :: pieces => if c = '.' then [] :: piece :: pieces else (c :: piece) :: pieces

/-- Pieces with a period between each two. -/
def joinDots : List (List Char) → List Char
  | [] => []
  | [piece] => piece
  | piece :: next :: pieces => piece ++ '.' :: joinDots (next :: pieces)

/-- **A dotted lookup path**, and where it was written. -/
structure Path where
  segments : List String
  span : Span := {}
deriving DecidableEq, Repr

namespace Path

/-- The path written by a dotted text. -/
def ofString (text : String) : Path where
  segments := (splitDots text.toList).map String.ofList

/-- The segments with periods between them. -/
def dotted (p : Path) : String := String.ofList (joinDots (p.segments.map String.toList))

/-- Some segment is empty. -/
def isBroken (p : Path) : Bool := p.segments.any (· == "")

end Path

end Hydration.Template
