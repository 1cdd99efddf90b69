import Hydration.Compile.Violation
import Hydration.Text.Width

/-!
# Diagnostic — error messages with an excerpt

An error says what is wrong and, if it is known, between which bytes of the source. Where the source
is at hand and the span lies in it, the line it starts on is shown with the span underlined. What
stands in which column depends on where the text is shown, and is measured by a ruler.
-/

namespace Hydration

/-- **An error of the compiler**: its message, the span it is about, and the source. -/
structure Diagnostic where
  message : String
  range? : Option Span
  source? : Option String
deriving DecidableEq, Repr

namespace Text

/-- The lines of a text: what stands between its line feeds, a last one without characters not
counted. -/
def lines : List Char → List (List Char)
  | [] => []
  | c :: cs =>
    if c = '\n' then [] :: lines cs
    else match lines cs with
      | [] => [[c]]
      | line :: rest => (c :: line) :: rest

/-- **The line and column of a byte offset**, counted from zero; behind the last line, the end of
it. There is none for an offset inside a character. -/
def locate (ruler : Ruler) (lines : List (List Char)) (offset : Nat) : Option (Nat × Nat) :=
  go 0 offset lines
where
  /-- The offset counts from the line with the given number on. -/
  go (number offset : Nat) : List (List Char) → Option (Nat × Nat)
    | [] => some (number, ruler.width (lines.getLast?.getD []))
    | line :: rest =>
      let length := byteLength line + 1
      if offset < length then (cut? offset line).map fun (before, _) => (number, ruler.width before)
      else go (number + 1) (offset - length) rest

end Text

namespace Diagnostic

/-- The error of a violation in a template with the given source. -/
def ofViolation (source? : Option String) (v : Violation) : Diagnostic :=
  ⟨v.message, v.range?, source?⟩

/-- So many spaces. -/
def spaces (n : Nat) : List Char := List.replicate n ' '

/-- **The excerpt**: the line the span starts on, under its number, and the span underlined with
the message behind it. There is none if the span does not lie between characters of the source. -/
def excerpt? (ruler : Text.Ruler) (message : String) (source : List Char) (span : Span) :
    Option (List Char) := do
  let lines := Text.lines source
  let (line, column) ← Text.locate ruler lines span.start
  let covered ← span.slice? source
  let code := (lines[line]? <|> lines.getLast?).getD []
  let number := Nat.toDigits 10 (line + 1)
  let margin := '\n' :: ' ' :: spaces (ruler.width number) ++ " |".toList
  let underline := List.replicate (max 1 (ruler.width covered)) '^'
  return margin ++ ('\n' :: ' ' :: number ++ " | ".toList ++ code) ++
    margin ++ (' ' :: spaces column ++ underline ++ ' ' :: message.toList ++ ['\n'])

/-- **The source and the span to show**, if the source is at hand and the span lies between
characters of it. -/
def shown? (d : Diagnostic) : Option (List Char × Span) := do
  let source := (← d.source?).toList
  let span ← d.range?
  if span.isWithin source then some (source, span) else none

/-- **The error in one line.** -/
def plain (d : Diagnostic) : List Char :=
  match d.range? with
  | some span => d.message.toList ++ " between bytes ".toList ++ Nat.toDigits 10 span.start ++
      " and ".toList ++ Nat.toDigits 10 span.stop
  | none => d.message.toList

/-- **The error as shown to a user**, in one line or, where there is something to show, as an
excerpt. -/
def display (d : Diagnostic) (atLength : Bool) (ruler : Text.Ruler := .terminal) :
    Option (List Char) :=
  match d.shown? with
  | some (source, span) => if atLength then excerpt? ruler d.message source span else some d.plain
  | none => some d.plain

/-- **The error as shown to a developer**: the excerpt, or else one line. -/
def debug (d : Diagnostic) (ruler : Text.Ruler := .terminal) : Option (List Char) :=
  match d.shown? with
  | some (source, span) => excerpt? ruler d.message source span
  | none => d.display false ruler

end Diagnostic

end Hydration
