import BoxScript.Text.Utf8

/-!
# Lines of input

A line ends at a line feed, which is dropped with one carriage return in front
of it. Input is looked at 4096 bytes at a time: where a line has no end among
them, they are a line of their own that was cut, except for a carriage return
at their end, which is left for the next one.
-/

set_option autoImplicit false

namespace BoxScript.Console

def lineFeed : UInt8 := 0x0A
def carriageReturn : UInt8 := 0x0D

/-- How many bytes are looked at for the end of a line. -/
def windowSize : Nat := 4096

structure Line where
  bytes : Bytes
  /-- Whether the line was cut. -/
  cut : Bool

/-- A text without a carriage return at its end. -/
def dropReturn (s : Bytes) : Bytes :=
  if s.getLast? = some carriageReturn then s.dropLast else s

/-- The first line of an input that is not empty, and the rest. -/
def firstLine (input : Bytes) : Line × Bytes :=
  let window := input.take windowSize
  match window.span (· != lineFeed) with
  | (line, _ :: _) => (⟨dropReturn line, false⟩, input.drop (line.length + 1))
  | (_, []) =>
    if window.length < windowSize then (⟨input, false⟩, [])
    else
      let line := dropReturn window
      (⟨line, true⟩, input.drop line.length)

/-- At most so many lines of an input. -/
def linesUpTo : Nat → Bytes → List Line
  | 0, _ => []
  | n + 1, input =>
    if input.isEmpty then []
    else
      let (line, rest) := firstLine input
      line :: linesUpTo n rest

/-- The lines of an input. -/
def lines (input : Bytes) : List Line := linesUpTo input.length input

end BoxScript.Console
