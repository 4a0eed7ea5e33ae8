import BoxScript.Console.Line

/-!
# The history of statements

The last thousand statements, one line each. A statement equal to the one
before it is not added. Reading a history file stops at a line that is too
long or not well formed.
-/

set_option autoImplicit false

namespace BoxScript.Console

/-- Statements, the newest first. -/
abbrev History := List Bytes

namespace History

def limit : Nat := 1000

/-- Adds a line as it is. -/
def add (h : History) (line : Bytes) : History := (line :: h).take limit

/-- Adds a statement unless it repeats the last one. -/
def append (h : History) (statement : Bytes) : History :=
  if h.head? = some statement then h else h.add statement

/-- Adds the lines of a history file. -/
def readLines (h : History) : List Line → History
  | [] => h
  | line :: lines =>
    if line.cut || (Utf8.decode? line.bytes).isNone then h
    else (h.add line.bytes).readLines lines

/-- The history that a file holds. -/
def read (file : Bytes) : History := readLines [] (lines file)

/-- The contents of the file for a history, oldest statement first. -/
def write (h : History) : Bytes := (h.reverse.map fun line => line ++ [lineFeed]).flatten

end History

end BoxScript.Console
