import BoxScript.Document.Portions

/-!
# Reading a document character by character

A cursor holds the characters decoded so far and its position. Before looking
ahead it must be asked for as many characters as that needs; if it holds fewer,
it decodes further portions. Behind the end stand null characters.
-/

set_option autoImplicit false

namespace BoxScript.Document

/-- The null character, which stands for the end. -/
def endMark : Char := '\x00'

/-- The mark that may open a document or a line. -/
def byteOrderMark : Char := '\ufeff'

def isEnd (c : Char) : Bool := c = endMark

def isBlank (c : Char) : Bool := c = ' ' || c = '\t'

/-- A line feed, carriage return, next line, line separator or paragraph
separator. -/
def isBreak (c : Char) : Bool :=
  c = '\n' || c = '\r' || c = '\u0085' || c = '\u2028' || c = '\u2029'

def isBreakOrEnd (c : Char) : Bool := isBreak c || isEnd c

def isBlankOrEnd (c : Char) : Bool := isBlank c || isBreakOrEnd c

structure Position where
  index : Nat := 0
  line : Nat := 0
  column : Nat := 0

structure Cursor where
  ahead : List Char
  portions : Portions
  /-- The character that was next when portions were last decoded. -/
  opening : Char := endMark
  position : Position := {}

namespace Cursor

/-- Adds portions until there are `n` characters ahead, or the end is marked. -/
def fill (n : Nat) (ahead : List Char) : Portions → Option (List Char × Portions)
  | .more chars rest =>
    let ahead := ahead ++ chars
    if n ≤ ahead.length then some (ahead, rest) else fill n ahead rest
  | .ended => some (ahead ++ [endMark], .ended)
  | .broken => none

/-- Asks for `n` characters. -/
def need (n : Nat) (c : Cursor) : Option Cursor :=
  if (c.ahead.drop (n - 1)).isEmpty then
    match fill n c.ahead c.portions with
    | none => none
    | some (ahead, portions) =>
      some { c with ahead, portions, opening := ahead.head?.getD endMark }
  else some c

/-- The character `k` places ahead. -/
def peek (c : Cursor) (k : Nat) : Char := (c.ahead[k]?).getD endMark

/-- Moves past a character. -/
def skip (c : Cursor) : Cursor :=
  { c with
    ahead := c.ahead.tail
    position := { c.position with
      index := c.position.index + 1, column := c.position.column + 1 } }

/-- Moves past a line break. -/
def skipLine (c : Cursor) : Cursor :=
  let width := if c.peek 0 = '\r' && c.peek 1 = '\n' then 2 else 1
  { c with
    ahead := c.ahead.drop width
    position := { index := c.position.index + width, line := c.position.line + 1, column := 0 } }

/-- Counts the end of the last line as a line break. -/
def endLine (c : Cursor) : Cursor :=
  if c.position.column = 0 then c
  else { c with position := { c.position with line := c.position.line + 1, column := 0 } }

/-- What a line break counts as: the separators stand for themselves, all others
for a line feed. -/
def lineBreak (c : Cursor) : Char :=
  if c.peek 0 = '\u2028' || c.peek 0 = '\u2029' then c.peek 0 else '\n'

/-- Whether a line starts with three of a mark and a blank. -/
def atMarker (c : Cursor) (mark : Char) : Bool :=
  c.position.column = 0 && c.peek 0 = mark && c.peek 1 = mark && c.peek 2 = mark &&
    isBlankOrEnd (c.peek 3)

/-- Whether a line starts or ends a document. -/
def atDocumentMarker (c : Cursor) : Bool := c.atMarker '-' || c.atMarker '.'

end Cursor

/-- A cursor at the start of a document. -/
def Cursor.start (source : Bytes) : Cursor := { ahead := [], portions := Document.portions source }

end BoxScript.Document
