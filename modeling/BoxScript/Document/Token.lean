import BoxScript.Document.Cursor

/-!
# Tokens

The tokens of a document, and the state in which they are cut off it. Tokens
wait in a queue, because a colon turns what stood in front of it into a key:
the key token, and the start of the mapping, are then put in front of it. A
place where a key may have started is kept until a colon is found, the line
ends, or more than 1024 characters have passed.
-/

set_option autoImplicit false

namespace BoxScript.Document

inductive Token where
  | streamStart
  | streamEnd
  | version (major minor : Nat)
  | tagDirective (handle : String) (stem : Bytes)
  | documentStart
  | documentEnd
  | blockSequenceStart
  | blockMappingStart
  | blockEnd
  | flowSequenceStart
  | flowSequenceEnd
  | flowMappingStart
  | flowMappingEnd
  | blockEntry
  | flowEntry
  | key
  | value
  | alias (name : String)
  | anchor (name : String)
  | tag (handle : String) (suffix : Bytes)
  | scalar (text : String) (plain : Bool)
deriving DecidableEq, Repr

/-- A place where a key may have started. -/
structure KeyStart where
  /-- Whether only a key can stand there. -/
  required : Bool
  /-- The number of the token that starts there. -/
  number : Nat
  position : Position
  /-- Whether that token is held back until it is known if a colon follows. -/
  awaited : Bool := true

/-- The inside of a pair of brackets, or the outside of all. -/
structure Level where
  /-- The number of the last token that could start a key here, at first that
  of the bracket. -/
  number : Nat := 0
  /-- Where a key may have started. -/
  key : Option KeyStart := none

structure Scanner where
  cursor : Cursor
  started : Bool := false
  /-- The columns of the open blocks, innermost first. -/
  columns : List Nat := []
  /-- The number of open brackets. -/
  flowLevel : Nat := 0
  /-- One level for each open bracket and one for the outside, innermost first. -/
  levels : List Level := [{}]
  keyAllowed : Bool := true
  queue : List Token := []
  /-- The number of tokens taken off the queue. -/
  taken : Nat := 0
  /-- A bound on the number of steps of any loop. -/
  limit : Nat

/-- The column of the innermost block, -1 outside all blocks. -/
def Scanner.indent (s : Scanner) : Int :=
  match s.columns with
  | [] => -1
  | column :: _ => column

/-- What reads tokens; it gives up at the first error. -/
abbrev Scan := StateT Scanner Option

namespace Scan

def refuse {α : Type} : Scan α := fun _ => none

def require (ok : Bool) : Scan Unit := fun s => if ok then some ((), s) else none

/-- Asks for `n` characters ahead. -/
def need (n : Nat) : Scan Unit := fun s =>
  match s.cursor.need n with
  | none => none
  | some cursor => some ((), { s with cursor })

def peek (k : Nat) : Scan Char := fun s => some (s.cursor.peek k, s)

def skip : Scan Unit := fun s => some ((), { s with cursor := s.cursor.skip })

def skipLine : Scan Unit := fun s => some ((), { s with cursor := s.cursor.skipLine })

/-- Moves past a line break and gives what it counts as. -/
def readLine : Scan Char := fun s =>
  some (s.cursor.lineBreak, { s with cursor := s.cursor.skipLine })

def position : Scan Position := fun s => some (s.cursor.position, s)

def limit : Scan Nat := fun s => some (s.limit, s)

/-- Reads on while characters satisfy a condition. What was read is given in
reverse, behind `seen`. -/
def readWhile (p : Char → Bool) (seen : List Char) : Nat → Scan (List Char)
  | 0 => refuse
  | n + 1 => do
    let c ← peek 0
    if p c then
      skip
      need 1
      readWhile p (c :: seen) n
    else return seen

/-- Moves on while characters satisfy a condition. -/
def skipWhile (p : Char → Bool) : Scan Unit := do
  let _ ← readWhile p [] (← limit)

/-- The text that the next characters make which satisfy a condition. -/
def textWhile (p : Char → Bool) : Scan String := do
  let seen ← readWhile p [] (← limit)
  return String.ofList seen.reverse

/-- Moves past blanks and a comment, to the end of the line, and past that. -/
def skipRestOfLine : Scan Unit := do
  skipWhile isBlank
  if (← peek 0) = '#' then skipWhile fun c => !isBreakOrEnd c
  require (isBreakOrEnd (← peek 0))
  if isBreak (← peek 0) then
    need 2
    skipLine

/-! ## The queue -/

/-- Puts a token at the end of the queue. -/
def emit (t : Token) : Scan Unit := modify fun s => { s with queue := s.queue ++ [t] }

/-- Puts a token in front of the one with a number, or at the end if that one
was taken. -/
def emitAt (number : Nat) (t : Token) : Scan Unit := modify fun s =>
  if number < s.taken then { s with queue := s.queue ++ [t] }
  else
    let (before, after) := s.queue.splitAt (number - s.taken)
    { s with queue := before ++ t :: after }

/-! ## Places where keys may have started -/

def allowKey (allowed : Bool) : Scan Unit := modify fun s => { s with keyAllowed := allowed }

/-- Whether a key that started there can still get its colon. It fails if a key
is required there and cannot. -/
def isAlive (k : KeyStart) : Scan Bool := do
  let p ← position
  if k.position.line < p.line || k.position.index + 1024 < p.index then
    require (!k.required)
    return false
  else return true

/-- Whether a key that started there, if any, can still get its colon. -/
def canBeKey : Option KeyStart → Scan Bool
  | none => return false
  | some k => isAlive k

/-- The place of the current level. -/
def keyStart : Scan (Option KeyStart) := do
  match (← get).levels with
  | level :: _ => return level.key
  | [] => return none

/-- Replaces the place of the current level. -/
def setKey (key : Option KeyStart) : Scan Unit := modify fun s =>
  match s.levels with
  | level :: outer => { s with levels := { level with key } :: outer }
  | [] => s

/-- Forgets the place of the current level, which fails if a key is required there. -/
def dropKey : Scan Unit := do
  match ← keyStart with
  | some k =>
    require (!k.required)
    setKey none
  | none => return

/-- Keeps the current place, if a key is allowed there. -/
def keepKey : Scan Unit := do
  let s ← get
  if s.keyAllowed then
    dropKey
    let k : KeyStart :=
      { required := s.flowLevel = 0 && s.indent = (s.cursor.position.column : Int)
        number := s.taken + s.queue.length
        position := s.cursor.position }
    modify fun s => { s with levels := { number := k.number, key := some k } :: s.levels.tail }

/-! ## Brackets and blocks -/

/-- The number of brackets, and of blocks, that may be open at a time. -/
def maxDepth : Nat := 10000

/-- Enters a pair of brackets, whose opening token comes next. -/
def enterFlow : Scan Unit := do
  let s ← get
  require (s.flowLevel < maxDepth)
  set { s with
    flowLevel := s.flowLevel + 1
    levels := { number := s.taken + s.queue.length } :: s.levels }

/-- Leaves a pair of brackets. If no token between them could start a key, the
opening bracket is no longer held back. -/
def leaveFlow : Scan Unit := modify fun s =>
  match s.levels with
  | inner :: outer :: levels =>
    let key := outer.key.map fun k =>
      { k with awaited := k.awaited && k.number ≠ inner.number }
    { s with flowLevel := s.flowLevel - 1, levels := { outer with key } :: levels }
  | _ => s

/-- Ends the blocks that lie deeper than a column. Between brackets there are
none. -/
def leaveBlocks (column : Int) : Scan Unit := modify fun s =>
  if 0 < s.flowLevel then s
  else
    let left := s.columns.takeWhile fun (c : Nat) => column < (c : Int)
    { s with
      queue := s.queue ++ left.map fun _ => Token.blockEnd
      columns := s.columns.drop left.length }

/-- Starts a block at a column, unless it has started. Its token goes to the
end of the queue, or in front of the one with a number. -/
def enterBlock (column : Nat) (t : Token) (number : Option Nat) : Scan Unit := do
  let s ← get
  if s.flowLevel = 0 && s.indent < (column : Int) then
    require (s.columns.length < maxDepth)
    set { s with columns := column :: s.columns }
    match number with
    | some number => emitAt number t
    | none => emit t

end Scan

end BoxScript.Document
