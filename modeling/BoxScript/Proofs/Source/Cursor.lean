import BoxScript.Source.Reader

/-!
# Reading with a cursor

The reader is handed what is left of a source. Here the same reading is done
with a cursor: an index into the source, which is whatever the steps make of it.
Bytes and parts of the source are taken by index, and an index out of range stops
the reading. So do a bracket or quote that the caller has seen and that is not
there, and a loop that takes more turns than it is allowed.

All that happens to the cursor is recorded: every move, every successful call of
a rule of the grammar and every turn of a loop that another one follows. The
cursor stands where its last move went.
-/

set_option autoImplicit false

namespace BoxScript.Source

/-- The rules whose calls are recorded. A suffixed expression is a primary with
the member accesses and calls behind it. -/
inductive Rule where
  | expr
  | suffixed
  | primary
  | block
  | tuple
deriving DecidableEq

inductive Loop where
  | sequence
  | suffixes
  | items
deriving DecidableEq

/-- What is recorded of the cursor, with where it was and where it went. -/
inductive Event where
  | move (start stop : Int)
  | call (rule : Rule) (start stop : Int)
  | turn (loop : Loop) (start stop : Int)
deriving DecidableEq

/-- The cursor stays inside a source of this size and does not go back; calls
and turns take it on. -/
def Event.Proper (size : Nat) : Event → Prop
  | .move start stop => 0 ≤ start ∧ start ≤ stop ∧ stop ≤ size
  | .call _ start stop | .turn _ start stop => 0 ≤ start ∧ start < stop ∧ stop ≤ size

/-- Why careful reading ends without a result. -/
inductive Stop where
  | fault (e : ParseError)
  /-- A byte or a part was taken that the source does not have. -/
  | outOfRange
  /-- A bracket or quote is not where the caller saw it. -/
  | misplaced
  | outOfSteps

/-- A reading step: it knows the source, may stop, and adds to the record, with
the latest event first. -/
abbrev Careful := ReaderT Bytes (ExceptT Stop (StateM (List Event)))

namespace Careful

/-! ## The cursor -/

/-- Where the cursor stands. -/
def place : List Event → Int
  | [] => 0
  | .move _ stop :: _ => stop
  | _ :: earlier => place earlier

def cursor : Careful Int := return place (← get)

def record (event : Event) : Careful Unit := modify (event :: ·)

def moveTo (stop : Int) : Careful Unit := do
  record (.move (← cursor) stop)

def advance : Careful Unit := do
  moveTo ((← cursor) + 1)

/-- The result of an access, which must be there. -/
def present {α : Type} : Option α → Careful α
  | some a => return a
  | none => throw .outOfRange

def byteAt (i : Int) : Careful UInt8 := do
  let source ← read
  present (if i < 0 then none else source[i.toNat]?)

def slice (start stop : Int) : Careful Bytes := do
  let source ← read
  present (if 0 ≤ start ∧ start ≤ stop ∧ stop ≤ source.length then
    some ((source.take stop.toNat).drop start.toNat) else none)

def eof : Careful Bool := do
  return decide (((← read).length : Int) ≤ (← cursor))

/-- The byte at the cursor, or a zero byte at the end. -/
def peek : Careful UInt8 := do
  if ← eof then return 0 else byteAt (← cursor)

/-- The byte at the cursor, to be reported. -/
def found : Careful (Option UInt8) := do
  if ← eof then return none else return some (← byteAt (← cursor))

/-- The index of the last such byte. -/
def lastIndex? (b : UInt8) (s : Bytes) : Option Nat :=
  (s.reverse.idxOf? b).map (s.length - 1 - ·)

/-- The error at an offset. It is incomplete if the cursor is at the end. -/
def errorAt (offset : Int) (cause : Cause) : Careful ParseError := do
  let before ← slice 0 offset
  return {
    offset := offset.toNat
    line := 1 + before.count newline
    column := match lastIndex? newline before with
      | some k => offset.toNat - k
      | none => offset.toNat + 1
    cause
    incomplete := ← eof }

def failAt {α : Type} (offset : Int) (cause : Cause) : Careful α := do
  throw (.fault (← errorAt offset cause))

/-- Stops at the cursor. -/
def fail {α : Type} (cause : Cause) : Careful α := do
  failAt (← cursor) cause

/-! ## Lexemes -/

/-- Goes on over bytes of a kind. -/
def skipWhile (p : UInt8 → Bool) : Nat → Careful Unit
  | 0 => throw .outOfSteps
  | n + 1 => do
    if ← eof then return ()
    else if p (← byteAt (← cursor)) then
      advance
      skipWhile p n
    else return ()

def skipSpace : Careful Unit := do
  skipWhile isSpace ((← read).length + 1)

def name : Careful String := do
  if startsName (← peek) then
    let start ← cursor
    advance
    skipWhile continuesName ((← read).length + 1)
    return Utf8.ascii (← slice start (← cursor))
  else fail (.missingName (← found))

/-- The text whose opening quote is at the cursor. -/
def quotedText : Careful Bytes := do
  if ← eof then throw .misplaced
  else
    let start ← cursor
    let quote ← byteAt start
    if isQuote quote then
      let size := ((← read).length : Int)
      match (← slice (start + 1) size).idxOf? quote with
      | some k =>
        moveTo (start + 1 + k + 1)
        slice (start + 1) (start + 1 + k)
      | none =>
        moveTo size
        failAt start .unclosedText
    else throw .misplaced

/-- The end of a number. The last byte of the number is looked at again. -/
def numberEnd (start : Int) : Careful Bytes := do
  if (← byteAt ((← cursor) - 1)) == underscore then
    failAt ((← cursor) - 1) .trailingUnderscore
  else slice start (← cursor)

/-- The rest of a number behind its first digit. -/
def numberTail (start : Int) : Nat → Careful Bytes
  | 0 => throw .outOfSteps
  | n + 1 => do
    if ← eof then numberEnd start
    else
      let b ← byteAt (← cursor)
      if isDigit b then
        advance
        numberTail start n
      else if isSeparator b then
        if isDigit (← byteAt ((← cursor) - 1)) then
          advance
          numberTail start n
        else fail (.separatorAfterNonDigit b)
      else numberEnd start

def unsignedNumber (start : Int) : Careful Bytes := do
  if isDigit (← peek) then
    advance
    numberTail start ((← read).length + 1)
  else fail (.numberWithoutDigit (← found))

def numberLexeme : Careful Bytes := do
  let start ← cursor
  if isSign (← peek) then
    advance
    unsignedNumber start
  else unsignedNumber start

def number : Careful Expr := do
  let start ← cursor
  let literal ← numberLexeme
  match numberValue literal with
  | .ok e => return e
  | .error why =>
    throw (.fault { ← errorAt start (.malformedNumber literal why) with incomplete := false })

/-! ## Reading functions -/

def atClose (top : Bool) : Careful Bool := do
  if ← eof then return true
  else
    let b ← peek
    return b == closeBrace || (top && b == closeParen)

/-- A step that is recorded as a call of a rule if it succeeds. -/
def call {α : Type} (rule : Rule) (m : Careful α) : Careful α := do
  let start ← cursor
  let a ← m
  record (.call rule start (← cursor))
  return a

/-- Records the end of a turn that another one follows. -/
def turn (loop : Loop) (start : Int) : Careful Unit := do
  record (.turn loop start (← cursor))

mutual

def sequence (top : Bool) (seen : List Expr) : Nat → Careful (List Expr)
  | 0 => throw .outOfSteps
  | n + 1 => do
    let start ← cursor
    skipSpace
    if ← atClose top then return seen.reverse
    else if (← peek) = semicolon then
      advance
      turn .sequence start
      sequence top seen n
    else
      let e ← expr n
      skipSpace
      if ← atClose top then return (e :: seen).reverse
      else if (← peek) = semicolon then
        advance
        turn .sequence start
        sequence top (e :: seen) n
      else fail (.missingSemicolon (← found))

def expr : Nat → Careful Expr
  | 0 => throw .outOfSteps
  | n + 1 => call .expr do
    let e ← call .suffixed do
      let head ← primary n
      suffixes head n
    skipSpace
    if (← peek) = equalSign then
      match assignTo? e with
      | none => fail (.notAssignable e)
      | some assign =>
        advance
        let value ← expr n
        return assign value
    else return e

def suffixes (e : Expr) : Nat → Careful Expr
  | 0 => throw .outOfSteps
  | n + 1 => do
    let start ← cursor
    skipSpace
    let b ← peek
    if b = point then
      advance
      skipSpace
      let member ← name
      turn .suffixes start
      suffixes (.member e member) n
    else if b = openParen then
      let items ← tuple n
      turn .suffixes start
      suffixes (.call e (.list items)) n
    else return e

def primary : Nat → Careful Expr
  | 0 => throw .outOfSteps
  | n + 1 => call .primary do
    skipSpace
    let b ← peek
    if ← eof then fail .missingExpression
    else if isQuote b then return .text (← quotedText)
    else if isDigit b || isSign b then number
    else if startsName b then return .name (← name)
    else if b == openBrace then return .box (← block n)
    else if b == openParen then
      let start ← cursor
      let items ← tuple n
      skipSpace
      if (← peek) = openBrace then
        match parameters items with
        | .error e => failAt start (.notParameter e)
        | .ok params => return .method params (← block n)
      else return .list items
    else fail (.unexpected (← found))

/-- A sequence between braces, the opening one at the cursor. -/
def block : Nat → Careful (Option Expr)
  | 0 => throw .outOfSteps
  | n + 1 => call .block do
    skipSpace
    if (← peek) = openBrace then
      advance
      let es ← sequence false [] n
      if (← peek) = closeBrace then
        advance
        return Expr.ofList es
      else fail (.missingBrace (← found))
    else throw .misplaced

/-- Items between parentheses, the opening one at the cursor. -/
def tuple : Nat → Careful (List Expr)
  | 0 => throw .outOfSteps
  | n + 1 => call .tuple do
    skipSpace
    if (← peek) = openParen then
      advance
      skipSpace
      if (← peek) = closeParen then
        advance
        return []
      else items [] n
    else throw .misplaced

def items (seen : List Expr) : Nat → Careful (List Expr)
  | 0 => throw .outOfSteps
  | n + 1 => do
    let start ← cursor
    let e ← expr n
    skipSpace
    let b ← peek
    if b = comma then
      advance
      turn .items start
      items (e :: seen) n
    else if b = closeParen then
      advance
      return (e :: seen).reverse
    else fail (.missingListEnd (← found))

end

def program (n : Nat) : Careful (List Expr) := do
  let es ← sequence true [] n
  if ← eof then return es else fail (.unexpected (← found))

/-- What a step comes to on a source, and the record behind it. -/
def run {α : Type} (m : Careful α) (source : Bytes) (history : List Event) :
    Except Stop α × List Event :=
  ((ReaderT.run m source).run).run history

/-- Reads a source from its start. -/
def parse (source : Bytes) : Except Stop (List Expr) × List Event :=
  (program (allowance source)).run source []

end Careful

end BoxScript.Source
