import BoxScript.Document.Property

/-!
# The stream of tokens

`next` looks at the next characters and puts the tokens they start into the
queue. The token at the head of the queue is given out once it is certain that
no key starts with it.
-/

set_option autoImplicit false

namespace BoxScript.Document.Scan

/-- Moves past blanks, comments and line ends. In blocks, tabs do not count as
blanks where a key may stand, and a key may stand on each new line. -/
def toToken : Nat → Scan Unit
  | 0 => refuse
  | n + 1 => do
    need 1
    let s ← get
    if s.cursor.position.column = 0 && s.cursor.opening = byteOrderMark then skip
    need 1
    skipWhile fun c => c = ' ' || ((0 < s.flowLevel || !s.keyAllowed) && c = '\t')
    if (← peek 0) = '#' then skipWhile fun c => !isBreakOrEnd c
    if isBreak (← peek 0) then
      need 2
      skipLine
      if s.flowLevel = 0 then allowKey true
      toToken n

/-- Ends all blocks; no key may stand here. -/
def endBlocks : Scan Unit := do
  leaveBlocks (-1)
  dropKey
  allowKey false

/-! ## The tokens by their first characters -/

def streamEnd : Scan Unit := do
  modify fun s => { s with cursor := s.cursor.endLine }
  endBlocks
  emit .streamEnd

def directive : Scan Unit := do
  endBlocks
  emit (← readDirective)

/-- The three marks that start or end a document. -/
def documentMarker (t : Token) : Scan Unit := do
  endBlocks
  skip
  skip
  skip
  emit t

def openBracket (t : Token) : Scan Unit := do
  keepKey
  enterFlow
  allowKey true
  skip
  emit t

def closeBracket (t : Token) : Scan Unit := do
  dropKey
  leaveFlow
  allowKey false
  skip
  emit t

def flowEntry : Scan Unit := do
  dropKey
  allowKey true
  skip
  emit .flowEntry

/-- Starts a block at the current column, if a block may start here. Between
brackets nothing is done. -/
def startBlock (t : Token) : Scan Unit := do
  let s ← get
  if s.flowLevel = 0 then
    require s.keyAllowed
    enterBlock s.cursor.position.column t none

def blockEntry : Scan Unit := do
  startBlock .blockSequenceStart
  dropKey
  allowKey true
  skip
  emit .blockEntry

/-- A key that is marked as such. -/
def markedKey : Scan Unit := do
  startBlock .blockMappingStart
  dropKey
  allowKey ((← get).flowLevel = 0)
  skip
  emit .key

/-- A value, which turns what stands in front of it into a key if it can be one. -/
def value : Scan Unit := do
  let key ← keyStart
  if ← canBeKey key then
    match key with
    | none => refuse
    | some k =>
      emitAt k.number .key
      enterBlock k.position.column .blockMappingStart (some k.number)
      setKey none
      allowKey false
  else
    startBlock .blockMappingStart
    allowKey ((← get).flowLevel = 0)
  skip
  emit .value

/-- A token that can start a key and is followed by none. -/
def keyed (read : Scan Token) : Scan Unit := do
  keepKey
  allowKey false
  emit (← read)

def blockText (literal : Bool) : Scan Unit := do
  dropKey
  allowKey true
  emit (← blockScalar literal)

/-- The characters that have a meaning of their own at the start of a token. -/
def isIndicator (c : Char) : Bool :=
  "-?:,[]#&*!|>'\"%@".toList.contains c || c = '\x7b' || c = '\x7d' || c.toNat = 0x60

/-- Whether a plain scalar starts with a character, given the next one. -/
def startsPlain (inFlow : Bool) (c next : Char) : Bool :=
  !(isBlankOrEnd c || isIndicator c) || (c = '-' && !isBlank next) ||
    (!inFlow && (c = '?' || c = ':') && !isBlankOrEnd next)

/-- Puts the next tokens into the queue. -/
def next : Scan Unit := do
  need 1
  if !(← get).started then
    modify fun s => { s with started := true }
    emit .streamStart
  else
    toToken (← limit)
    leaveBlocks (← position).column
    need 4
    let s ← get
    let c := s.cursor.peek 0
    let following := s.cursor.peek 1
    let inFlow : Bool := 0 < s.flowLevel
    let apart := isBlankOrEnd following
    if isEnd c then streamEnd
    else if s.cursor.position.column = 0 && c = '%' then directive
    else if s.cursor.atMarker '-' then documentMarker .documentStart
    else if s.cursor.atMarker '.' then documentMarker .documentEnd
    else if c = '[' then openBracket .flowSequenceStart
    else if c = '\x7b' then openBracket .flowMappingStart
    else if c = ']' then closeBracket .flowSequenceEnd
    else if c = '\x7d' then closeBracket .flowMappingEnd
    else if c = ',' then flowEntry
    else if c = '-' && apart then blockEntry
    else if c = '?' && (inFlow || apart) then markedKey
    else if c = ':' && (inFlow || apart) then value
    else if c = '*' then keyed (.alias <$> readName)
    else if c = '&' then keyed (.anchor <$> readName)
    else if c = '!' then keyed readTag
    else if c = '|' && !inFlow then blockText true
    else if c = '>' && !inFlow then blockText false
    else if c = '\'' then keyed (quotedScalar true)
    else if c = '"' then keyed (quotedScalar false)
    else if startsPlain inFlow c following then keyed plainScalar
    else refuse

/-! ## The head of the queue -/

/-- The place where a key may have started with the token of a number that is
held back. The numbers get less from level to level. -/
def awaited (number : Nat) : List Level → Option KeyStart
  | [] => none
  | level :: outer =>
    if level.number < number then none
    else match level.key with
      | none => awaited number outer
      | some k =>
        if k.number = number then if k.awaited then some k else none
        else awaited number outer

/-- Whether the head of the queue can be given out. -/
def isReady : Scan Bool := do
  let s ← get
  if s.queue.isEmpty then return false else return !(← canBeKey (awaited s.taken s.levels))

/-- Fills the queue until its head can be given out. -/
def prepare : Nat → Scan Unit
  | 0 => refuse
  | n + 1 => do
    if !(← isReady) then
      next
      prepare n

/-- The next token, which stays in the queue. -/
def token : Scan Token := do
  prepare (← limit)
  match (← get).queue with
  | t :: _ => return t
  | [] => refuse

/-- Takes the next token off the queue. -/
def take : Scan Unit := modify fun s => { s with queue := s.queue.tail, taken := s.taken + 1 }

end BoxScript.Document.Scan
