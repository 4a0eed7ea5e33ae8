import BoxScript.Document.Token

/-!
# Scalars

A plain scalar ends in front of a comment, that is a number sign behind a
blank, of a colon in front of a blank, and of a line that is not indented
deeper than its block. In apostrophes, a doubled apostrophe stands for one; in
double quotes, a backslash starts an escape. Line breaks inside are folded: a
single one counts as a space, each further one as itself. A block scalar is
indented, and keeps its line breaks or folds them.
-/

set_option autoImplicit false

namespace BoxScript.Document.Scan

/-- Blanks and line breaks between two parts of a scalar. The texts are in
reverse. -/
structure Gap where
  blanks : List Char := []
  first : Option Char := none
  further : List Char := []
  /-- Whether a line has ended, which can also be by an escape. -/
  newLine : Bool := false

/-- What a gap adds to a scalar, in reverse. -/
def Gap.joint (g : Gap) : List Char :=
  if g.newLine then
    match g.first, g.further with
    | some '\n', [] => [' ']
    | some '\n', further => further
    | some c, further => further ++ [c]
    | none, further => further
  else g.blanks

/-- Reads the blanks and line breaks of a gap. `tabColumn` is where tabs are
allowed on a new line. -/
def readGap (tabColumn : Int) (g : Gap) : Nat → Scan Gap
  | 0 => refuse
  | n + 1 => do
    let c ← peek 0
    if isBlank c then
      require !(g.newLine && c = '\t' && ((← position).column : Int) < tabColumn)
      skip
      need 1
      readGap tabColumn (if g.newLine then g else { g with blanks := c :: g.blanks }) n
    else if isBreak c then
      need 2
      let b ← readLine
      need 1
      let g := if g.newLine then { g with further := b :: g.further }
        else { g with blanks := [], first := some b, newLine := true }
      readGap tabColumn g n
    else return g

/-! ## Plain scalars -/

/-- The characters that end a plain scalar between brackets. -/
def endsInFlow (c : Char) : Bool :=
  c = ',' || c = '?' || c = '[' || c = ']' || c = '\x7b' || c = '\x7d'

/-- Whether a plain scalar ends at a character, given the next one. -/
def endsPlain (inFlow : Bool) (c next : Char) : Bool :=
  (c = ':' && isBlankOrEnd next) || (inFlow && endsInFlow c)

/-- Reads characters of a plain scalar up to a blank. -/
def readPlainRun (inFlow : Bool) (seen : List Char) : Nat → Scan (List Char)
  | 0 => refuse
  | n + 1 => do
    let c ← peek 0
    if isBlankOrEnd c || endsPlain inFlow c (← peek 1) then return seen
    else
      skip
      need 2
      readPlainRun inFlow (c :: seen) n

/-- Reads a plain scalar, given what was read of it and the gap behind that. -/
def readPlain (seen : List Char) (g : Gap) : Nat → Scan (List Char × Gap)
  | 0 => refuse
  | n + 1 => do
    need 4
    let s ← get
    let c ← peek 0
    if s.cursor.atDocumentMarker || c = '#' then return (seen, g)
    else
      let inFlow := 0 < s.flowLevel
      let run ← readPlainRun inFlow [] s.limit
      let (seen, g) := if run.isEmpty then (seen, g) else (run ++ (g.joint ++ seen), {})
      let c ← peek 0
      if isBlank c || isBreak c then
        need 1
        let g ← readGap (s.indent + 1) g s.limit
        if !inFlow && ((← position).column : Int) < s.indent + 1 then return (seen, g)
        else readPlain seen g n
      else return (seen, g)

/-- A plain scalar. If it ended with a line, a key may follow. -/
def plainScalar : Scan Token := do
  let (seen, g) ← readPlain [] {} (← limit)
  if g.newLine then allowKey true
  return .scalar (String.ofList seen.reverse) true

/-! ## Quoted scalars -/

/-- The character that a one-letter escape stands for. -/
def escape? (c : Char) : Option Char :=
  [('0', '\x00'), ('a', '\x07'), ('b', '\x08'), ('t', '\t'), ('\t', '\t'), ('n', '\n'),
    ('v', '\x0b'), ('f', '\x0c'), ('r', '\r'), ('e', '\x1b'), (' ', ' '), ('"', '"'),
    ('\'', '\''), ('\\', '\\'), ('N', '\u0085'), ('_', '\u00a0'), ('L', '\u2028'),
    ('P', '\u2029')].lookup c

/-- The number of hexadecimal digits behind an escape. -/
def escapeDigits? (c : Char) : Option Nat := [('x', 2), ('u', 4), ('U', 8)].lookup c

/-- The value of a hexadecimal digit. -/
def hexDigit? (c : Char) : Option Nat :=
  if '0' ≤ c && c ≤ '9' then some (c.toNat - '0'.toNat)
  else if 'a' ≤ c && c ≤ 'f' then some (c.toNat - 'a'.toNat + 10)
  else if 'A' ≤ c && c ≤ 'F' then some (c.toNat - 'A'.toNat + 10)
  else none

/-- Reads hexadecimal digits on top of a value. -/
def readHex (value : Nat) : Nat → Scan Nat
  | 0 => return value
  | n + 1 => do
    match hexDigit? (← peek 0) with
    | none => refuse
    | some d =>
      skip
      readHex (16 * value + d) n

/-- Reads an escape behind its backslash. -/
def readEscape : Scan Char := do
  let c ← peek 0
  match escapeDigits? c, escape? c with
  | some digits, _ =>
    skip
    need digits
    let value ← readHex 0 digits
    require value.isValidChar
    return Char.ofNat value
  | none, some c =>
    skip
    return c
  | none, none => refuse

/-- Reads characters of a quoted scalar up to a blank or the quote, and whether
the run ends with an escaped line break. -/
def readQuotedRun (single : Bool) (seen : List Char) : Nat → Scan (List Char × Bool)
  | 0 => refuse
  | n + 1 => do
    let c ← peek 0
    let next ← peek 1
    if isBlankOrEnd c then return (seen, false)
    else if single && c = '\'' && next = '\'' then
      skip
      skip
      need 2
      readQuotedRun single ('\'' :: seen) n
    else if c = (if single then '\'' else '"') then return (seen, false)
    else if !single && c = '\\' && isBreak next then
      need 3
      skip
      skipLine
      return (seen, true)
    else if !single && c = '\\' then
      skip
      let c ← readEscape
      need 2
      readQuotedRun single (c :: seen) n
    else
      skip
      need 2
      readQuotedRun single (c :: seen) n

/-- Reads a quoted scalar up to its quote. -/
def readQuoted (single : Bool) (seen : List Char) : Nat → Scan (List Char)
  | 0 => refuse
  | n + 1 => do
    need 4
    let s ← get
    require (!s.cursor.atDocumentMarker && !isEnd (s.cursor.peek 0))
    let (seen, escaped) ← readQuotedRun single seen s.limit
    need 1
    if (← peek 0) = (if single then '\'' else '"') then return seen
    else
      let g ← readGap 0 { newLine := escaped } s.limit
      readQuoted single (g.joint ++ seen) n

def quotedScalar (single : Bool) : Scan Token := do
  skip
  let seen ← readQuoted single [] (← limit)
  skip
  return .scalar (String.ofList seen.reverse) false

/-! ## Block scalars -/

/-- How line breaks at the end of a block scalar are kept. -/
inductive Chomping where
  | strip
  | clip
  | keep
deriving DecidableEq

def readChomping : Scan (Option Chomping) := do
  match ← peek 0 with
  | '+' =>
    skip
    need 1
    return some .keep
  | '-' =>
    skip
    need 1
    return some .strip
  | _ => return none

/-- Reads how much deeper than its block a block scalar is indented. -/
def readIncrement : Scan (Option Nat) := do
  let c ← peek 0
  if '0' ≤ c && c ≤ '9' then
    require (c ≠ '0')
    skip
    need 1
    return some (c.toNat - '0'.toNat)
  else return none

/-- Reads the header of a block scalar: both parts may be missing, in either order. -/
def readHeader : Scan (Chomping × Option Nat) := do
  match ← readChomping with
  | some chomping => return (chomping, ← readIncrement)
  | none =>
    let increment ← readIncrement
    return ((← readChomping).getD .clip, increment)

/-- Whether a column lies in front of an indent, which need not be known. -/
def isBefore (column : Nat) : Option Nat → Bool
  | none => true
  | some indent => column < indent

/-- Moves past the spaces of an indentation. -/
def skipIndentation (indent : Option Nat) : Nat → Scan Unit
  | 0 => refuse
  | n + 1 => do
    if isBefore (← position).column indent && (← peek 0) = ' ' then
      skip
      need 1
      skipIndentation indent n

/-- Reads empty lines and the indentation behind them. Without a given indent
any number of spaces is taken, and the most of them is given with the breaks. -/
def readEmptyLines (indent : Option Nat) (most : Nat) (breaks : List Char) :
    Nat → Scan (Nat × List Char)
  | 0 => refuse
  | n + 1 => do
    need 1
    skipIndentation indent (← limit)
    let column := (← position).column
    let c ← peek 0
    require !(isBefore column indent && c = '\t')
    let most := max most column
    if isBreak c then
      need 2
      let b ← readLine
      readEmptyLines indent most (b :: breaks) n
    else return (most, breaks)

/-- What lies between two lines of a block scalar. -/
structure LineEnd where
  first : Option Char := none
  further : List Char := []
  /-- Whether the line before starts with a blank. -/
  blank : Bool := false

/-- What a line end adds in front of a line, in reverse. Folding drops a single
line feed between two lines that do not start with a blank. -/
def LineEnd.joint (e : LineEnd) (literal blank : Bool) : List Char :=
  if !literal && !e.blank && !blank && e.first = some '\n' then
    if e.further.isEmpty then [' '] else e.further
  else e.further ++ e.first.toList

/-- Reads the lines of a block scalar at an indent. -/
def readBlock (literal : Bool) (indent : Nat) (seen : List Char) (e : LineEnd) :
    Nat → Scan (List Char × LineEnd)
  | 0 => refuse
  | n + 1 => do
    let c ← peek 0
    if (← position).column = indent && !isEnd c then
      let seen := e.joint literal (isBlank c) ++ seen
      let seen ← readWhile (fun c => !isBreakOrEnd c) seen (← limit)
      need 2
      let first ← if isBreak (← peek 0) then some <$> readLine else pure none
      let (_, further) ← readEmptyLines (some indent) 0 [] (← limit)
      readBlock literal indent seen { first, further, blank := isBlank c } n
    else return (seen, e)

/-- A block scalar, behind whose last line a key may follow. -/
def blockScalar (literal : Bool) : Scan Token := do
  skip
  need 1
  let (chomping, increment) ← readHeader
  need 1
  skipRestOfLine
  let s ← get
  let given := increment.map fun i => (max s.indent 0).toNat + i
  let (most, breaks) ← readEmptyLines given 0 [] s.limit
  let indent := given.getD (max (max most (s.indent + 1).toNat) 1)
  need 1
  let (seen, e) ← readBlock literal indent [] { further := breaks } s.limit
  let tail := match chomping with
    | .strip => []
    | .clip => e.first.toList
    | .keep => e.further ++ e.first.toList
  return .scalar (String.ofList (tail ++ seen).reverse) false

end BoxScript.Document.Scan
