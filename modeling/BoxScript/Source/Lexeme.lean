import BoxScript.Source.Fault
import BoxScript.Number.Decimal

/-!
# Lexemes

Names, quoted texts and numbers are cut off the front of the remaining source.
A text runs to the next quote of its own kind, without escapes. A number is an
optional sign and a run of digits, points and underscores, taken as long as it
goes: it starts with a digit, has a digit before each point and underscore,
and does not end in an underscore. With a point it is real.
-/

set_option autoImplicit false

namespace BoxScript.Source

def isSpace (b : UInt8) : Bool := b == 0x20 || (0x09 ≤ b && b ≤ 0x0D)

def isDigit (b : UInt8) : Bool := 0x30 ≤ b && b ≤ 0x39

/-- A letter or an underscore. -/
def startsName (b : UInt8) : Bool :=
  (0x61 ≤ b && b ≤ 0x7A) || (0x41 ≤ b && b ≤ 0x5A) || b == 0x5F

def continuesName (b : UInt8) : Bool := startsName b || isDigit b

def plus : UInt8 := 0x2B
def minus : UInt8 := 0x2D
def point : UInt8 := 0x2E
def underscore : UInt8 := 0x5F
def doubleQuote : UInt8 := 0x22
def apostrophe : UInt8 := 0x27

def isSign (b : UInt8) : Bool := b == plus || b == minus

def isSeparator (b : UInt8) : Bool := b == point || b == underscore

def isQuote (b : UInt8) : Bool := b == doubleQuote || b == apostrophe

/-- The source from its next byte that is not blank. -/
def skipSpace (s : Bytes) : Bytes := s.dropWhile isSpace

/-- The name at the front. -/
def name (s : Bytes) : Except Fault (String × Bytes) :=
  match s with
  | [] => .error (.at s (.missingName none))
  | b :: _ =>
    if startsName b then
      let (letters, rest) := s.span continuesName
      .ok (Utf8.ascii letters, rest)
    else .error (.at s (.missingName (some b)))

/-- The contents of the text whose opening quote was just read. -/
def quotedText (quote : UInt8) (s : Bytes) : Except Fault (Bytes × Bytes) :=
  match s.span (· != quote) with
  | (contents, _ :: rest) => .ok (contents, rest)
  | (_, []) => .error ⟨s.length + 1, true, .unclosedText⟩

/-- The end of a number in front of `s`. `seen` holds its bytes in reverse,
`last` the last of them. -/
def numberEnd (seen : Bytes) (last : UInt8) (s : Bytes) : Except Fault (Bytes × Bytes) :=
  if last == underscore then .error ⟨s.length + 1, s.isEmpty, .trailingUnderscore⟩
  else .ok (seen.reverse, s)

/-- The rest of a number behind its first digit. `seen` holds the bytes read
so far in reverse, `last` the last of them. -/
def numberTail (seen : Bytes) (last : UInt8) : Bytes → Except Fault (Bytes × Bytes)
  | [] => numberEnd seen last []
  | b :: rest =>
    if isDigit b then numberTail (b :: seen) b rest
    else if isSeparator b then
      if isDigit last then numberTail (b :: seen) b rest
      else .error (.at (b :: rest) (.separatorAfterNonDigit b))
    else numberEnd seen last (b :: rest)

/-- The digits and separators of a number behind its sign. -/
def unsignedNumber (s : Bytes) : Except Fault (Bytes × Bytes) :=
  match s with
  | [] => .error (.at s (.numberWithoutDigit none))
  | b :: rest =>
    if isDigit b then numberTail [b] b rest
    else .error (.at s (.numberWithoutDigit (some b)))

/-- A number as it is written, with its sign and underscores. -/
def numberLexeme (s : Bytes) : Except Fault (Bytes × Bytes) :=
  match s with
  | b :: rest =>
    if isSign b then
      match unsignedNumber rest with
      | .ok (digits, after) => .ok (b :: digits, after)
      | .error fault => .error fault
    else unsignedNumber s
  | [] => unsignedNumber s

/-- The number that decimal digits spell. -/
def digitsValue (digits : Bytes) : Nat :=
  digits.foldl (fun n b => 10 * n + (b.toNat - 0x30)) 0

/-- Splits a sign off a number. -/
def splitSign (literal : Bytes) : Bool × Bytes :=
  match literal with
  | b :: rest =>
    if b == minus then (true, rest) else if b == plus then (false, rest) else (false, literal)
  | [] => (false, [])

/-- The value of a number. Underscores do not count. -/
def numberValue (literal : Bytes) : Except Malformed Expr :=
  let (negative, body) := splitSign (literal.filter (· != underscore))
  match body.span (· != point) with
  | (digits, []) =>
    let n := digitsValue digits
    let value : Int := if negative then -n else n
    if Int64.minValue.toInt ≤ value ∧ value ≤ Int64.maxValue.toInt then
      .ok (.integer (Int64.ofInt value))
    else .error .outOfRange
  | (whole, _ :: places) =>
    if places.contains point then .error .twoPoints
    else match Decimal.toReal? negative (digitsValue (whole ++ places)) places.length with
      | some x => .ok (.real x)
      | none => .error .outOfRange

/-- The number at the front. One without a value is never incomplete. -/
def number (s : Bytes) : Except Fault (Expr × Bytes) :=
  match numberLexeme s with
  | .error fault => .error fault
  | .ok (literal, rest) =>
    match numberValue literal with
    | .ok e => .ok (e, rest)
    | .error why => .error ⟨s.length, false, .malformedNumber literal why⟩

end BoxScript.Source
