import BoxScript.Document.Scalar

/-!
# Directives, anchors and tags

A directive is a line that starts with a percent sign and states the version of
the format or what a tag handle stands for. An anchor names a node and an alias
repeats it. A tag gives the kind of a node, either in full between angle
brackets or behind a handle, such as `!!`.
-/

set_option autoImplicit false

namespace BoxScript.Document.Scan

/-- The characters of names. -/
def isWord (c : Char) : Bool := c.isAlphanum || c = '_' || c = '-'

/-! ## Anchors -/

/-- The characters that may directly follow a name. -/
def endsName (c : Char) : Bool :=
  isBlankOrEnd c || "?:,]%@".toList.contains c || c = '\x7d' || c.toNat = 0x60

/-- Reads the name of an anchor or alias behind its mark. -/
def readName : Scan String := do
  skip
  need 1
  let name ← textWhile isWord
  require (name ≠ "" && endsName (← peek 0))
  return name

/-! ## Tags -/

/-- Reads a byte that is written as a percent sign and two digits. -/
def readOctet : Scan UInt8 := do
  need 3
  require ((← peek 0) = '%')
  match hexDigit? (← peek 1), hexDigit? (← peek 2) with
  | some a, some b =>
    skip
    skip
    skip
    return UInt8.ofNat (16 * a + b)
  | _, _ => refuse

/-- Reads the later bytes of a character. -/
def readTail (seen : Bytes) : Nat → Scan Bytes
  | 0 => return seen
  | n + 1 => do
    let b ← readOctet
    require (Utf8.isTail b)
    readTail (b :: seen) n

/-- The characters of tags. -/
def isTagChar (c : Char) : Bool := isWord c || ";/?:@&=+$,.!~*'()[]".toList.contains c

/-- Reads the bytes of a tag, given what was read of it in reverse. -/
def readTagBytes (seen : Bytes) : Nat → Scan Bytes
  | 0 => refuse
  | n + 1 => do
    let c ← peek 0
    if c = '%' then
      let b ← readOctet
      match announcedWidth b with
      | none => refuse
      | some width =>
        let seen ← readTail (b :: seen) (width - 1)
        need 1
        readTagBytes seen n
    else if isTagChar c then
      skip
      need 1
      readTagBytes (UInt8.ofNat c.toNat :: seen) n
    else return seen.reverse

/-- Reads a part of a tag that may not be empty. -/
def readTagPart : Scan Bytes := do
  need 1
  let part ← readTagBytes [] (← limit)
  require !part.isEmpty
  return part

/-- Reads an exclamation mark and the word behind it, and whether another one
closes it. -/
def readHandle : Scan (String × Bool) := do
  need 1
  require ((← peek 0) = '!')
  skip
  need 1
  let word ← textWhile isWord
  if (← peek 0) = '!' then
    skip
    return (word, true)
  else return (word, false)

/-- The text of a handle. -/
def handleText (word : String) (closed : Bool) : String :=
  if closed then "!" ++ word ++ "!" else "!" ++ word

/-- Reads a tag in full, between `!<` and `>`. -/
def readFullTag : Scan Token := do
  skip
  skip
  let tag ← readTagPart
  require ((← peek 0) = '>')
  skip
  return .tag "" tag

/-- Reads a tag with a handle. A lone `!` is a tag in full. -/
def readHandledTag : Scan Token := do
  let (word, closed) ← readHandle
  if closed then return .tag (handleText word true) (← readTagPart)
  else
    need 1
    let suffix ← readTagBytes (Utf8.encode word).reverse (← limit)
    if suffix.isEmpty then return .tag "" (Utf8.encode "!") else return .tag "!" suffix

def readTag : Scan Token := do
  need 2
  let t ← if (← peek 1) = '<' then readFullTag else readHandledTag
  need 1
  require (isBlankOrEnd (← peek 0))
  return t

/-! ## Directives -/

/-- Reads a number of one or two digits. -/
def readVersionPart : Scan Nat := do
  need 1
  let digits ← textWhile Char.isDigit
  require (1 ≤ digits.length && digits.length ≤ 2)
  return digits.toList.foldl (fun n c => 10 * n + (c.toNat - '0'.toNat)) 0

def readVersion : Scan Token := do
  need 1
  skipWhile isBlank
  let major ← readVersionPart
  require ((← peek 0) = '.')
  skip
  return .version major (← readVersionPart)

def readTagDirective : Scan Token := do
  need 1
  skipWhile isBlank
  let (word, closed) ← readHandle
  require (closed || word = "")
  need 1
  require (isBlank (← peek 0))
  skipWhile isBlank
  let stem ← readTagPart
  need 1
  require (isBlankOrEnd (← peek 0))
  return .tagDirective (handleText word closed) stem

/-- Reads a directive and the rest of its line. -/
def readDirective : Scan Token := do
  skip
  need 1
  let name ← textWhile isWord
  require (isBlankOrEnd (← peek 0))
  let t ← match name with
    | "YAML" => readVersion
    | "TAG" => readTagDirective
    | _ => refuse
  need 1
  skipRestOfLine
  return t

end BoxScript.Document.Scan
