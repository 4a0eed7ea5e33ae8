import BoxScript.Document.Node

/-!
# What scalars stand for

The kind of an open scalar shows in its text: it is null, a truth value, a
number or a text. A tag can ask for one of these kinds, and then a text of
another kind is refused; a tag that asks for none of them makes the scalar a
text, and so do quotes.
-/

set_option autoImplicit false

namespace BoxScript.Document

inductive Value where
  | null
  | bool (b : Bool)
  /-- An integer, and whether it has a sign bit to spare. -/
  | integer (isSigned : Bool)
  | real
  | text
deriving DecidableEq, Repr

namespace Value

def nulls : List String := ["", "~", "null", "Null", "NULL"]

def truths : List String :=
  ["y", "Y", "yes", "Yes", "YES", "true", "True", "TRUE", "on", "On", "ON"]

def falsehoods : List String :=
  ["n", "N", "no", "No", "NO", "false", "False", "FALSE", "off", "Off", "OFF"]

def namedReals : List String :=
  [".nan", ".NaN", ".NAN", ".inf", ".Inf", ".INF", "+.inf", "+.Inf", "+.INF", "-.inf", "-.Inf",
    "-.INF"]

/-- The value of digits in a base, if they all belong to it. -/
def digits? (base : Nat) (digits : List Char) : Option Nat :=
  digits.foldl (fun n c =>
    match n, Scan.hexDigit? c with
    | some n, some d => if d < base then some (base * n + d) else none
    | _, _ => none) (some 0)

/-- The size of an integer without its sign. A leading zero makes it octal,
unless a letter behind it states the base. -/
def size? : List Char → Option Nat
  | [] => none
  | ['0'] => some 0
  | '0' :: mark :: digits =>
    if digits.isEmpty then digits? 8 [mark]
    else match mark.toLower with
      | 'b' => digits? 2 digits
      | 'o' => digits? 8 digits
      | 'x' => digits? 16 digits
      | _ => digits? 8 (mark :: digits)
  | digits => digits? 10 digits

/-- Whether an integer, given its signs and its size, fits into 64 bits, and
whether it does so with a sign. -/
def fit? (size : Nat) : List Char → Option Value
  | [] =>
    if size < Int64.maxValue.toInt.toNat + 1 then some (.integer true)
    else if size < UInt64.size then some (.integer false)
    else none
  | ['-'] => if size ≤ Int64.maxValue.toInt.toNat + 1 then some (.integer true) else none
  | _ => if size ≤ Int64.maxValue.toInt.toNat then some (.integer true) else none

def isSign (c : Char) : Bool := c = '+' || c = '-'

/-- The integer that a text writes. -/
def integer? (text : List Char) : Option Value :=
  let sign := (text.take 1).filter isSign
  match size? (text.drop sign.length) with
  | none => none
  | some size => fit? size sign

/-- Whether a text is empty or an exponent. -/
def isExponent : List Char → Bool
  | [] => true
  | e :: rest =>
    let digits := rest.drop ((rest.take 1).filter isSign).length
    (e = 'e' || e = 'E') && !digits.isEmpty && digits.all Char.isDigit

/-- Whether a text is a decimal with an optional point and exponent. -/
def isDecimal (text : List Char) : Bool :=
  let (whole, rest) := (text.drop ((text.take 1).filter isSign).length).span Char.isDigit
  match rest with
  | '.' :: rest =>
    let (places, rest) := rest.span Char.isDigit
    !(whole.isEmpty && places.isEmpty) && isExponent rest
  | _ => !whole.isEmpty && isExponent rest

/-- The number that a text writes. Underscores may stand anywhere behind its
first character, unless that is a point. -/
def number? (text : List Char) : Option Value :=
  match text with
  | [] => none
  | c :: _ =>
    if c = '.' then if isDecimal text then some .real else none
    else if c.isDigit || isSign c then
      let text := text.filter (· ≠ '_')
      match integer? text with
      | some value => some value
      | none => if isDecimal text then some .real else none
    else none

/-- What the text of an open scalar stands for. -/
def ofText (text : String) : Value :=
  if nulls.contains text then .null
  else if truths.contains text then .bool true
  else if falsehoods.contains text then .bool false
  else if namedReals.contains text then .real
  else (number? text.toList).getD .text

/-- Whether a tag asks for a value. A real may be written as an integer. -/
def isAskedBy (tag : String) : Value → Bool
  | .null => tag = "null"
  | .bool _ => tag = "bool"
  | .integer isSigned => tag = "int" || (tag = "float" && isSigned)
  | .real => tag = "float"
  | .text => false

/-- The tags of the kinds. -/
def kinds : List String := ["null", "bool", "int", "float"]

/-- The tags of kinds that no setting has. -/
def otherKinds : List String := ["binary", "timestamp"]

/-- A tag in full, by its name. -/
def tagOf (name : String) : Bytes := Utf8.encode ("tag:yaml.org,2002:" ++ name)

/-- What a scalar stands for. -/
def ofScalar? (tag : Bytes) (isOpen : Bool) (text : String) : Option Value :=
  if tag.isEmpty then some (if isOpen then ofText text else .text)
  else if otherKinds.any fun name => tag = tagOf name then none
  else
    match kinds.find? fun name => tag = tagOf name with
    | none => some .text
    | some name => if (ofText text).isAskedBy name then some (ofText text) else none

end Value

end BoxScript.Document
