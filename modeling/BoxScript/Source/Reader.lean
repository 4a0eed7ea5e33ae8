import BoxScript.Source.Lexeme

/-!
# Reading programs

    sequence := { [expr] ';' } [expr]
    expr     := postfix [ '=' expr ]
    postfix  := primary { '.' name | tuple }
    primary  := text | number | name | '{' sequence '}' | tuple [ '{' sequence '}' ]
    tuple    := '(' [ expr { ',' expr } ] ')'

Blanks may stand between lexemes. A tuple behind a postfix expression is a
call. A tuple of bare names in front of a brace is the parameter list of a
method. Only a postfix expression that ends in a name can be assigned to.

All reading functions take an allowance of steps. Between two calls of one of
them at least one byte is read or the grammar is descended by one of four
levels, so four steps for each byte are enough.
-/

set_option autoImplicit false

namespace BoxScript.Source

def semicolon : UInt8 := 0x3B
def equalSign : UInt8 := 0x3D
def comma : UInt8 := 0x2C
def openParen : UInt8 := 0x28
def closeParen : UInt8 := 0x29
def openBrace : UInt8 := 0x7B
def closeBrace : UInt8 := 0x7D

/-- Whether a sequence ends here. At top level any closing bracket ends it, so
that it can be reported. -/
def atClose (top : Bool) : Bytes → Bool
  | [] => true
  | b :: _ => b == closeBrace || (top && b == closeParen)

/-- The names of a parameter list, or the first item that is none. -/
def parameters : List Expr → Except Expr (List String)
  | [] => .ok []
  | .name n :: items =>
    match parameters items with
    | .ok names => .ok (n :: names)
    | .error e => .error e
  | e :: _ => .error e

/-- How a value is assigned to what an expression denotes. -/
def assignTo? : Expr → Option (Expr → Expr)
  | .name n => some (.assign n)
  | .member target n => some (.assignMember target n)
  | _ => none

mutual

/-- Expressions up to the end of a sequence, which is not read. `seen` holds
those already read, in reverse. -/
def sequence (top : Bool) (seen : List Expr) : Nat → Bytes → Except Fault (List Expr × Bytes)
  | 0, s => .error (.at s .outOfFuel)
  | n + 1, s =>
    let s := skipSpace s
    if atClose top s then .ok (seen.reverse, s)
    else if s.head? = some semicolon then sequence top seen n s.tail
    else match expr n s with
      | .error fault => .error fault
      | .ok (e, s) =>
        let s := skipSpace s
        if atClose top s then .ok ((e :: seen).reverse, s)
        else if s.head? = some semicolon then sequence top (e :: seen) n s.tail
        else .error (.at s (.missingSemicolon s.head?))

/-- A postfix expression or an assignment. -/
def expr : Nat → Bytes → Except Fault (Expr × Bytes)
  | 0, s => .error (.at s .outOfFuel)
  | n + 1, s =>
    match primary n s with
    | .error fault => .error fault
    | .ok (e, s) =>
      match suffixes e n s with
      | .error fault => .error fault
      | .ok (e, s) =>
        if s.head? = some equalSign then
          match assignTo? e with
          | none => .error (.at s (.notAssignable e))
          | some assign =>
            match expr n s.tail with
            | .error fault => .error fault
            | .ok (value, s) => .ok (assign value, s)
        else .ok (e, s)

/-- The member accesses and calls behind an expression, up to the next byte
that is neither blank nor part of one. -/
def suffixes (e : Expr) : Nat → Bytes → Except Fault (Expr × Bytes)
  | 0, s => .error (.at s .outOfFuel)
  | n + 1, s =>
    let s := skipSpace s
    if s.head? = some point then
      match name (skipSpace s.tail) with
      | .error fault => .error fault
      | .ok (member, s) => suffixes (.member e member) n s
    else if s.head? = some openParen then
      match tuple n s.tail with
      | .error fault => .error fault
      | .ok (items, s) => suffixes (.call e (.list items)) n s
    else .ok (e, s)

/-- A literal, a name, a box, a list or a method. -/
def primary : Nat → Bytes → Except Fault (Expr × Bytes)
  | 0, s => .error (.at s .outOfFuel)
  | n + 1, s =>
    match skipSpace s with
    | [] => .error (.at [] .missingExpression)
    | b :: rest =>
      if isQuote b then
        match quotedText b rest with
        | .error fault => .error fault
        | .ok (contents, s) => .ok (.text contents, s)
      else if isDigit b || isSign b then number (b :: rest)
      else if startsName b then
        match name (b :: rest) with
        | .error fault => .error fault
        | .ok (found, s) => .ok (.name found, s)
      else if b == openBrace then
        match block n rest with
        | .error fault => .error fault
        | .ok (body, s) => .ok (.box body, s)
      else if b == openParen then
        match tuple n rest with
        | .error fault => .error fault
        | .ok (items, s) =>
          let s := skipSpace s
          if s.head? = some openBrace then
            match parameters items with
            | .error e => .error (.since (b :: rest) s (.notParameter e))
            | .ok params =>
              match block n s.tail with
              | .error fault => .error fault
              | .ok (body, s) => .ok (.method params body, s)
          else .ok (.list items, s)
      else .error (.at (b :: rest) (.unexpected (some b)))

/-- A sequence up to its closing brace, behind the opening one. -/
def block : Nat → Bytes → Except Fault (Option Expr × Bytes)
  | 0, s => .error (.at s .outOfFuel)
  | n + 1, s =>
    match sequence false [] n s with
    | .error fault => .error fault
    | .ok (es, s) =>
      if s.head? = some closeBrace then .ok (Expr.ofList es, s.tail)
      else .error (.at s (.missingBrace s.head?))

/-- The items of a list behind its opening parenthesis. -/
def tuple : Nat → Bytes → Except Fault (List Expr × Bytes)
  | 0, s => .error (.at s .outOfFuel)
  | n + 1, s =>
    let s := skipSpace s
    if s.head? = some closeParen then .ok ([], s.tail) else items [] n s

/-- One or more items and the closing parenthesis. `seen` holds the items
already read, in reverse. -/
def items (seen : List Expr) : Nat → Bytes → Except Fault (List Expr × Bytes)
  | 0, s => .error (.at s .outOfFuel)
  | n + 1, s =>
    match expr n s with
    | .error fault => .error fault
    | .ok (e, s) =>
      let s := skipSpace s
      if s.head? = some comma then items (e :: seen) n s.tail
      else if s.head? = some closeParen then .ok ((e :: seen).reverse, s.tail)
      else .error (.at s (.missingListEnd s.head?))

end

/-- The allowance of steps for a source. -/
def allowance (source : Bytes) : Nat := 4 * source.length + 4

/-- The top-level sequence of a source, or its first fault. -/
def parseFault (source : Bytes) : Except Fault (List Expr) :=
  match sequence true [] (allowance source) source with
  | .error fault => .error fault
  | .ok (es, []) => .ok es
  | .ok (_, b :: rest) => .error (.at (b :: rest) (.unexpected (some b)))

/-- The expressions of a source, or its first error. -/
def parse (source : Bytes) : Except ParseError (List Expr) :=
  match parseFault source with
  | .ok es => .ok es
  | .error fault => .error (fault.locate source)

/-- A source as one expression to evaluate: none for a source without any. -/
def parseProgram (source : Bytes) : Except ParseError (Option Expr) :=
  match parse source with
  | .ok es => .ok (Expr.ofList es)
  | .error e => .error e

end BoxScript.Source
