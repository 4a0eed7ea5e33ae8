import BoxScript.Expr.Render

/-!
# Errors in source text

Reading stops at the first fault. While reading, a fault carries how many
bytes of the source are left at the offending place; `locate` turns that into
an offset, a line and a column, all counted in bytes. A fault is incomplete
if all source had been read when it was found, so that more input might help.
-/

set_option autoImplicit false

namespace BoxScript.Source

/-- Why a number with well-placed digits has no value. -/
inductive Malformed where
  | outOfRange
  | twoPoints

/-- What is wrong. A byte that was found instead of what was expected is
given as `got`, and nothing stands for the end of the source. -/
inductive Cause where
  | unclosedText
  | numberWithoutDigit (got : Option UInt8)
  | separatorAfterNonDigit (separator : UInt8)
  | trailingUnderscore
  | malformedNumber (literal : Bytes) (why : Malformed)
  | notAssignable (e : Expr)
  | notParameter (e : Expr)
  | missingSemicolon (got : Option UInt8)
  | missingListEnd (got : Option UInt8)
  | missingBrace (got : Option UInt8)
  | missingName (got : Option UInt8)
  | missingExpression
  | unexpected (got : Option UInt8)
  /-- The reader's allowance of steps ran out. `parse` allots enough for every
  source. -/
  | outOfFuel

/-- A fault with the number of bytes from its place to the end. -/
structure Fault where
  remaining : Nat
  incomplete : Bool
  cause : Cause

/-- A fault found with the bytes `s` still to read. -/
def Fault.at (s : Bytes) (cause : Cause) : Fault := ⟨s.length, s.isEmpty, cause⟩

/-- A fault at an earlier place, found with the bytes `s` still to read. -/
def Fault.since (start s : Bytes) (cause : Cause) : Fault := ⟨start.length, s.isEmpty, cause⟩

/-- The text of what was found. -/
def describe : Option UInt8 → String
  | none => "end of input"
  | some b => Quoted.byte b

def Malformed.message : Malformed → String
  | .outOfRange => "value out of range"
  | .twoPoints => "invalid syntax"

def Cause.message : Cause → String
  | .unclosedText => "expected end of string, got end of input"
  | .numberWithoutDigit got => "expected digit to start number, got " ++ describe got
  | .separatorAfterNonDigit c => "expected digit before " ++ Quoted.byte c ++ " in number"
  | .trailingUnderscore => "trailing underscore in number"
  | .malformedNumber literal why =>
    "malformed number " ++ Utf8.ascii literal ++ ": " ++ why.message
  | .notAssignable e => "cannot assign to " ++ e.render
  | .notParameter e => "invalid parameter list: " ++ e.render ++ " is not a name"
  | .missingSemicolon got => "expected ';' before next expression, got " ++ describe got
  | .missingListEnd got => "expected ',' or ')', got " ++ describe got
  | .missingBrace got => "expected '\x7d', got " ++ describe got
  | .missingName got => "expected identifier, got " ++ describe got
  | .missingExpression => "expected expression, got end of input"
  | .unexpected got => "unexpected " ++ describe got
  | .outOfFuel => "source too long to read"

/-- An error at a place of a source. Offsets start at 0, lines and columns at 1. -/
structure ParseError where
  offset : Nat
  line : Nat
  column : Nat
  cause : Cause
  incomplete : Bool

def newline : UInt8 := 0x0A

/-- The place of a fault in its source. -/
def Fault.locate (source : Bytes) (fault : Fault) : ParseError :=
  let offset := source.length - fault.remaining
  let before := source.take offset
  { offset
    line := before.count newline + 1
    column := (before.reverse.takeWhile (· != newline)).length + 1
    cause := fault.cause
    incomplete := fault.incomplete }

/-- The error as it is shown: line, column and what is wrong. -/
def ParseError.message (e : ParseError) : String :=
  toString e.line ++ ":" ++ toString e.column ++ ": " ++ e.cause.message

end BoxScript.Source
