import BoxScript.Expr.Render

/-!
# Failures of evaluation

A cause says why an expression has no value; its kind is what an embedding
program tells causes apart by. `fatal` is no failure of the evaluated program:
it arises only where the embedding program broke a promise, such as that a
getter's box is a list, and nothing sensible can follow it.
-/

set_option autoImplicit false

namespace BoxScript

/-- The kinds of causes. -/
inductive CauseKind where
  | undefined
  | noGetter
  | tooManyArguments
  | missingArgument
  | unsupported
  | unknownNode
  | index
  | type
  | sealed
  | divideByZero
  | other
deriving DecidableEq, Repr

inductive Cause where
  /-- No variable of that name. -/
  | undefined (name : String)
  /-- The argument book, shown, has no getter to bind a parameter by. -/
  | noGetter (param shown : String)
  | tooManyArguments (takes got : Nat)
  /-- The first parameter without an argument. -/
  | missingArgument (param : String)
  /-- A native routine was given the wrong number of arguments. -/
  | argumentCount (routine : String) (takes : Int) (got : Nat)
  /-- A native call names no routine. -/
  | unsupported (name : String)
  /-- An expression that cannot be evaluated, by the name of its kind. -/
  | unknownNode (kind : String)
  | noItem (index : Int64) (size : Nat)
  /-- The key, shown, that a dictionary does not have. -/
  | noEntry (shown : String)
  /-- An argument of a routine has the wrong kind. -/
  | argumentType (routine : String) (position : Nat) (wanted : String)
  /-- Wrong kind of argument, without details. -/
  | wrongType
  | sealed (name : String)
  | divideByZero
  /-- A failure of the embedding program, in its own words. -/
  | other (message : String)
deriving DecidableEq, Repr

namespace Cause

def kind : Cause → CauseKind
  | .undefined _ => .undefined
  | .noGetter _ _ => .noGetter
  | .tooManyArguments _ _ => .tooManyArguments
  | .missingArgument _ => .missingArgument
  | .argumentCount _ takes got => if takes < got then .tooManyArguments else .missingArgument
  | .unsupported _ => .unsupported
  | .unknownNode _ => .unknownNode
  | .noItem _ _ => .index
  | .noEntry _ => .index
  | .argumentType _ _ _ => .type
  | .wrongType => .type
  | .sealed _ => .sealed
  | .divideByZero => .divideByZero
  | .other _ => .other

/-- What causes of a kind have in common. -/
def headline : CauseKind → String
  | .undefined => "variable not found"
  | .noGetter => "argument has no get capability"
  | .tooManyArguments => "too many arguments"
  | .missingArgument => "missing argument"
  | .unsupported => "unsupported external call"
  | .unknownNode => "unknown expression kind"
  | .index => "no such index"
  | .type => "wrong argument type"
  | .sealed => "cannot assign to sealed box"
  | .divideByZero => "integer division by zero"
  | .other => ""

/-- What is particular to a cause. -/
def detail : Cause → Option String
  | .undefined name => some name
  | .noGetter param shown => some ("cannot bind " ++ param ++ " from " ++ shown)
  | .tooManyArguments takes got =>
    some ("method takes " ++ toString takes ++ ", got " ++ toString got)
  | .missingArgument param => some param
  | .argumentCount routine takes got =>
    some (routine ++ " takes " ++ toString takes ++ ", got " ++ toString got)
  | .unsupported name => some (Quoted.text (Utf8.encode name))
  | .unknownNode kind => some kind
  | .noItem index size =>
    some (toString index.toInt ++ " not in list of size " ++ toString size)
  | .noEntry shown => some ("key " ++ shown ++ " not in dictionary")
  | .argumentType routine position wanted =>
    some ("argument " ++ toString position ++ " to " ++ routine ++ " must be " ++ wanted)
  | .wrongType => none
  | .sealed name => some name
  | .divideByZero => none
  | .other _ => none

/-- The cause in words. -/
def message (c : Cause) : String :=
  match c, c.detail with
  | .other text, _ => text
  | _, some detail => headline c.kind ++ ": " ++ detail
  | _, none => headline c.kind

end Cause

/-- Why a native routine or a step of evaluation did not go on. -/
inductive Failure where
  | cause (c : Cause)
  | fatal

/-- An expression that failed, and why. -/
structure EvalError where
  expr : Expr
  cause : Cause

namespace EvalError

/-- The text of the expression that failed; a missing one has none. -/
def place? (e : EvalError) : Option String :=
  match e.expr with
  | .hole => none
  | expr => some expr.render

/-- The failure in words. -/
def message (e : EvalError) : String :=
  match e.place? with
  | none => e.cause.message
  | some place => e.cause.message ++ " (in " ++ place ++ ")"

end EvalError

end BoxScript
