import BoxScript.Expr.Basic
import BoxScript.Text.Quoted
import BoxScript.Number.Real

/-!
# Expressions as text

`render` writes an expression as source text, up to spacing: texts are quoted
with escapes, a list argument brings its own parentheses, and what has no
source form is written between angle brackets.
The text of a hole is empty; only complete expressions are shown to anyone.
-/

set_option autoImplicit false

namespace BoxScript.Expr

/-- What follows the header of a method and makes up a plain box. -/
def braced (body : Option String) : String :=
  match body with
  | none => "\x7b\x7d"
  | some inner => "\x7b " ++ inner ++ " \x7d"

/-- Items between parentheses. -/
def tuple (items : List String) : String := "(" ++ ", ".intercalate items ++ ")"

mutual

/-- The text of an expression. -/
def render : Expr → String
  | .sequence es => " ".intercalate (renderStatements es)
  | .name n => n
  | .member target n => target.render ++ "." ++ n
  | .assign n value => n ++ " = " ++ value.render
  | .assignMember target n value => target.render ++ "." ++ n ++ " = " ++ value.render
  | .call target (.list items) => target.render ++ tuple (renderItems items)
  | .call target argument => target.render ++ "(" ++ argument.render ++ ")"
  | .box body => braced (renderBody body)
  | .method params body => tuple params ++ " " ++ braced (renderBody body)
  | .text bytes => Quoted.text bytes
  | .integer value => toString value.toInt
  | .real value => Real.text value
  | .list items => tuple (renderItems items)
  | .native n _ => if n = "" then "<native>" else "<native " ++ n ++ ">"
  | .held _ => "<const>"
  | .foreign _ shown => shown
  | .hole => ""

def renderStatements : List Expr → List String
  | [] => []
  | e :: es => (e.render ++ ";") :: renderStatements es

def renderItems : List Expr → List String
  | [] => []
  | e :: es => e.render :: renderItems es

def renderBody : Option Expr → Option String
  | none => none
  | some e => some e.render

end

end BoxScript.Expr
