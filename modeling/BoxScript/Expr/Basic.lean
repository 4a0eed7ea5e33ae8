import BoxScript.Text.Utf8

/-!
# Expressions

A program is a tree of expressions. Source text only yields the first eleven
kinds. The others come from the program that embeds the language: calls of
native routines, boxes put into a tree directly, expressions of a kind the
evaluator does not know, and holes where an expression is missing.
-/

set_option autoImplicit false

namespace BoxScript

/-- The identity of a box: how many boxes were made before it. -/
abbrev Ref := Nat

/-- What a native call runs. -/
inductive Routine where
  | add
  | sub
  | mul
  | div
  | less
  | equal
  /-- The selection `if`. -/
  | select
  | concat
  | length
  | upper
  | lower
  | join
  /-- The getter of a list. -/
  | item (list : Ref)
  /-- The getter of a dictionary. -/
  | entry (dictionary : Ref)
  /-- A function of the embedding program, known to it by a key. -/
  | host (key : String)
deriving DecidableEq, Repr

inductive Expr where
  /-- Expressions in order; the value is that of the last one. -/
  | sequence (exprs : List Expr)
  /-- A name looked up on the active target. -/
  | name (name : String)
  /-- A variable of the target's value. -/
  | member (target : Expr) (name : String)
  /-- A binding on the active target. -/
  | assign (name : String) (value : Expr)
  /-- A binding on the target's value. -/
  | assignMember (target : Expr) (name : String) (value : Expr)
  /-- A call of the target's method with an argument book. -/
  | call (target argument : Expr)
  /-- A new box, with the body evaluated against it. -/
  | box (body : Option Expr)
  /-- A new box with a method. -/
  | method (params : List String) (body : Option Expr)
  | text (bytes : Bytes)
  | integer (value : Int64)
  | real (value : Float)
  | list (items : List Expr)
  /-- A native call on the arguments of the active target. Without a routine
  of its own, the name decides what runs. -/
  | native (name : String) (routine : Option Routine)
  /-- A box that already exists. -/
  | held (box : Ref)
  /-- An expression of a foreign kind, shown by a text of its own. -/
  | foreign (kind shown : String)
  /-- A missing expression. -/
  | hole
deriving Inhabited

namespace Expr

/-- The expression for a parsed sequence: none for no expression, the only
one, or all of them in order. -/
def ofList : List Expr → Option Expr
  | [] => none
  | [e] => some e
  | es => some (.sequence es)

mutual

/-- Whether an expression has no hole in it, so that it has a text. -/
def complete : Expr → Bool
  | .sequence es => completeAll es
  | .name _ => true
  | .member target _ => target.complete
  | .assign _ value => value.complete
  | .assignMember target _ value => target.complete && value.complete
  | .call target argument => target.complete && argument.complete
  | .box body => completeBody body
  | .method _ body => completeBody body
  | .text _ => true
  | .integer _ => true
  | .real _ => true
  | .list items => completeAll items
  | .native _ _ => true
  | .held _ => true
  | .foreign _ _ => true
  | .hole => false

def completeAll : List Expr → Bool
  | [] => true
  | e :: es => e.complete && completeAll es

def completeBody : Option Expr → Bool
  | none => true
  | some e => e.complete

end

end Expr

end BoxScript
