import BoxScript.Console.History
import BoxScript.Machine.Run
import BoxScript.Heap.Initial
import BoxScript.Settings.Basic
import BoxScript.Source.Reader
import BoxScript.Text.Blank

/-!
# The interactive loop

Lines are gathered until they parse or fail for another reason than that the
source ended too early. The statement is then evaluated, and its value or its
error is printed. Blank statements are skipped, and `:quit` ends the loop.
-/

set_option autoImplicit false

namespace BoxScript.Console

/-- A heap with the box that programs are evaluated against, and what has been
printed. -/
structure Screen where
  heap : Heap
  root : Ref
  out : String := ""
  err : String := ""

/-- A heap of its own and nothing printed. -/
def Screen.initial : Screen :=
  let (heap, root) := Heap.initial.newBox
  { heap, root }

def Screen.print (s : Screen) (text : String) : Screen := { s with out := s.out ++ text }

def Screen.complain (s : Screen) (text : String) : Screen := { s with err := s.err ++ text }

/-- Why a source has no value. -/
inductive RunError where
  | parse (e : Source.ParseError)
  | eval (e : EvalError)
  /-- The evaluation has no end that could be reported. -/
  | fatal

def RunError.message : RunError → String
  | .parse e => e.message
  | .eval e => e.message
  | .fatal => "fatal error"

/-- Evaluates a source against the root. -/
def Screen.run (s : Screen) (source : Bytes) : Screen × Except RunError Ref :=
  match Source.parseProgram source with
  | .error e => (s, .error (.parse e))
  | .ok program =>
    let ⟨heap, root, out, err⟩ := s
    let result := evaluate Host.plain ampleFuel heap () (some root) program
    let s : Screen := ⟨result.heap, root, out, err⟩
    match result.outcome with
    | .value r => (s, .ok r)
    | .failed e => (s, .error (.eval e))
    | _ => (s, .error .fatal)

/-- Evaluates a source and prints its value or its error. -/
def Screen.answer (s : Screen) (source : Bytes) : Screen :=
  match s.run source with
  | (s, .ok r) => s.print (s.heap.display r ++ "\n")
  | (s, .error e) => s.complain (e.message ++ "\n")

/-- Whether more lines might complete a source. -/
def wantsMore (source : Bytes) : Bool :=
  match Source.parse source with
  | .ok _ => false
  | .error e => e.incomplete

/-- A statement on one line. -/
def oneLine (statement : Bytes) : Bytes :=
  statement.map fun b => if b == lineFeed then 0x20 else b

def quitCommand : Bytes := Utf8.encode ":quit"

/-- Adds a line to those gathered. -/
def joinLine (gathered line : Bytes) : Bytes :=
  if gathered.isEmpty then line else gathered ++ lineFeed :: line

/-- The loop over the lines still to come, with those gathered for the current
statement. Where the continuation prompt cannot be shown, a statement that
wants more is given up. -/
def loop (settings : Settings) (s : Screen) (history : History) (gathered : Bytes) :
    List Line → Screen × History
  | [] =>
    let prompt := if gathered.isEmpty then settings.prompt else settings.continuation
    (s.print (prompt ++ "\n"), history)
  | line :: rest =>
    let prompt := if gathered.isEmpty then settings.prompt else settings.continuation
    let s := s.print prompt
    let statement := joinLine gathered line.bytes
    if wantsMore statement then
      let gathered := if isPromptable settings.continuation then statement else []
      loop settings s history gathered rest
    else
      let core := trimBlank statement
      if core.isEmpty then loop settings s history [] rest
      else if core = quitCommand then (s, history)
      else loop settings (s.answer statement) (history.append (oneLine statement)) [] rest

/-- The line that greets. -/
def banner (platform : String) : String := "holo on " ++ platform ++ "; :quit to exit\n"

/-- The interactive loop on an input. -/
def repl (settings : Settings) (platform : String) (s : Screen) (history : History)
    (input : Bytes) : Screen × History :=
  loop settings (s.print (banner platform)) history [] (lines input)

end BoxScript.Console
