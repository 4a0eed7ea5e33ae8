import BoxScript.Console.Files
import BoxScript.Console.Options
import BoxScript.Console.Repl

/-!
# The command

The command reads its options and settings, runs the given files one after the
other against one root, and then prints the value of the given source. With
neither files nor a source it is interactive. It stops at the first failure.
Log lines are not part of what it prints.
-/

set_option autoImplicit false

namespace BoxScript.Console

/-- What the command finds around it. -/
structure Surroundings where
  entry : String → Entry
  input : Bytes
  home : String
  platform : String

/-- What the command leaves behind: its exit code, what it printed, and the
contents of a history file, if it keeps one. -/
structure Report where
  exitCode : Nat
  out : String := ""
  err : String := ""
  history : Option (String × Bytes) := none

/-- The contents of a file, or why there are none. -/
def Surroundings.read (around : Surroundings) (path : String) : Except String Bytes :=
  match around.entry path with
  | .file contents => .ok contents
  | .directory => .error ("read " ++ path ++ ": is a directory")
  | .absent why => .error ("open " ++ path ++ ": " ++ why.message)

/-- The settings that the options ask for. -/
def settings (around : Surroundings) (options : Options) : Except String Settings :=
  if options.configPath = "" then .ok Settings.default
  else match around.read options.configPath with
    | .error e => .error e
    | .ok source =>
      match Settings.read? source with
      | some settings => .ok settings
      | none => .error ("couldn't parse config " ++ options.configPath ++ ": yaml: not settings")

/-- Tracing asked for on the command line also lowers the log level. -/
def withOptions (settings : Settings) (options : Options) : Settings :=
  if options.debug then { settings with debug := true, logLevel := "debug" } else settings

/-- Runs the files in order. -/
def runFiles (around : Surroundings) (s : Screen) : List String → Screen × Bool
  | [] => (s, true)
  | path :: paths =>
    match around.read path with
    | .error e => (s.complain (e ++ "\n"), false)
    | .ok source =>
      match s.run source with
      | (s, .ok _) => runFiles around s paths
      | (s, .error e) => (s.complain (path ++ ":" ++ e.message ++ "\n"), false)

/-- Runs the files and then the source. -/
def runSources (around : Surroundings) (options : Options) : Report :=
  match runFiles around Screen.initial options.files with
  | (s, false) => { exitCode := 1, out := s.out, err := s.err }
  | (s, true) =>
    if options.source = "" then { exitCode := 0, out := s.out, err := s.err }
    else match s.run (Utf8.encode options.source) with
      | (s, .ok r) => { exitCode := 0, out := s.out ++ s.heap.display r ++ "\n", err := s.err }
      | (s, .error e) => { exitCode := 1, out := s.out, err := s.err ++ e.message ++ "\n" }

/-- The history that a file holds. What is no file holds none. -/
def oldHistory (around : Surroundings) (path : String) : History :=
  match around.entry path with
  | .file contents => History.read contents
  | _ => []

/-- Runs the interactive loop. -/
def runInteractive (around : Surroundings) (settings : Settings) : Report :=
  let path := settings.historyPath around.home
  let old := if path = "" then [] else oldHistory around path
  let (s, history) := repl settings around.platform Screen.initial old around.input
  { exitCode := 0, out := s.out, err := s.err
    history := if path = "" then none else some (path, history.write) }

/-- Runs the command. -/
def command (around : Surroundings) (arguments : List String) : Report :=
  match Options.read arguments with
  | .error e => { exitCode := e.exitCode, err := e.message }
  | .ok options =>
    match settings around options with
    | .error e => { exitCode := 2, err := e ++ "\n" }
    | .ok settings =>
      let settings := withOptions settings options
      match settings.level with
      | .error e =>
        { exitCode := 2, err := "bad log level: " ++ e.message settings.logLevel ++ "\n" }
      | .ok _ =>
        if options.interactive then runInteractive around settings
        else runSources around options

end BoxScript.Console
