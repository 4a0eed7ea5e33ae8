import BoxScript.Text.Quoted

/-!
# Options of the command line

Options come before files. An option is written with one dash or two, and its
value behind an equal sign or, for those that need one, as the next argument.
Two dashes alone end the options.
-/

set_option autoImplicit false

namespace BoxScript.Console

structure Options where
  configPath : String := ""
  source : String := ""
  debug : Bool := false
  files : List String := []

inductive OptionError where
  | malformed (argument : String)
  | unknown (name : String)
  | missingValue (name : String)
  | notBool (name value : String)
  /-- The usage was asked for. -/
  | help

def usage : String :=
  "Usage of holo:\n" ++
  "  -config string\n    \tYAML config file\n" ++
  "  -debug\n    \ttrace every evaluation step\n" ++
  "  -e string\n    \tevaluate source and exit\n"

/-- What is printed when the options are not understood. -/
def OptionError.message : OptionError → String
  | .malformed argument => "bad flag syntax: " ++ argument ++ "\n" ++ usage
  | .unknown name => "flag provided but not defined: -" ++ name ++ "\n" ++ usage
  | .missingValue name => "flag needs an argument: -" ++ name ++ "\n" ++ usage
  | .notBool name value =>
    "invalid boolean value " ++ Quoted.text (Utf8.encode value) ++ " for -" ++ name ++
      ": parse error\n" ++ usage
  | .help => usage

def OptionError.exitCode : OptionError → Nat
  | .help => 0
  | _ => 2

/-- What an argument is, as far as it shows. -/
inductive Argument where
  | file
  | endOfOptions
  | malformed
  | option (name : String) (value : Option String)

/-- Splits an option at its first equal sign. -/
def splitOption (body : List Char) : Argument :=
  match body with
  | [] => .malformed
  | first :: rest =>
    if first = '-' || first = '=' then .malformed
    else match rest.span (· ≠ '=') with
      | (name, _ :: value) => .option (String.ofList (first :: name)) (some (String.ofList value))
      | (name, []) => .option (String.ofList (first :: name)) none

def Argument.ofString (argument : String) : Argument :=
  match argument.toList with
  | '-' :: '-' :: [] => .endOfOptions
  | '-' :: '-' :: body => splitOption body
  | '-' :: [] => .file
  | '-' :: body => splitOption body
  | _ => .file

/-- The truth value that a text spells. -/
def readBool? (text : String) : Option Bool :=
  if ["1", "t", "T", "TRUE", "true", "True"].contains text then some true
  else if ["0", "f", "F", "FALSE", "false", "False"].contains text then some false
  else none

/-- How an option with a value changes the options. -/
def Options.set? (o : Options) (name : String) : Option (String → Options) :=
  match name with
  | "config" => some fun value => { o with configPath := value }
  | "e" => some fun value => { o with source := value }
  | _ => none

/-- Reads arguments on top of options already read. -/
def Options.readFrom (o : Options) : List String → Except OptionError Options
  | [] => .ok o
  | argument :: rest =>
    match Argument.ofString argument with
    | .file => .ok { o with files := argument :: rest }
    | .endOfOptions => .ok { o with files := rest }
    | .malformed => .error (.malformed argument)
    | .option name value =>
      if name = "debug" then
        match readBool? (value.getD "true") with
        | some debug => { o with debug }.readFrom rest
        | none => .error (.notBool name (value.getD "true"))
      else match o.set? name, value, rest with
        | none, _, _ =>
          .error (if name = "help" || name = "h" then .help else .unknown name)
        | some set, some value, rest => (set value).readFrom rest
        | some set, none, value :: rest => (set value).readFrom rest
        | some _, none, [] => .error (.missingValue name)

/-- Reads the arguments of the command. -/
def Options.read (arguments : List String) : Except OptionError Options :=
  ({} : Options).readFrom arguments

/-- Whether statements are read from the input. -/
def Options.interactive (o : Options) : Bool := o.source = "" && o.files.isEmpty

end BoxScript.Console
