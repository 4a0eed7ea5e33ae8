import BoxScript.Document.Value
import BoxScript.Settings.Path
import BoxScript.Settings.Level

/-!
# Settings of the command line

Settings that a document does not mention keep their defaults; one that it
sets to null is empty. Unknown keys, keys given twice and values of the wrong
kind are refused. The key `<<` brings in the entries of other mappings, which
may repeat keys.
-/

set_option autoImplicit false

namespace BoxScript

structure Settings where
  prompt : String
  continuation : String
  /-- The path of the history file; empty for none. A leading `~/` stands for
  the home directory. -/
  history : String
  logLevel : String
  debug : Bool
deriving DecidableEq, Repr

namespace Settings

/-- The settings without a document. -/
def default : Settings where
  prompt := "holo> "
  continuation := "  ... "
  history := "~/.holo_history"
  logLevel := "warn"
  debug := false

/-- The settings of a document that is null as a whole. -/
def blank : Settings where
  prompt := ""
  continuation := ""
  history := ""
  logLevel := ""
  debug := false

open Document (Node Value)

/-- A node as text. Any scalar is text as it was written, but null is empty. -/
def text? : Node → Option String
  | .scalar tag isOpen text =>
    match Value.ofScalar? tag isOpen text with
    | none => none
    | some .null => some ""
    | some _ => some text
  | .alias (.scalar tag isOpen text) => text? (.scalar tag isOpen text)
  | _ => none

/-- A node as a truth value, which is false for null. -/
def bool? : Node → Option Bool
  | .scalar tag isOpen text =>
    match Value.ofScalar? tag isOpen text with
    | some .null => some false
    | some (.bool b) => some b
    | _ => none
  | .alias (.scalar tag isOpen text) => bool? (.scalar tag isOpen text)
  | _ => none

/-- The settings with one of them replaced. -/
def set? (settings : Settings) (key : String) (value : Node) : Option Settings :=
  match key with
  | "prompt" => (text? value).map fun prompt => { settings with prompt }
  | "continuation" => (text? value).map fun continuation => { settings with continuation }
  | "history" => (text? value).map fun history => { settings with history }
  | "log_level" => (text? value).map fun logLevel => { settings with logLevel }
  | "debug" => (bool? value).map fun debug => { settings with debug }
  | _ => none

/-- Whether a key stands for the entries of other mappings. -/
def isMerge : Node → Bool
  | .scalar tag isOpen text => text = "<<" && (isOpen || tag = Value.tagOf "merge")
  | _ => false

mutual

/-- The settings with the entries of a mapping, none of which may come twice. -/
def setAll? (settings : Settings) (seen : List String) : List (Node × Node) → Option Settings
  | [] => some settings
  | entry :: entries =>
    match setEntry? settings seen entry with
    | none => none
    | some (settings, seen) => setAll? settings seen entries

/-- The settings with an entry, and the keys seen so far. -/
def setEntry? (settings : Settings) (seen : List String) :
    Node × Node → Option (Settings × List String)
  | (key, value) =>
    if isMerge key then (merge? settings true value).map fun settings => (settings, seen)
    else match text? key with
      | none => none
      | some key =>
        if seen.contains key then none
        else (settings.set? key value).map fun settings => (settings, key :: seen)

/-- The settings with the entries of a mapping or, where it stands alone, of the
mappings of a sequence, the first of which counts most. -/
def merge? (settings : Settings) (alone : Bool) : Node → Option Settings
  | .mapping entries => setAll? settings [] entries
  | .alias (.mapping entries) => setAll? settings [] entries
  | .sequence items => if alone then mergeItems? settings items else none
  | _ => none

/-- The settings with the entries of mappings, from the last one to the first. -/
def mergeItems? (settings : Settings) : List Node → Option Settings
  | [] => some settings
  | item :: items =>
    match mergeItems? settings items with
    | none => none
    | some settings => merge? settings false item

end

/-- The settings of a document as a whole. -/
def ofRoot? : Node → Option Settings
  | .scalar tag isOpen text =>
    if Value.ofScalar? tag isOpen text = some .null then some blank else none
  | .mapping entries => setAll? default [] entries
  | _ => none

/-- Reads the settings of a document. -/
def read? (source : Bytes) : Option Settings :=
  match Document.read? source with
  | none => none
  | some .nothing => some default
  | some (.content root) => ofRoot? root

/-- The log level; without one it is that of warnings. -/
def level (settings : Settings) : Except Level.Error Int :=
  if settings.logLevel = "" then .ok Level.warn else Level.read settings.logLevel

/-- The path of the history file, given the home directory. -/
def historyPath (settings : Settings) (home : String) : String :=
  if settings.history.startsWith "~/" then
    if home = "" then "" else Path.join home (settings.history.drop 2).toString
  else settings.history

end Settings

end BoxScript
