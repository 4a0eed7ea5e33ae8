import BoxScript.Console.Command

/-!
# The program

Reads what the command asks for, runs it, and prints what it reports. Input is
taken to be redirected: it is read to its end before the first statement runs.
-/

set_option autoImplicit false

open BoxScript BoxScript.Console

/-- What is at a path now. -/
def findEntry (path : String) : IO Entry := do
  try
    let contents ← IO.FS.readBinFile path
    return .file contents.toList
  catch
    | .inappropriateType .. => return .directory
    | _ => return .absent .missing

/-- The paths that the command will look at. -/
def pathsOf (options : Options) : List String :=
  (if options.configPath = "" then [] else [options.configPath]) ++ options.files

/-- Looks up what was read before. -/
def tableEntry (table : List (String × Entry)) (path : String) : Entry :=
  (table.lookup path).getD (.absent .missing)

def main (arguments : List String) : IO UInt32 := do
  let options := (Options.read arguments).toOption.getD { source := usage }
  let table ← (pathsOf options).mapM fun path => do return (path, ← findEntry path)
  let home := (← IO.getEnv "HOME").getD ""
  let around : Surroundings := { entry := tableEntry table, input := [], home, platform := "unix" }
  let path := ((settings around options).toOption.getD Settings.default).historyPath home
  let table := (path, ← findEntry path) :: table
  let input ← if options.interactive then (← IO.getStdin).readBinToEnd else pure .empty
  let around := { around with entry := tableEntry table, input := input.toList }
  let report := command around arguments
  (← IO.getStdout).putStr report.out
  (← IO.getStderr).putStr report.err
  if let some (path, contents) := report.history then
    try IO.FS.writeBinFile path (ByteArray.mk contents.toArray) catch _ => pure ()
  return UInt32.ofNat report.exitCode
