import BoxScript.Text.Utf8

/-!
# Files

A tree of files as a command sees it from one of its directories. A path is
followed part by part: every part but the last must be a directory that is
there, also one that a later `..` leaves again. The directories are those that
lie above the files and above the current directory.
-/

set_option autoImplicit false

namespace BoxScript.Console

/-- Why nothing is found at a path. -/
inductive PathError where
  | missing
  | notDirectory
  | nameTooLong
  /-- No path can be written like this. -/
  | malformed
deriving DecidableEq, Repr

def PathError.message : PathError → String
  | .missing => "no such file or directory"
  | .notDirectory => "not a directory"
  | .nameTooLong => "file name too long"
  | .malformed => "invalid argument"

/-- What is found at a path. -/
inductive Entry where
  | file (contents : Bytes)
  | directory
  | absent (why : PathError)

/-- The names on the way to a place in the tree, the last one first. -/
abbrev Place := List String

structure Files where
  /-- The current directory. -/
  here : Place
  files : List (Place × Bytes)
  /-- Directories that may be empty. -/
  directories : List Place := []

namespace Files

def isDirectory (t : Files) (p : Place) : Bool :=
  p.isSuffixOf t.here || t.files.any (fun f => p.isSuffixOf f.1.tail) ||
    t.directories.any (fun d => p.isSuffixOf d)

def entryAt (t : Files) (p : Place) : Entry :=
  if t.isDirectory p then .directory
  else match t.files.lookup p with
    | some contents => .file contents
    | none => .absent .missing

/-- The most bytes that a name and a path with its end mark may have. -/
def nameLimit : Nat := 255
def pathLimit : Nat := 4096

/-- Follows names from a place, which must be a directory if there are any. -/
def follow (t : Files) (p : Place) : List String → Except PathError Place
  | [] => .ok p
  | name :: names =>
    if !t.isDirectory p then .error .notDirectory
    else if name = "." then t.follow p names
    else if name = ".." then t.follow p.tail names
    else if nameLimit < name.utf8ByteSize then .error .nameTooLong
    else match t.entryAt (name :: p) with
      | .absent why => .error why
      | _ => t.follow (name :: p) names

/-- The names of a path. A slash at its end asks for a directory, as a dot would. -/
def names (path : String) : List String :=
  let parts := (path.splitOn "/").filter (· ≠ "")
  if path.endsWith "/" then parts ++ ["."] else parts

/-- Where a path starts. -/
def start (t : Files) (path : String) : Place := if path.startsWith "/" then [] else t.here

/-- Whether a path can be written down at all. -/
def checkPath (path : String) : Except PathError Unit :=
  if path.contains '\x00' then .error .malformed
  else if path = "" then .error .missing
  else if pathLimit ≤ path.utf8ByteSize then .error .nameTooLong
  else .ok ()

/-- What is found at a path. -/
def find (t : Files) (path : String) : Entry :=
  match checkPath path with
  | .error why => .absent why
  | .ok () =>
    match t.follow (t.start path) (names path) with
    | .error why => .absent why
    | .ok p => t.entryAt p

/-- The tree with a file written, as far as the path allows it. -/
def write (t : Files) (path : String) (contents : Bytes) : Files :=
  match checkPath path, (names path).reverse with
  | .ok (), name :: above =>
    match t.follow (t.start path) above.reverse with
    | .error _ => t
    | .ok p =>
      if name = "." || name = ".." || nameLimit < name.utf8ByteSize then t
      else if !t.isDirectory p || t.isDirectory (name :: p) then t
      else { t with files := (name :: p, contents) :: t.files.filter (·.1 != name :: p) }
  | _, _ => t

end Files

end BoxScript.Console
