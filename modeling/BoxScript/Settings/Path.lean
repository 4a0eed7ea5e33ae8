/-!
# Paths

A path in its shortest form has no empty parts, no `.`, and no `..` behind a
part that it would cancel; a `..` at the root is dropped, and an empty path
is `.`.
-/

set_option autoImplicit false

namespace BoxScript.Path

/-- Adds a part to the parts of a path, kept in reverse. -/
def step (rooted : Bool) (parts : List String) (part : String) : List String :=
  if part = "" || part = "." then parts
  else if part = ".." then
    match parts with
    | [] => if rooted then [] else [".."]
    | last :: before => if last = ".." then ".." :: parts else before
  else part :: parts

/-- The shortest form of a path. -/
def clean (path : String) : String :=
  let rooted := path.startsWith "/"
  let parts := ((path.splitOn "/").foldl (step rooted) []).reverse
  let body := "/".intercalate parts
  if rooted then "/" ++ body else if body = "" then "." else body

/-- A path below a directory, in its shortest form. -/
def join (directory path : String) : String :=
  if directory = "" && path = "" then ""
  else if directory = "" then clean path
  else if path = "" then clean directory
  else clean (directory ++ "/" ++ path)

end BoxScript.Path
