import BoxScript.Text.Quoted
import BoxScript.Text.CaseMap

/-!
# Log levels

A level is a name in any case, possibly with a signed offset behind it:
`info`, `WARN+2`, `error-8`. Levels are numbers, four apart from name to name.
-/

set_option autoImplicit false

namespace BoxScript.Level

inductive Error where
  | unknownName
  /-- The offset is no number. -/
  | badOffset (offset : String)
  /-- The offset does not fit into 64 bits. -/
  | hugeOffset (offset : String)

/-- An error in words, about a level as it was written. -/
def Error.message (written : String) (e : Error) : String :=
  let about := "slog: level string " ++ Quoted.text (Utf8.encode written) ++ ": "
  let offset (o : String) := "strconv.Atoi: parsing " ++ Quoted.text (Utf8.encode o) ++ ": "
  match e with
  | .unknownName => about ++ "unknown name"
  | .badOffset o => about ++ offset o ++ "invalid syntax"
  | .hugeOffset o => about ++ offset o ++ "value out of range"

def debug : Int := -4
def info : Int := 0
def warn : Int := 4
def error : Int := 8

/-- The level of a name in any case. -/
def named? (name : String) : Option Int :=
  [("DEBUG", debug), ("INFO", info), ("WARN", warn), ("ERROR", error)].lookup
    (String.ofList (name.toList.flatMap upperMap.apply))

/-- The number that a sign and digits spell. Digits that exceed 64 bits even
without a sign are too many, whatever stands behind them. -/
def readOffset (offset : String) : Except Error Int :=
  let (digits, rest) := (offset.toList.drop 1).span Char.isDigit
  let size : Nat := digits.foldl (fun n c => 10 * n + (c.toNat - '0'.toNat)) 0
  let n : Int := if offset.startsWith "-" then -size else size
  if UInt64.size ≤ size then .error (.hugeOffset offset)
  else if digits.isEmpty || !rest.isEmpty then .error (.badOffset offset)
  else if Int64.minValue.toInt ≤ n ∧ n ≤ Int64.maxValue.toInt then .ok n
  else .error (.hugeOffset offset)

/-- Reads a level. A wrong offset is reported before a wrong name. -/
def read (written : String) : Except Error Int :=
  let (name, offset) := written.toList.span fun c => c ≠ '+' && c ≠ '-'
  let offset :=
    if offset.isEmpty then .ok 0 else readOffset (String.ofList offset)
  match offset, named? (String.ofList name) with
  | .error e, _ => .error e
  | .ok _, none => .error .unknownName
  | .ok n, some level => .ok (Int64.ofInt (level + n)).toInt

end BoxScript.Level
