import BoxScript.Text.Utf8
import BoxScript.Text.Printable

/-!
# Quoted text

A text is shown between double quotes, a single character between apostrophes.
Inside, the quote itself and the backslash are escaped, printable characters
stand for themselves, and everything else is written by a letter escape where
there is one or by its number in hexadecimal: two digits for a control
character or a stray byte, four or eight digits for other characters.
-/

set_option autoImplicit false

namespace BoxScript.Quoted

/-- The lower case hexadecimal digits of a number, at least `width` of them. -/
def hex (width n : Nat) : String :=
  let digits := String.ofList (Nat.toDigits 16 n)
  "".pushn '0' (width - digits.length) ++ digits

/-- The letter that names a control character after a backslash. -/
def letter? (c : Char) : Option Char :=
  [('\x07', 'a'), ('\x08', 'b'), ('\x0c', 'f'), ('\n', 'n'), ('\r', 'r'), ('\t', 't'),
    ('\x0b', 'v')].lookup c

/-- A character as it stands between two quotes of the given kind. -/
def character (quote c : Char) : String :=
  if c = quote || c = '\\' then "\\".push c
  else if isPrintable c then c.toString
  else match letter? c with
    | some l => "\\".push l
    | none =>
      if c.toNat < 0x80 then "\\x" ++ hex 2 c.toNat
      else if c.toNat < 0x10000 then "\\u" ++ hex 4 c.toNat
      else "\\U" ++ hex 8 c.toNat

/-- A piece of a text as it stands between double quotes. -/
def piece : Utf8.Piece → String
  | .char c => character '"' c
  | .stray b => "\\x" ++ hex 2 b.toNat

/-- A text between double quotes. -/
def text (s : Bytes) : String :=
  ((Utf8.pieces s).foldl (fun shown p => shown ++ piece p) "\"").push '"'

/-- A byte, taken for the character of that number, between apostrophes. -/
def byte (b : UInt8) : String :=
  "'" ++ character '\'' (Char.ofNat b.toNat) ++ "'"

end BoxScript.Quoted
