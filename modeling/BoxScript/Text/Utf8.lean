/-!
# Bytes read as UTF-8

Texts are byte strings that need not be well formed. `pieces` cuts one into
the characters it encodes and the stray bytes that belong to no well-formed
sequence: a byte is stray exactly when the bytes from it on do not start with
the encoding of a character, and then it alone is cut off. Counting and
repairing are stated on the pieces.
-/

set_option autoImplicit false

namespace BoxScript

/-- A byte string: source text, the payload of a text, a line of input. -/
abbrev Bytes := List UInt8

namespace Utf8

/-- The second and later bytes of an encoded character. -/
def isTail (b : UInt8) : Bool := 0x80 ≤ b && b ≤ 0xBF

/-- The six bits that a tail byte carries. -/
def tailBits (b : UInt8) : Nat := b.toNat % 64

/-- Whether `b` may follow the first byte `a` of a three-byte character.
Overlong forms and surrogates are excluded here. -/
def secondOfThree (a b : UInt8) : Bool :=
  isTail b && (a != 0xE0 || 0xA0 ≤ b) && (a != 0xED || b ≤ 0x9F)

/-- Whether `b` may follow the first byte `a` of a four-byte character.
Overlong forms and values beyond the last character are excluded here. -/
def secondOfFour (a b : UInt8) : Bool :=
  isTail b && (a != 0xF0 || 0x90 ≤ b) && (a != 0xF4 || b ≤ 0x8F)

/-- The character whose encoding starts with `a` and goes on in `rest`, with
the number of bytes it takes from `rest`. -/
def scalar? (a : UInt8) (rest : Bytes) : Option (Char × Nat) :=
  if a < 0x80 then some (Char.ofNat a.toNat, 0)
  else if a < 0xC2 then none
  else if a < 0xE0 then
    match rest with
    | b :: _ =>
      if isTail b then some (Char.ofNat (a.toNat % 32 * 64 + tailBits b), 1) else none
    | [] => none
  else if a < 0xF0 then
    match rest with
    | b :: c :: _ =>
      if secondOfThree a b && isTail c then
        some (Char.ofNat ((a.toNat % 16 * 64 + tailBits b) * 64 + tailBits c), 2)
      else none
    | _ => none
  else if a < 0xF5 then
    match rest with
    | b :: c :: d :: _ =>
      if secondOfFour a b && isTail c && isTail d then
        some (Char.ofNat (((a.toNat % 8 * 64 + tailBits b) * 64 + tailBits c) * 64 + tailBits d), 3)
      else none
    | _ => none
  else none

/-- A part of a byte string. -/
inductive Piece where
  /-- A well-formed character. -/
  | char (c : Char)
  /-- A byte that belongs to no character. -/
  | stray (b : UInt8)
deriving DecidableEq, Repr

namespace Piece

/-- The bytes a piece was cut from. -/
def bytes : Piece → Bytes
  | .char c => String.utf8EncodeChar c
  | .stray b => [b]

end Piece

/-- `pieces`, with the pieces already cut in reverse and the number of bytes
that still belong to the last one. -/
def cut (done : List Piece) : Nat → Bytes → List Piece
  | _, [] => done.reverse
  | n + 1, _ :: rest => cut done n rest
  | 0, a :: rest =>
    match scalar? a rest with
    | some (c, n) => cut (.char c :: done) n rest
    | none => cut (.stray a :: done) 0 rest

/-- The characters and stray bytes of a text, in order. -/
def pieces (s : Bytes) : List Piece := cut [] 0 s

/-- The number of characters of a text, each stray byte counting as one. -/
def count (s : Bytes) : Nat := (pieces s).length

/-- The character that stands for what cannot be decoded. -/
def replacement : Char := '\ufffd'

/-- A text with each stray byte replaced. What is well formed stays as it is. -/
def repair (s : Bytes) : Bytes :=
  (pieces s).flatMap fun
    | .char c => String.utf8EncodeChar c
    | .stray _ => String.utf8EncodeChar replacement

/-- The encoding of a string. -/
def encode (s : String) : Bytes := s.toUTF8.toList

/-- The string that a well-formed text encodes. -/
def decode? (s : Bytes) : Option String :=
  (pieces s).foldl (fun acc p =>
    match acc, p with
    | some t, .char c => some (t.push c)
    | _, _ => none) (some "")

/-- One character per byte: right for ASCII, such as a scanned name. -/
def ascii (s : Bytes) : String :=
  String.ofList (s.map fun b => Char.ofNat b.toNat)

end Utf8

end BoxScript
