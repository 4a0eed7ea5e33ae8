import BoxScript.Text.Utf8

/-!
# The characters of a document

A document is encoded in UTF-8, or in UTF-16 if it starts with a mark that
says so. It is decoded in portions of 512 bytes, one when it is needed, so
what stands behind the part that is looked at is never judged. A portion with
a malformed or forbidden character breaks the document as a whole. A character
that a portion cuts is left for the next one.
-/

set_option autoImplicit false

namespace BoxScript.Document

inductive Encoding where
  | utf8
  | utf16 (lowFirst : Bool)
deriving DecidableEq, Repr

/-- What the front of some bytes decodes to. -/
inductive Decoded where
  | char (c : Char) (width : Nat)
  /-- More bytes are needed. -/
  | cut
  | malformed

/-- The number of bytes that a first byte announces. -/
def announcedWidth (a : UInt8) : Option Nat :=
  if a < 0x80 then some 1
  else if a < 0xC0 then none
  else if a < 0xE0 then some 2
  else if a < 0xF0 then some 3
  else if a < 0xF8 then some 4
  else none

def decodeUtf8 (s : Bytes) : Decoded :=
  match s with
  | [] => .cut
  | a :: rest =>
    match announcedWidth a with
    | none => .malformed
    | some width =>
      if s.length < width then .cut
      else match Utf8.scalar? a rest with
        | some (c, _) => .char c width
        | none => .malformed

/-- The number that two bytes make. -/
def unit (lowFirst : Bool) (a b : UInt8) : Nat :=
  if lowFirst then a.toNat + 256 * b.toNat else b.toNat + 256 * a.toNat

def isHighSurrogate (n : Nat) : Bool := 0xD800 ≤ n && n < 0xDC00

def isLowSurrogate (n : Nat) : Bool := 0xDC00 ≤ n && n < 0xE000

def decodeUtf16 (lowFirst : Bool) (s : Bytes) : Decoded :=
  match s with
  | a :: b :: rest =>
    let n := unit lowFirst a b
    if isLowSurrogate n then .malformed
    else if isHighSurrogate n then
      match rest with
      | c :: d :: _ =>
        let m := unit lowFirst c d
        if isLowSurrogate m then
          .char (Char.ofNat (0x10000 + (n - 0xD800) * 0x400 + (m - 0xDC00))) 4
        else .malformed
      | _ => .cut
    else .char (Char.ofNat n) 2
  | _ => .cut

def Encoding.decode : Encoding → Bytes → Decoded
  | .utf8, s => decodeUtf8 s
  | .utf16 lowFirst, s => decodeUtf16 lowFirst s

/-- The characters that may stand in a document. -/
def isAllowed (c : Char) : Bool :=
  let n := c.toNat
  n = 0x09 || n = 0x0A || n = 0x0D || (0x20 ≤ n && n ≤ 0x7E) || n = 0x85 ||
    (0xA0 ≤ n && n ≤ 0xFFFD) || 0x10000 ≤ n

/-- Decodes bytes, at most so many characters, up to one that is cut. -/
def decodeRun (encoding : Encoding) (seen : List Char) : Nat → Bytes → Option (List Char × Bytes)
  | 0, s => some (seen.reverse, s)
  | n + 1, s =>
    match encoding.decode s with
    | .char c width =>
      if isAllowed c then decodeRun encoding (c :: seen) n (s.drop width) else none
    | .cut => some (seen.reverse, s)
    | .malformed => none

/-- What is still to be decoded. -/
inductive Portions where
  | more (chars : List Char) (rest : Portions)
  | ended
  | broken

def portionSize : Nat := 512

/-- The portions of the bytes behind some that were left over. A portion takes
at least one byte, so as many portions as there are bytes are enough. -/
def portionsFrom (encoding : Encoding) : Nat → (left rest : Bytes) → Portions
  | 0, _, _ => .ended
  | n + 1, left, rest =>
    if rest.isEmpty then if left.isEmpty then .ended else .broken
    else
      let room := portionSize - left.length
      let raw := left ++ rest.take room
      match decodeRun encoding [] raw.length raw with
      | none => .broken
      | some (chars, left) => .more chars (portionsFrom encoding n left (rest.drop room))

/-- The encoding that the first bytes show, and the length of the mark. -/
def detect (source : Bytes) : Encoding × Nat :=
  match source with
  | 0xFF :: 0xFE :: _ => (.utf16 true, 2)
  | 0xFE :: 0xFF :: _ => (.utf16 false, 2)
  | 0xEF :: 0xBB :: 0xBF :: _ => (.utf8, 3)
  | _ => (.utf8, 0)

/-- The portions of a document. The mark belongs to the first one. -/
def portions (source : Bytes) : Portions :=
  let source := if source.isEmpty then [0x0A] else source
  let (encoding, mark) := detect source
  let raw := (source.take portionSize).drop mark
  match decodeRun encoding [] raw.length raw with
  | none => .broken
  | some (chars, left) =>
    .more chars (portionsFrom encoding (source.length + 1) left (source.drop portionSize))

end BoxScript.Document
