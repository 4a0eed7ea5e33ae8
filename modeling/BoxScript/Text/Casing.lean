import BoxScript.Text.Utf8
import BoxScript.Text.Cased
import BoxScript.Text.CaseMap

/-!
# Upper and lower case of texts

Upper case maps each character on its own and keeps stray bytes. Lower case
reads words: a capital sigma after a cased character of its word becomes the
final form `ς`, unless a cased character follows it with at most thirty
case-ignorable ones between, and then the medial form `σ`.

A text is lowered into a buffer that starts as long as the text. Where the
next cluster does not fit, reading starts over between words at it, so a
sigma there begins a word and takes the medial form; the buffer grows only if
it still does not fit.
-/

set_option autoImplicit false

namespace BoxScript

open Utf8 (Piece)

namespace Casing

/-- Whether a piece is a cased character. -/
def cased : Piece → Bool
  | .char c => isCased c
  | .stray _ => false

/-- Whether a piece is a case-ignorable character. -/
def ignorable : Piece → Bool
  | .char c => isCaseIgnorable c
  | .stray _ => false

/-- The encoding of the image of a piece under a case map. -/
def image (map : CaseMap) : Piece → Bytes
  | .char c => (map.apply c).flatMap String.utf8EncodeChar
  | .stray b => [b]

/-- The upper case of a text. -/
def upper (s : Bytes) : Bytes := (Utf8.pieces s).flatMap (image upperMap)

/-- How far past a sigma its word is searched for a cased character. -/
def lookahead : Nat := 31

/-- What is lowered in one go: the bytes written, whether what follows stands
inside a word, and the number of following pieces that it takes along. -/
structure Cluster where
  bytes : Bytes
  inWord : Bool
  taken : Nat

/-- A capital sigma inside a word, with the case-ignorable characters after it. -/
def sigma (following : List Piece) : Cluster :=
  let near := following.take lookahead
  let marks := near.takeWhile ignorable
  let form := if ((near.drop marks.length).head?.map cased).getD false then 'σ' else 'ς'
  { bytes := String.utf8EncodeChar form ++ marks.flatMap Piece.bytes
    inWord := true
    taken := marks.length }

/-- The cluster that starts with a piece, inside or between words. -/
def nextCluster (inWord : Bool) (p : Piece) (following : List Piece) : Cluster :=
  if inWord then
    if !cased p && !ignorable p then ⟨p.bytes, false, 0⟩
    else if p = .char 'Σ' then sigma following
    else ⟨image lowerMap p, true, 0⟩
  else if cased p then ⟨image lowerMap p, true, 0⟩
  else ⟨p.bytes, false, 0⟩

/-- The next size of a full buffer. -/
def growth (size : Nat) : Nat :=
  if size ≤ 32 then 64 else if size ≤ 256 then size * 2 else size + size / 2

theorem lt_growth (size : Nat) : size < growth size := by
  unfold growth
  split
  · omega
  · split <;> omega

/-- The size of a buffer after it has grown until `needed` bytes fit. -/
def grown (size needed : Nat) : Nat :=
  if needed ≤ size then size else grown (growth size) needed
termination_by needed - size
decreasing_by
  have := lt_growth size
  omega

/-- `lower` from the middle: the size of the buffer, the bytes it holds (their
number, and they themselves in reverse), whether reading stands inside a word,
and the number of pieces that the last cluster has taken along. -/
def lowerFrom (size used : Nat) (written : Bytes) (inWord : Bool) : Nat → List Piece → Bytes
  | _, [] => written.reverse
  | n + 1, _ :: following => lowerFrom size used written inWord n following
  | 0, p :: following =>
    let cluster := nextCluster inWord p following
    let cluster :=
      if used + cluster.bytes.length ≤ size then cluster else nextCluster false p following
    let used' := used + cluster.bytes.length
    lowerFrom (grown size used') used' (cluster.bytes.reverseAux written)
      cluster.inWord cluster.taken following

/-- The lower case of a text. -/
def lower (s : Bytes) : Bytes := lowerFrom s.length 0 [] false 0 (Utf8.pieces s)

end Casing

end BoxScript
