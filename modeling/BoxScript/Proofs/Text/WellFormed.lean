import Mathlib.Algebra.GroupWithZero.Nat
import BoxScript.Proofs.Text.Encoding
import BoxScript.Text.Casing

/-!
# Well-formed texts

A text is well formed if it is the encoding of a string. Where the bytes of a
character stand in front, whatever follows them, that character is cut off and
nothing else: so a well-formed text is cut into its characters without a stray
byte, and the pieces of what is put behind it are those that it has alone.
Lengths therefore add up, repairing changes nothing, and letter case is mapped
to well-formed texts.
-/

set_option autoImplicit false

namespace BoxScript

namespace Utf8

/-- A text that some string is encoded by. -/
def WellFormed (s : Bytes) : Prop := ∃ t : String, encode t = s

/-! ## Decoding one character

The lead byte and the tail bytes of a code point `v`, by the number of bytes that
its size takes. -/

theorem isTail_byte (n : Nat) : isTail (UInt8.ofNat (n % 64 + 128)) = true := by
  have code : (UInt8.ofNat (n % 64 + 128)).toNat = n % 64 + 128 :=
    UInt8.toNat_ofNat_of_lt' (show _ < 256 by omega)
  simp only [isTail, Bool.and_eq_true, decide_eq_true_eq, UInt8.le_iff_toNat_le, code,
    UInt8.reduceToNat]
  omega

theorem tailBits_byte (n : Nat) : tailBits (UInt8.ofNat (n % 64 + 128)) = n % 64 := by
  rw [tailBits, UInt8.toNat_ofNat_of_lt' (show _ < 256 by omega)]
  omega

section CodePoints

variable {v : Nat} (rest : Bytes)

theorem scalar?_one (most : v ≤ 0x7F) :
    scalar? (UInt8.ofNat v) rest = some (Char.ofNat v, 0) := by
  have lead : (UInt8.ofNat v).toNat = v := UInt8.toNat_ofNat_of_lt' (show _ < 256 by omega)
  simp only [scalar?, UInt8.lt_iff_toNat_lt, lead, UInt8.reduceToNat]
  exact if_pos (by omega)

theorem scalar?_two (least : 0x80 ≤ v) (most : v ≤ 0x7FF) :
    scalar? (UInt8.ofNat (v / 64 % 32 + 192)) (UInt8.ofNat (v % 64 + 128) :: rest) =
      some (Char.ofNat v, 1) := by
  have lead : (UInt8.ofNat (v / 64 % 32 + 192)).toNat = v / 64 % 32 + 192 :=
    UInt8.toNat_ofNat_of_lt' (show _ < 256 by omega)
  have code : (v / 64 % 32 + 192) % 32 * 64 + v % 64 = v := by omega
  simp only [scalar?, UInt8.lt_iff_toNat_lt, lead, UInt8.reduceToNat, isTail_byte, tailBits_byte,
    code]
  rw [if_neg (by omega), if_neg (by omega), if_pos (by omega), if_pos trivial]

/-- Surrogates, which the second byte would show, are no characters. -/
theorem scalar?_three (least : 0x800 ≤ v) (most : v ≤ 0xFFFF) (valid : v.isValidChar) :
    scalar? (UInt8.ofNat (v / 4096 % 16 + 224))
        (UInt8.ofNat (v / 64 % 64 + 128) :: UInt8.ofNat (v % 64 + 128) :: rest) =
      some (Char.ofNat v, 2) := by
  have lead : (UInt8.ofNat (v / 4096 % 16 + 224)).toNat = v / 4096 % 16 + 224 :=
    UInt8.toNat_ofNat_of_lt' (show _ < 256 by omega)
  have second : (UInt8.ofNat (v / 64 % 64 + 128)).toNat = v / 64 % 64 + 128 :=
    UInt8.toNat_ofNat_of_lt' (show _ < 256 by omega)
  have allowed : secondOfThree (UInt8.ofNat (v / 4096 % 16 + 224))
      (UInt8.ofNat (v / 64 % 64 + 128)) = true := by
    unfold Nat.isValidChar at valid
    simp only [secondOfThree, isTail_byte, Bool.true_and, Bool.and_eq_true, Bool.or_eq_true,
      bne_iff_ne, ne_eq, decide_eq_true_eq, UInt8.le_iff_toNat_le, ← UInt8.toNat_inj, lead, second,
      UInt8.reduceToNat]
    omega
  have code : ((v / 4096 % 16 + 224) % 16 * 64 + v / 64 % 64) * 64 + v % 64 = v := by omega
  simp only [scalar?, UInt8.lt_iff_toNat_lt, lead, UInt8.reduceToNat, isTail_byte, tailBits_byte,
    allowed, Bool.and_self, code]
  rw [if_neg (by omega), if_neg (by omega), if_neg (by omega), if_pos (by omega), if_pos trivial]

/-- Nor is anything beyond the last code point. -/
theorem scalar?_four (least : 0x10000 ≤ v) (valid : v.isValidChar) :
    scalar? (UInt8.ofNat (v / 262144 % 8 + 240))
        (UInt8.ofNat (v / 4096 % 64 + 128) :: UInt8.ofNat (v / 64 % 64 + 128) ::
          UInt8.ofNat (v % 64 + 128) :: rest) =
      some (Char.ofNat v, 3) := by
  unfold Nat.isValidChar at valid
  have lead : (UInt8.ofNat (v / 262144 % 8 + 240)).toNat = v / 262144 % 8 + 240 :=
    UInt8.toNat_ofNat_of_lt' (show _ < 256 by omega)
  have second : (UInt8.ofNat (v / 4096 % 64 + 128)).toNat = v / 4096 % 64 + 128 :=
    UInt8.toNat_ofNat_of_lt' (show _ < 256 by omega)
  have allowed : secondOfFour (UInt8.ofNat (v / 262144 % 8 + 240))
      (UInt8.ofNat (v / 4096 % 64 + 128)) = true := by
    simp only [secondOfFour, isTail_byte, Bool.true_and, Bool.and_eq_true, Bool.or_eq_true,
      bne_iff_ne, ne_eq, decide_eq_true_eq, UInt8.le_iff_toNat_le, ← UInt8.toNat_inj, lead, second,
      UInt8.reduceToNat]
    omega
  have code : (((v / 262144 % 8 + 240) % 8 * 64 + v / 4096 % 64) * 64 + v / 64 % 64) * 64 +
      v % 64 = v := by omega
  simp only [scalar?, UInt8.lt_iff_toNat_lt, lead, UInt8.reduceToNat, isTail_byte, tailBits_byte,
    allowed, Bool.and_self, code]
  rw [if_neg (by omega), if_neg (by omega), if_neg (by omega), if_neg (by omega), if_pos (by omega),
    if_pos trivial]

end CodePoints

/-- The encoding of a character is decoded to it, whatever comes behind. -/
theorem scalar?_encodeChar (c : Char) (rest : Bytes) :
    ∃ lead tail, String.utf8EncodeChar c = lead :: tail ∧
      scalar? lead (tail ++ rest) = some (c, tail.length) := by
  have own : Char.ofNat c.val.toNat = c := Char.ofNat_toNat c
  have valid : c.val.toNat.isValidChar := c.valid
  unfold String.utf8EncodeChar
  dsimp only
  generalize c.val.toNat = v at own valid
  subst own
  split
  · exact ⟨_, _, rfl, scalar?_one rest (by omega)⟩
  · split
    · exact ⟨_, _, rfl, scalar?_two rest (by omega) (by omega)⟩
    · split
      · exact ⟨_, _, rfl, scalar?_three rest (by omega) (by omega) valid⟩
      · exact ⟨_, _, rfl, scalar?_four rest (by omega) valid⟩

/-! ## Pieces of well-formed texts -/

theorem cut_skip (done : List Piece) (taken rest : Bytes) :
    cut done taken.length (taken ++ rest) = cut done 0 rest := by
  induction taken with
  | nil => rfl
  | cons b taken ih => exact ih

theorem cut_eq_append (done : List Piece) (n : Nat) (s : Bytes) :
    cut done n s = done.reverse ++ cut [] n s := by
  induction s generalizing done n with
  | nil => cases n <;> simp [cut]
  | cons a rest ih =>
    cases n with
    | succ n => exact ih done n
    | zero =>
      rw [cut, cut]
      split
      · next c n _ =>
        rw [ih (.char c :: done), ih [.char c]]
        simp
      · rw [ih (.stray a :: done), ih [.stray a]]
        simp

theorem pieces_encodeChar_append (c : Char) (rest : Bytes) :
    pieces (String.utf8EncodeChar c ++ rest) = .char c :: pieces rest := by
  obtain ⟨lead, tail, bytes, decoded⟩ := scalar?_encodeChar c rest
  rw [bytes, List.cons_append, pieces, cut, decoded]
  simp only
  rw [cut_skip, cut_eq_append]
  rfl

theorem pieces_encode_append (t : String) (rest : Bytes) :
    pieces (encode t ++ rest) = t.toList.map .char ++ pieces rest := by
  rw [encode_eq]
  induction t.toList with
  | nil => rfl
  | cons c cs ih =>
    rw [List.flatMap_cons, List.append_assoc, pieces_encodeChar_append, ih]
    rfl

theorem pieces_encode (t : String) : pieces (encode t) = t.toList.map .char := by
  have alone := pieces_encode_append t []
  rwa [List.append_nil, show pieces [] = [] from rfl, List.append_nil] at alone

/-! ## Building well-formed texts -/

theorem wellFormed_chars (cs : List Char) : WellFormed (cs.flatMap String.utf8EncodeChar) :=
  ⟨String.ofList cs, by rw [encode_eq, String.toList_ofList]⟩

theorem wellFormed_char (c : Char) : WellFormed (String.utf8EncodeChar c) := by
  simpa using wellFormed_chars [c]

theorem wellFormed_nil : WellFormed [] := wellFormed_chars []

theorem WellFormed.append {s t : Bytes} (first : WellFormed s) (second : WellFormed t) :
    WellFormed (s ++ t) := by
  obtain ⟨s, rfl⟩ := first
  obtain ⟨t, rfl⟩ := second
  exact ⟨s ++ t, encode_append s t⟩

theorem wellFormed_flatten {texts : List Bytes} (each : ∀ s ∈ texts, WellFormed s) :
    WellFormed texts.flatten := by
  induction texts with
  | nil => exact wellFormed_nil
  | cons s texts ih =>
    rw [List.flatten_cons]
    exact (each s (by simp)).append (ih fun t member => each t (by simp [member]))

theorem wellFormed_flatMap {α : Type} {xs : List α} {f : α → Bytes}
    (each : ∀ x ∈ xs, WellFormed (f x)) : WellFormed (xs.flatMap f) := by
  rw [List.flatMap_def]
  apply wellFormed_flatten
  intro s member
  obtain ⟨x, isMember, rfl⟩ := List.mem_map.mp member
  exact each x isMember

theorem mem_intersperse {α : Type} {x separator : α} {xs : List α}
    (member : x ∈ xs.intersperse separator) : x ∈ xs ∨ x = separator := by
  match xs with
  | [] => cases member
  | [y] => exact .inl member
  | y :: z :: zs =>
    rw [List.intersperse_cons_cons, List.mem_cons, List.mem_cons] at member
    rcases member with rfl | rfl | member
    · exact .inl (by simp)
    · exact .inr rfl
    · exact (mem_intersperse member).imp_left (List.mem_cons_of_mem y)

section Joining

variable {texts : List Bytes} {separator : Bytes} (each : ∀ s ∈ texts, WellFormed s)
  (between : WellFormed separator)

include each between

theorem wellFormed_intersperse : ∀ s ∈ texts.intersperse separator, WellFormed s := by
  intro s member
  rcases mem_intersperse member with isText | rfl
  · exact each s isText
  · exact between

theorem wellFormed_joined : WellFormed (texts.intersperse separator).flatten :=
  wellFormed_flatten (wellFormed_intersperse each between)

end Joining

/-- Repairing leaves no stray byte. -/
theorem wellFormed_repair (s : Bytes) : WellFormed (repair s) := by
  apply wellFormed_flatMap
  intro p _
  cases p with
  | char c => exact wellFormed_char c
  | stray b => exact wellFormed_char replacement

/-- What is well formed needs no repair. -/
theorem WellFormed.repair {s : Bytes} (wellFormed : WellFormed s) : repair s = s := by
  obtain ⟨t, rfl⟩ := wellFormed
  rw [Utf8.repair, pieces_encode, List.flatMap_map, encode_eq]

/-! ## Lengths -/

theorem WellFormed.count_append {s : Bytes} (wellFormed : WellFormed s) (rest : Bytes) :
    count (s ++ rest) = count s + count rest := by
  obtain ⟨t, rfl⟩ := wellFormed
  rw [count, count, count, pieces_encode_append, pieces_encode, List.length_append]

end Utf8

/-! ## Letter case -/

namespace Casing

open Utf8

theorem wellFormed_image (map : CaseMap) (c : Char) : WellFormed (image map (.char c)) :=
  wellFormed_chars (map.apply c)

theorem wellFormed_upper {s : Bytes} (wellFormed : WellFormed s) : WellFormed (upper s) := by
  obtain ⟨t, rfl⟩ := wellFormed
  rw [upper, pieces_encode, List.flatMap_map]
  exact wellFormed_flatMap fun c _ => wellFormed_image upperMap c

/-- A piece that is no stray byte. -/
def Whole (p : Piece) : Prop := ∃ c, p = .char c

theorem Whole.bytes {p : Piece} (whole : Whole p) : WellFormed p.bytes := by
  obtain ⟨c, rfl⟩ := whole
  exact wellFormed_char c

theorem Whole.image {p : Piece} (whole : Whole p) (map : CaseMap) : WellFormed (image map p) := by
  obtain ⟨c, rfl⟩ := whole
  exact wellFormed_image map c

theorem wellFormed_sigma {following : List Piece} (whole : ∀ p ∈ following, Whole p) :
    WellFormed (sigma following).bytes := by
  apply (wellFormed_char _).append
  apply wellFormed_flatMap
  intro p member
  exact (whole p (List.mem_of_mem_take ((List.takeWhile_sublist _).subset member))).bytes

theorem wellFormed_nextCluster {inWord : Bool} {p : Piece} {following : List Piece}
    (whole : Whole p) (others : ∀ p ∈ following, Whole p) :
    WellFormed (nextCluster inWord p following).bytes := by
  unfold nextCluster
  split
  · split
    · exact whole.bytes
    · split
      · exact wellFormed_sigma others
      · exact whole.image lowerMap
  · split
    · exact whole.image lowerMap
    · exact whole.bytes

/-- The buffer stays well formed: a cluster is written whole, and starting over
between words only chooses another one. -/
theorem wellFormed_lowerFrom {size used : Nat} {written : Bytes} {inWord : Bool} {taken : Nat}
    {ps : List Piece} (whole : ∀ p ∈ ps, Whole p) (wellFormed : WellFormed written.reverse) :
    WellFormed (lowerFrom size used written inWord taken ps) := by
  induction ps generalizing size used written inWord taken with
  | nil =>
    cases taken with
    | zero => exact wellFormed
    | succ n => exact wellFormed
  | cons p following ih =>
    have others : ∀ p ∈ following, Whole p := fun q member => whole q (by simp [member])
    cases taken with
    | succ n => exact ih others wellFormed
    | zero =>
      rw [lowerFrom]
      apply ih others
      rw [List.reverseAux_eq, List.reverse_append, List.reverse_reverse]
      apply wellFormed.append
      split
      · exact wellFormed_nextCluster (whole p (by simp)) others
      · exact wellFormed_nextCluster (whole p (by simp)) others

theorem wellFormed_lower {s : Bytes} (wellFormed : WellFormed s) : WellFormed (lower s) := by
  obtain ⟨t, rfl⟩ := wellFormed
  rw [lower, pieces_encode]
  apply wellFormed_lowerFrom
  · intro p member
    obtain ⟨c, -, rfl⟩ := List.mem_map.mp member
    exact ⟨c, rfl⟩
  · exact wellFormed_nil

end Casing

end BoxScript
