import BoxScript.Text.Quoted

/-!
# Texts and their encodings

The encoding of a string is that of its characters, one after another, so it
goes through concatenation. Cutting a byte string into pieces loses nothing: the
bytes of the pieces are those of the string. A text whose characters are all
shown as they are is therefore shown with its own bytes between the quotes.
-/

set_option autoImplicit false

namespace BoxScript

namespace Utf8

/-! ## Encoding strings -/

/-- Reading the bytes from position `i` on, with `left` of them to come. -/
theorem toList_loop {bytes : ByteArray} (left i : Nat) (seen : List UInt8)
    (size : bytes.size = i + left) :
    ByteArray.toList.loop bytes i seen = seen.reverse ++ bytes.data.toList.drop i := by
  induction left generalizing i seen with
  | zero =>
    have none : bytes.data.toList.drop i = [] := List.drop_eq_nil_of_le (by simp; omega)
    rw [ByteArray.toList.loop, if_neg (by omega), none, List.append_nil]
  | succ left ih =>
    have inside : i < bytes.data.toList.length := by simp; omega
    rw [ByteArray.toList.loop, if_pos (by omega), ih _ _ (by omega),
      List.drop_eq_getElem_cons inside, List.reverse_cons, List.append_assoc]
    simp [ByteArray.get!, show i < bytes.size by omega]

theorem encode_eq (s : String) : encode s = s.toList.flatMap String.utf8EncodeChar := by
  rw [encode, String.toUTF8_eq_toByteArray, ← String.utf8Encode_toList, ByteArray.toList,
    toList_loop _ 0 [] (Nat.zero_add _).symm]
  simp [List.utf8Encode]

@[simp] theorem encode_append (s t : String) : encode (s ++ t) = encode s ++ encode t := by
  simp [encode_eq]

@[simp] theorem encode_push (s : String) (c : Char) :
    encode (s.push c) = encode s ++ String.utf8EncodeChar c := by
  simp [encode_eq]

theorem toNat_ofNat {n : Nat} (valid : n.isValidChar) : (Char.ofNat n).toNat = n := by
  rw [Char.ofNat, dif_pos valid]
  rfl

theorem encodeChar_of_low {c : Char} (low : c.toNat < 0x80) :
    String.utf8EncodeChar c = [UInt8.ofNat c.toNat] := by
  have low' : c.val.toNat ≤ 127 := Nat.le_of_lt_succ low
  rw [String.utf8EncodeChar, if_pos low']
  rfl

/-- A string of low characters has one byte for each. -/
theorem encode_of_low {s : String} (low : ∀ c ∈ s.toList, c.toNat < 0x80) :
    encode s = s.toList.map fun c => UInt8.ofNat c.toNat := by
  rw [encode_eq, List.map_eq_flatMap, List.flatMap_def, List.flatMap_def]
  exact congrArg List.flatten (List.map_congr_left fun c member => encodeChar_of_low (low c member))

/-- A low byte, taken for a character, is encoded by itself. -/
theorem encodeChar_of_byte {b : UInt8} (low : b < 0x80) :
    String.utf8EncodeChar (Char.ofNat b.toNat) = [b] := by
  have low' : b.toNat < 0x80 := low
  have code : (Char.ofNat b.toNat).toNat = b.toNat := toNat_ofNat (.inl (by omega))
  rw [encodeChar_of_low (by omega), code, UInt8.ofNat_toNat]

theorem encode_ascii {s : Bytes} (low : ∀ b ∈ s, b < 0x80) : encode (ascii s) = s := by
  rw [encode_eq, ascii, String.toList_ofList]
  induction s with
  | nil => rfl
  | cons b s ih =>
    rw [List.map_cons, List.flatMap_cons, encodeChar_of_byte (low b (by simp)),
      ih fun c member => low c (by simp [member])]
    rfl

/-! ## Pieces -/

theorem ofNat_eq {n : Nat} {b : UInt8} (same : n = b.toNat) : UInt8.ofNat n = b := by
  rw [same, UInt8.ofNat_toNat]

theorem encodeChar_two {a b : UInt8} (first : 0xC2 ≤ a.toNat ∧ a.toNat < 0xE0)
    (tail : isTail b = true) :
    String.utf8EncodeChar (Char.ofNat (a.toNat % 32 * 64 + tailBits b)) = [a, b] := by
  simp only [isTail, Bool.and_eq_true, decide_eq_true_eq, UInt8.le_iff_toNat_le,
    UInt8.reduceToNat] at tail
  have code : (Char.ofNat (a.toNat % 32 * 64 + tailBits b)).val.toNat =
      a.toNat % 32 * 64 + b.toNat % 64 :=
    toNat_ofNat (.inl (by rw [tailBits]; omega))
  rw [String.utf8EncodeChar, code, if_neg (by omega), if_pos (by omega),
    ofNat_eq (b := a) (by omega), ofNat_eq (b := b) (by omega)]

theorem encodeChar_three {a b c : UInt8} (first : 0xE0 ≤ a.toNat ∧ a.toNat < 0xF0)
    (second : secondOfThree a b = true) (tail : isTail c = true) :
    String.utf8EncodeChar (Char.ofNat ((a.toNat % 16 * 64 + tailBits b) * 64 + tailBits c)) =
      [a, b, c] := by
  simp only [secondOfThree, isTail, Bool.and_eq_true, Bool.or_eq_true, bne_iff_ne, ne_eq,
    decide_eq_true_eq, UInt8.le_iff_toNat_le, ← UInt8.toNat_inj, UInt8.reduceToNat] at second tail
  have valid : ((a.toNat % 16 * 64 + tailBits b) * 64 + tailBits c).isValidChar := by
    simp only [Nat.isValidChar, tailBits]
    omega
  have code : (Char.ofNat ((a.toNat % 16 * 64 + tailBits b) * 64 + tailBits c)).val.toNat =
      (a.toNat % 16 * 64 + b.toNat % 64) * 64 + c.toNat % 64 := toNat_ofNat valid
  rw [String.utf8EncodeChar, code, if_neg (by omega), if_neg (by omega), if_pos (by omega),
    ofNat_eq (b := a) (by omega), ofNat_eq (b := b) (by omega), ofNat_eq (b := c) (by omega)]

theorem encodeChar_four {a b c d : UInt8} (first : 0xF0 ≤ a.toNat ∧ a.toNat < 0xF5)
    (second : secondOfFour a b = true) (tail : isTail c = true) (tail' : isTail d = true) :
    String.utf8EncodeChar
        (Char.ofNat (((a.toNat % 8 * 64 + tailBits b) * 64 + tailBits c) * 64 + tailBits d)) =
      [a, b, c, d] := by
  simp only [secondOfFour, isTail, Bool.and_eq_true, Bool.or_eq_true, bne_iff_ne, ne_eq,
    decide_eq_true_eq, UInt8.le_iff_toNat_le, ← UInt8.toNat_inj, UInt8.reduceToNat]
    at second tail tail'
  have valid :
      (((a.toNat % 8 * 64 + tailBits b) * 64 + tailBits c) * 64 + tailBits d).isValidChar := by
    simp only [Nat.isValidChar, tailBits]
    omega
  have code : (Char.ofNat
      (((a.toNat % 8 * 64 + tailBits b) * 64 + tailBits c) * 64 + tailBits d)).val.toNat =
      ((a.toNat % 8 * 64 + b.toNat % 64) * 64 + c.toNat % 64) * 64 + d.toNat % 64 :=
    toNat_ofNat valid
  rw [String.utf8EncodeChar, code, if_neg (by omega), if_neg (by omega), if_neg (by omega),
    ofNat_eq (b := a) (by omega), ofNat_eq (b := b) (by omega), ofNat_eq (b := c) (by omega),
    ofNat_eq (b := d) (by omega)]

/-- A character that is cut off is encoded by the bytes that it takes. -/
theorem scalar?_bytes {a : UInt8} {rest : Bytes} {c : Char} {n : Nat}
    (found : scalar? a rest = some (c, n)) : String.utf8EncodeChar c = a :: rest.take n := by
  simp only [scalar?, UInt8.lt_iff_toNat_lt, UInt8.reduceToNat] at found
  split at found
  · next low =>
    cases found
    exact encodeChar_of_byte low
  · split at found
    · cases found
    · split at found
      · split at found
        · split at found
          · next tail =>
            cases found
            exact encodeChar_two (by omega) tail
          · cases found
        · cases found
      · split at found
        · split at found
          · split at found
            · next tails =>
              rw [Bool.and_eq_true] at tails
              cases found
              exact encodeChar_three (by omega) tails.1 tails.2
            · cases found
          · cases found
        · split at found
          · split at found
            · split at found
              · next tails =>
                rw [Bool.and_eq_true, Bool.and_eq_true] at tails
                cases found
                exact encodeChar_four (by omega) tails.1.1 tails.1.2 tails.2
              · cases found
            · cases found
          · cases found

/-- What is cut: the pieces already done, the bytes that still belong to the last
one, and the others. -/
theorem cut_bytes (done : List Piece) (n : Nat) (s : Bytes) :
    (cut done n s).flatMap Piece.bytes = done.reverse.flatMap Piece.bytes ++ s.drop n := by
  induction s generalizing done n with
  | nil => cases n <;> simp [cut]
  | cons a rest ih =>
    cases n with
    | succ n => simp [cut, ih]
    | zero =>
      rw [cut]
      split
      · next c n found =>
        rw [ih]
        have own := scalar?_bytes found
        simp [Piece.bytes, own, List.append_assoc]
      · rw [ih]
        simp [Piece.bytes]

theorem pieces_bytes (s : Bytes) : (pieces s).flatMap Piece.bytes = s := cut_bytes [] 0 s

/-- A low byte stands for its own character only. -/
theorem eq_of_mem_encodeChar {c : Char} {b : UInt8} (member : b ∈ String.utf8EncodeChar c)
    (low : b < 0x80) : c.toNat = b.toNat := by
  have low' : b.toNat < 0x80 := low
  have high {n : Nat} (least : 0x80 ≤ n) (most : n < 256) : b ≠ UInt8.ofNat n := by
    rintro rfl
    rw [UInt8.toNat_ofNat_of_lt' most] at low'
    omega
  have code : c.val.toNat = c.toNat := rfl
  rw [String.utf8EncodeChar, code] at member
  split at member
  · next single =>
    rw [List.mem_singleton.mp member, UInt8.toNat_ofNat_of_lt' (Nat.lt_of_le_of_lt single (by decide))]
  · exfalso
    split at member
    · simp only [List.mem_cons, List.not_mem_nil, or_false] at member
      rcases member with same | same <;> exact high (by omega) (by omega) same
    · split at member
      · simp only [List.mem_cons, List.not_mem_nil, or_false] at member
        rcases member with same | same | same <;> exact high (by omega) (by omega) same
      · simp only [List.mem_cons, List.not_mem_nil, or_false] at member
        rcases member with same | same | same | same <;> exact high (by omega) (by omega) same

end Utf8

/-! ## Quoted texts -/

namespace Quoted

/-- A text of characters that stand for themselves between double quotes. -/
def Plain (s : Bytes) : Prop :=
  ∀ p ∈ Utf8.pieces s, ∃ c, p = .char c ∧ character '"' c = c.toString

theorem encode_foldl (shown : String) (ps : List Utf8.Piece) :
    Utf8.encode (ps.foldl (fun shown p => shown ++ piece p) shown) =
      Utf8.encode shown ++ ps.flatMap fun p => Utf8.encode (piece p) := by
  induction ps generalizing shown with
  | nil => simp
  | cons p ps ih => simp [ih]

theorem encode_text {s : Bytes} (plain : Plain s) :
    Utf8.encode (text s) = 0x22 :: (s ++ [0x22]) := by
  have own : ∀ p ∈ Utf8.pieces s, Utf8.encode (piece p) = p.bytes := by
    intro p member
    obtain ⟨c, rfl, shown⟩ := plain p member
    rw [piece, shown, Utf8.encode_eq]
    simp [Utf8.Piece.bytes]
  have inner : ((Utf8.pieces s).flatMap fun p => Utf8.encode (piece p)) = s := by
    rw [List.flatMap_def, List.map_congr_left own, ← List.flatMap_def, Utf8.pieces_bytes]
  have quote : Utf8.encode "\"" = [0x22] := by
    rw [Utf8.encode_eq]
    rfl
  rw [text, Utf8.encode_push, encode_foldl, inner, quote]
  rfl

theorem Plain.not_mem {s : Bytes} (plain : Plain s) : (0x22 : UInt8) ∉ s := by
  intro member
  rw [← Utf8.pieces_bytes s, List.mem_flatMap] at member
  obtain ⟨p, isPiece, member⟩ := member
  obtain ⟨c, rfl, shown⟩ := plain p isPiece
  have code : c.toNat = 0x22 := Utf8.eq_of_mem_encodeChar member (by decide)
  have quote : c = '"' := Char.toNat_inj.mp code
  rw [quote] at shown
  exact absurd shown (by decide)

end Quoted

end BoxScript
