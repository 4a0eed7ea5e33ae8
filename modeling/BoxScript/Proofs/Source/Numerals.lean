import Mathlib.Data.List.Basic
import BoxScript.Proofs.Source.Reading
import BoxScript.Proofs.Text.Encoding

/-!
# Numbers as text

The text of an integer is a number with the value of that integer. The text of
a real is a number too, unless it has an exponent: digits, a point and digits,
behind a sign if the real is negative. Whether that number has the value of the
real is a matter of rounding and is not looked at here.
-/

set_option autoImplicit false

namespace BoxScript.Source

open Grammar

/-! ## Digits -/

/-- One or more digits. -/
structure Digits (s : Bytes) : Prop where
  some' : s ≠ []
  all : ∀ b ∈ s, isDigit b = true

theorem ne_of_isDigit {b c : UInt8} (digit : isDigit b = true) (other : isDigit c = false) :
    b ≠ c := by
  rintro rfl
  rw [digit] at other
  cases other

theorem Digits.not_mem {s : Bytes} {c : UInt8} (digits : Digits s) (other : isDigit c = false) :
    c ∉ s :=
  fun member => ne_of_isDigit (digits.all c member) other rfl

theorem continuesNumber_digits {last : UInt8} {digits rest : Bytes} (digit : isDigit last = true)
    (all : ∀ b ∈ digits, isDigit b = true)
    (continues : ∀ b, isDigit b = true → ContinuesNumber b rest) :
    ContinuesNumber last (digits ++ rest) := by
  induction digits generalizing last with
  | nil => exact continues last digit
  | cons b digits ih =>
    have first := all b (by simp)
    exact ⟨.inl first, ih first fun c member => all c (by simp [member])⟩

theorem Digits.isUnsigned_append {s rest : Bytes} (digits : Digits s)
    (continues : ∀ b, isDigit b = true → ContinuesNumber b rest) : IsUnsigned (s ++ rest) := by
  cases s with
  | nil => exact absurd rfl digits.some'
  | cons b s =>
    have first := digits.all b (by simp)
    exact ⟨first, continuesNumber_digits first (fun c member => digits.all c (by simp [member]))
      continues⟩

theorem Digits.isUnsigned {s : Bytes} (digits : Digits s) : IsUnsigned s := by
  have whole : IsUnsigned (s ++ []) :=
    digits.isUnsigned_append fun b digit => ne_of_isDigit digit (by decide)
  rwa [List.append_nil] at whole

theorem isUnsigned_fraction {whole places : Bytes} (front : Digits whole) (back : Digits places) :
    IsUnsigned (whole ++ point :: places) := by
  refine front.isUnsigned_append fun b digit => ⟨.inr ⟨by decide, digit⟩, ?_⟩
  cases places with
  | nil => exact absurd rfl back.some'
  | cons c places =>
    have unsigned := back.isUnsigned
    exact ⟨.inl unsigned.1, unsigned.2⟩

/-! ## Characters -/

/-- One or more decimal digits. -/
structure DecimalChars (cs : List Char) : Prop where
  some' : cs ≠ []
  all : ∀ c ∈ cs, c.isDigit = true

namespace DecimalChars

theorem code {c : Char} (digit : c.isDigit = true) : 0x30 ≤ c.toNat ∧ c.toNat ≤ 0x39 := by
  simpa [Char.isDigit, UInt32.le_iff_toNat_le] using digit

theorem toNat_ofNat {c : Char} (digit : c.isDigit = true) :
    (UInt8.ofNat c.toNat).toNat = c.toNat :=
  UInt8.toNat_ofNat_of_lt' (Nat.lt_of_le_of_lt (code digit).2 (by decide))

theorem digits {cs : List Char} (chars : DecimalChars cs) :
    Digits (cs.map fun c => UInt8.ofNat c.toNat) := by
  refine ⟨by simpa using chars.some', ?_⟩
  intro b member
  obtain ⟨c, isChar, rfl⟩ := List.mem_map.mp member
  have digit := chars.all c isChar
  simp [isDigit, UInt8.le_iff_toNat_le, toNat_ofNat digit, code digit]

theorem toDigits (n : Nat) : DecimalChars (Nat.toDigits 10 n) :=
  ⟨Nat.toDigits_ne_nil, fun _ member => Nat.isDigit_of_mem_toDigits (by decide) (by decide) member⟩

end DecimalChars

theorem encode_toString (n : Nat) :
    Utf8.encode (toString n) = (Nat.toDigits 10 n).map fun c => UInt8.ofNat c.toNat := by
  have chars : (toString n).toList = Nat.toDigits 10 n := by
    rw [Nat.toString_eq_ofList_toDigits, String.toList_ofList]
  rw [Utf8.encode_of_low, chars]
  intro c member
  rw [chars] at member
  have range := DecimalChars.code ((DecimalChars.toDigits n).all c member)
  omega

theorem digits_toString (n : Nat) : Digits (Utf8.encode (toString n)) := by
  rw [encode_toString]
  exact (DecimalChars.toDigits n).digits

theorem decimal_toString (n : Nat) : decimal (Utf8.encode (toString n)) = n := by
  have sameStep : ∀ value, ∀ c ∈ Nat.toDigits 10 n,
      10 * value + ((UInt8.ofNat c.toNat).toNat - 0x30) = 10 * value + (c.toNat - '0'.toNat) := by
    intro value c member
    rw [DecimalChars.toNat_ofNat ((DecimalChars.toDigits n).all c member)]
    rfl
  calc decimal (Utf8.encode (toString n))
      = (Nat.toDigits 10 n).foldl
          (fun value c => 10 * value + ((UInt8.ofNat c.toNat).toNat - 0x30)) 0 := by
        rw [encode_toString, ← digitsValue_eq, digitsValue, List.foldl_map]
    _ = Nat.ofDigitChars 10 (Nat.toDigits 10 n) 0 := by
        rw [Nat.ofDigitChars_eq_foldl, List.foldl_ext _ _ _ sameStep]
    _ = n := Nat.ofDigitChars_ten_toDigits

/-! ## Integers -/

theorem Digits.filter {s : Bytes} (digits : Digits s) : s.filter (· != underscore) = s := by
  rw [List.filter_eq_self]
  intro b member
  simpa using ne_of_isDigit (digits.all b member) (by decide)

theorem Digits.splitSign {s : Bytes} (digits : Digits s) : splitSign s = (false, s) := by
  cases s with
  | nil => rfl
  | cons b s =>
    have first := digits.all b (by simp)
    have noMinus : b ≠ minus := ne_of_isDigit first (by decide)
    have noPlus : b ≠ plus := ne_of_isDigit first (by decide)
    simp [Source.splitSign, noMinus, noPlus]

theorem number?_digits {s : Bytes} (digits : Digits s) :
    number? s = (integer? (decimal s)).map .integer := by
  rw [number?, digits.filter, digits.splitSign]
  simp [digits.not_mem (show isDigit point = false by decide)]

theorem number?_minus {s : Bytes} (digits : Digits s) :
    number? (minus :: s) = (integer? (-(decimal s : Int))).map .integer := by
  have kept : (minus :: s).filter (· != underscore) = minus :: s := by
    rw [List.filter_cons_of_pos (by decide), digits.filter]
  have sign : Source.splitSign (minus :: s) = (true, s) := rfl
  rw [number?, kept, sign]
  simp [digits.not_mem (show isDigit point = false by decide)]

theorem integer?_toInt (n : Int64) : integer? n.toInt = some n := by
  rw [integer?_eq, if_pos ⟨Int64.minValue_le_toInt n, Int64.toInt_le n⟩, Int64.ofInt_toInt]

theorem encode_minus (s : String) : Utf8.encode ("-" ++ s) = minus :: Utf8.encode s := by
  have sign : Utf8.encode "-" = [minus] := by
    rw [Utf8.encode_eq]
    rfl
  rw [Utf8.encode_append, sign, List.singleton_append]

/-- The text of an integer is a number with its value. -/
theorem integer_numeral (n : Int64) :
    IsNumber (Utf8.encode (toString n.toInt)) ∧
      number? (Utf8.encode (toString n.toInt)) = some (.integer n) := by
  have fits := integer?_toInt n
  rw [Int.toString_eq_repr, Int.repr_eq_if]
  split
  · next positive =>
    have digits := digits_toString n.toInt.toNat
    refine ⟨.inl digits.isUnsigned, ?_⟩
    have value : (decimal (Utf8.encode (toString n.toInt.toNat)) : Int) = n.toInt := by
      rw [decimal_toString]
      omega
    exact (number?_digits digits).trans (by rw [value, fits]; rfl)
  · next negative =>
    have digits := digits_toString (-n.toInt).toNat
    rw [encode_minus]
    refine ⟨.inr ⟨minus, _, rfl, by decide, digits.isUnsigned⟩, ?_⟩
    have value : -(decimal (Utf8.encode (toString (-n.toInt).toNat)) : Int) = n.toInt := by
      rw [decimal_toString]
      omega
    exact (number?_minus digits).trans (by rw [value, fits]; rfl)

/-! ## Reals -/

/-- Digits, a point and digits. -/
def IsFraction (s : String) : Prop :=
  ∃ whole places, s.toList = whole ++ '.' :: places ∧ DecimalChars whole ∧ DecimalChars places

theorem IsFraction.isUnsigned {s : String} (fraction : IsFraction s) :
    IsUnsigned (Utf8.encode s) := by
  obtain ⟨whole, places, chars, front, back⟩ := fraction
  have low : ∀ c ∈ s.toList, c.toNat < 0x80 := by
    intro c member
    rw [chars, List.mem_append, List.mem_cons] at member
    rcases member with member | rfl | member
    · have := DecimalChars.code (front.all c member)
      omega
    · decide
    · have := DecimalChars.code (back.all c member)
      omega
  rw [Utf8.encode_of_low low, chars, List.map_append, List.map_cons]
  exact isUnsigned_fraction front.digits back.digits

theorem toList_zeros (n : Nat) : (Real.zeros n).toList = List.replicate n '0' := by
  rw [Real.zeros, String.pushn_eq_repeat_push]
  induction n with
  | zero => rfl
  | succ n ih => rw [Nat.repeat, String.toList_push, ih, List.replicate_succ']

theorem DecimalChars.append_zeros {cs : List Char} (chars : DecimalChars cs) (n : Nat) :
    DecimalChars (cs ++ List.replicate n '0') := by
  refine ⟨by simp [chars.some'], fun c member => ?_⟩
  rcases List.mem_append.mp member with member | member
  · exact chars.all c member
  · rw [List.eq_of_mem_replicate member]
    decide

theorem DecimalChars.zeros_append {cs : List Char} (chars : DecimalChars cs) (n : Nat) :
    DecimalChars (List.replicate n '0' ++ cs) := by
  refine ⟨by simp [chars.some'], fun c member => ?_⟩
  rcases List.mem_append.mp member with member | member
  · rw [List.eq_of_mem_replicate member]
    decide
  · exact chars.all c member

theorem decimalChars_zero : DecimalChars ['0'] := by
  refine ⟨by simp, fun c member => ?_⟩
  rw [List.mem_singleton.mp member]
  decide

theorem isFraction_positional {digits : String} (chars : DecimalChars digits.toList) (whole : Int) :
    IsFraction (Real.positional digits whole) := by
  rw [Real.positional]
  split
  · refine ⟨['0'], List.replicate (-whole).toNat '0' ++ digits.toList, ?_, decimalChars_zero,
      chars.zeros_append _⟩
    simp [toList_zeros]
  · split
    · refine ⟨_, ['0'], ?_, chars.append_zeros (whole.toNat - digits.length), decimalChars_zero⟩
      simp [toList_zeros]
    · next positive short =>
      have size : digits.toList.length = digits.length := String.length_toList
      refine ⟨digits.toList.take whole.toNat, digits.toList.drop whole.toNat, by simp, ?_, ?_⟩
      · refine ⟨?_, fun c member => chars.all c (List.mem_of_mem_take member)⟩
        have := chars.some'
        simp [List.take_eq_nil_iff, this]
        omega
      · refine ⟨?_, fun c member => chars.all c (List.mem_of_mem_drop member)⟩
        rw [ne_eq, List.drop_eq_nil_iff]
        omega

theorem isFraction_positive {word : Nat} (plain : 'e' ∉ (Real.positive word).toList) :
    IsFraction (Real.positive word) := by
  have chars : DecimalChars (toString (Shortest.digits (Binary.split word)).digits).toList := by
    rw [Nat.toString_eq_ofList_toDigits, String.toList_ofList]
    exact .toDigits _
  simp only [Real.positive] at plain ⊢
  split
  · next far =>
    -- So far from the point the text has an exponent.
    rw [if_pos far] at plain
    refine absurd ?_ plain
    simp only [Real.scientific, String.toList_append, List.mem_append]
    refine .inl (.inl (.inr ?_))
    split <;> decide
  · exact isFraction_positional chars _

/-- What stands behind the sign of a finite real. -/
def unsignedText (x : Float) : String :=
  if Binary.magnitude x = 0 then "0.0" else Real.positive (Binary.magnitude x)

/-- The texts of infinities and of no number are read as whole numbers, if at all. -/
theorem text_of_real {x : Float}
    (back : numberValue (Utf8.encode (Real.text x)) = .ok (.real x)) :
    Real.text x = (if Binary.isNegative x then "-" else "") ++ unsignedText x := by
  have notWhole {s : String} {n : Int64}
      (whole : numberValue (s.toList.flatMap String.utf8EncodeChar) = .ok (.integer n)) :
      Real.text x ≠ s := by
    intro same
    rw [same, Utf8.encode_eq, whole] at back
    cases back
  by_cases none : Binary.infinityWord < Binary.magnitude x
  · have text : Real.text x = "NaN" := by simp only [Real.text, if_pos none]
    exact absurd text (notWhole rfl)
  · by_cases infinite : Binary.magnitude x = Binary.infinityWord
    · cases sign : Binary.isNegative x with
      | true =>
        have text : Real.text x = "-Inf" := by simp [Real.text, infinite, sign]
        exact absurd text (notWhole rfl)
      | false =>
        have text : Real.text x = "+Inf" := by simp [Real.text, infinite, sign]
        exact absurd text (notWhole rfl)
    · simp only [Real.text, if_neg none, if_neg infinite, unsignedText]

/-- The text of a real without an exponent is a number, if it is read as the real. -/
theorem real_numeral {x : Float} (plain : 'e' ∉ (Real.text x).toList)
    (back : numberValue (Utf8.encode (Real.text x)) = .ok (.real x)) :
    IsNumber (Utf8.encode (Real.text x)) := by
  have text := text_of_real back
  rw [text] at plain ⊢
  have body : IsUnsigned (Utf8.encode (unsignedText x)) := by
    refine IsFraction.isUnsigned ?_
    rw [unsignedText] at plain ⊢
    split
    · exact ⟨['0'], ['0'], rfl, decimalChars_zero, decimalChars_zero⟩
    · next positive =>
      rw [if_neg positive] at plain
      exact isFraction_positive fun member => plain (by simp [member])
  split
  · rw [encode_minus]
    exact .inr ⟨minus, _, rfl, by decide, body⟩
  · rw [String.empty_append]
    exact .inl body

end BoxScript.Source
