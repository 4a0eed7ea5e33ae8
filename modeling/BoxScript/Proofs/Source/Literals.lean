import BoxScript.Proofs.Source.Malformed
import BoxScript.Proofs.Source.Numerals

/-!
# Integer literals

What a number is can be said of the longest run of digits, points and
underscores at its place, sign apart: where its separators stand and how it
ends. The scanner finds exactly these runs, one byte at a time. Without a point
a number is the integer that its digits spell, if that fits into 64 bits, and
otherwise out of range. So every integer is read back from its text.
-/

set_option autoImplicit false

namespace BoxScript.Source

open Grammar

/-! ## Runs -/

/-- The sign at the front, if there is one. -/
def signAt (s : Bytes) : Bytes := (s.take 1).filter isSign

def inNumber (b : UInt8) : Bool := isDigit b || isSeparator b

/-- The longest run of digits, points and underscores behind the sign. -/
def runAt (s : Bytes) : Bytes := (s.drop (signAt s).length).takeWhile inNumber

/-- The run starts with a digit, has a digit before each point and underscore,
and does not end in an underscore. -/
structure WellPlaced (run : Bytes) : Prop where
  starts : ∃ b ∈ run.head?, isDigit b
  separated : run.IsChain fun b c => isSeparator c → isDigit b
  ends : run.getLast? ≠ some underscore

theorem inNumber_iff {b : UInt8} : inNumber b = true ↔ isDigit b ∨ isSeparator b := by
  simp [inNumber]

theorem not_isSeparator_of_isDigit {b : UInt8} (digit : isDigit b) : ¬ isSeparator b := by
  intro separator
  simp only [isSeparator, Bool.or_eq_true, beq_iff_eq] at separator
  rcases separator with rfl | rfl <;> revert digit <;> decide

theorem continuesNumber_iff {last : UInt8} {tail : Bytes} :
    ContinuesNumber last tail ↔ (∀ b ∈ tail, inNumber b) ∧
      (last :: tail).IsChain (fun b c => isSeparator c → isDigit b) ∧
      (last :: tail).getLast? ≠ some underscore := by
  induction tail generalizing last with
  | nil => simp [ContinuesNumber]
  | cons b tail ih =>
    have placed : isDigit b ∨ isSeparator b ∧ isDigit last ↔
        inNumber b ∧ (isSeparator b → isDigit last) := by
      rw [inNumber_iff]
      have apart := @not_isSeparator_of_isDigit b
      tauto
    rw [ContinuesNumber, ih, placed, List.isChain_cons_cons, List.getLast?_cons_cons,
      List.forall_mem_cons]
    tauto

theorem isUnsigned_iff {run : Bytes} :
    IsUnsigned run ↔ (∀ b ∈ run, inNumber b) ∧ WellPlaced run := by
  cases run with
  | nil =>
    refine ⟨False.elim, ?_⟩
    rintro ⟨-, ⟨⟨b, head, -⟩, -, -⟩⟩
    cases head
  | cons b tail =>
    rw [IsUnsigned, continuesNumber_iff]
    constructor
    · rintro ⟨digit, inside, separated, ends⟩
      refine ⟨?_, ⟨b, rfl, digit⟩, separated, ends⟩
      rw [List.forall_mem_cons]
      exact ⟨inNumber_iff.mpr (.inl digit), inside⟩
    · rintro ⟨inside, ⟨c, head, digit⟩, separated, ends⟩
      cases head
      exact ⟨digit, fun c member => inside c (List.mem_cons_of_mem b member), separated, ends⟩

theorem signAt_cases (s : Bytes) :
    (signAt s = [] ∧ ∀ b ∈ s.head?, ¬ isSign b) ∨
      ∃ b rest, s = b :: rest ∧ isSign b ∧ signAt s = [b] := by
  cases s with
  | nil => exact .inl ⟨rfl, nofun⟩
  | cons b rest =>
    by_cases sign : isSign b = true
    · exact .inr ⟨b, rest, rfl, sign, by simp [signAt, sign]⟩
    · exact .inl ⟨by simp [signAt, sign], by simpa using sign⟩

theorem inNumber_of_mem {s : Bytes} {b : UInt8} (member : b ∈ runAt s) : inNumber b :=
  List.all_eq_true.mp List.all_takeWhile b member

/-- A source is the sign and the run at its front and what stands behind them. -/
theorem eq_signAt_append (s : Bytes) :
    s = signAt s ++ runAt s ++ (s.drop (signAt s).length).dropWhile inNumber := by
  rw [List.append_assoc, runAt, List.takeWhile_append_dropWhile]
  rcases signAt_cases s with ⟨none, -⟩ | ⟨b, rest, rfl, -, one⟩
  · rw [none]
    rfl
  · rw [one]
    rfl

theorem signAt_of_isSign {sign : UInt8} (isSign : isSign sign) (t : Bytes) :
    signAt (sign :: t) = [sign] := by
  simp [signAt, isSign]

theorem signAt_of_isDigit {b : UInt8} (digit : isDigit b) (t : Bytes) : signAt (b :: t) = [] := by
  simp [signAt, not_isSign_of_isDigit digit]

theorem takeWhile_inNumber {run rest : Bytes} (inside : ∀ b ∈ run, inNumber b)
    (ends : ∀ b ∈ rest.head?, ¬ (isDigit b ∨ isSeparator b)) :
    (run ++ rest).takeWhile inNumber = run := by
  have cut : (run ++ rest).span inNumber = (run, rest) :=
    span_append inside (by simpa only [inNumber_iff] using ends)
  rw [List.span_eq_takeWhile_dropWhile] at cut
  exact (Prod.mk.inj cut).1

/-- The scanner cuts off the sign and the run, if the run is well placed. -/
theorem numberLexeme_run_iff {s literal rest : Bytes} :
    numberLexeme s = .ok (literal, rest) ↔
      s = literal ++ rest ∧ literal = signAt s ++ runAt s ∧ WellPlaced (runAt s) := by
  rw [numberLexeme_iff]
  constructor
  · rintro ⟨rfl, proper | ⟨sign, digits, rfl, isSign, proper⟩, ends⟩
    · obtain ⟨inside, placed⟩ := isUnsigned_iff.mp proper
      cases literal with
      | nil => cases proper
      | cons b tail =>
        have run : runAt (b :: tail ++ rest) = b :: tail := by
          rw [runAt, List.cons_append, signAt_of_isDigit proper.1, List.length_nil, List.drop_zero,
            ← List.cons_append, takeWhile_inNumber inside ends]
        rw [run, List.cons_append, signAt_of_isDigit proper.1]
        exact ⟨rfl, rfl, placed⟩
    · obtain ⟨inside, placed⟩ := isUnsigned_iff.mp proper
      have run : runAt (sign :: digits ++ rest) = digits := by
        rw [runAt, List.cons_append, signAt_of_isSign isSign]
        exact takeWhile_inNumber inside ends
      rw [run, List.cons_append, signAt_of_isSign isSign]
      exact ⟨rfl, rfl, placed⟩
  · rintro ⟨whole, rfl, placed⟩
    have behind : rest = (s.drop (signAt s).length).dropWhile inNumber :=
      List.append_cancel_left (whole.symm.trans (eq_signAt_append s))
    have unsigned : IsUnsigned (runAt s) :=
      isUnsigned_iff.mpr ⟨fun _ => inNumber_of_mem, placed⟩
    refine ⟨whole, ?_, ?_⟩
    · rcases signAt_cases s with ⟨none, -⟩ | ⟨b, others, -, isSign, one⟩
      · rw [none]
        exact .inl unsigned
      · rw [one]
        exact .inr ⟨b, runAt s, rfl, isSign, unsigned⟩
    · intro b head
      have stops := List.head?_dropWhile_not inNumber (s.drop (signAt s).length)
      rw [← behind, Option.mem_def.mp head] at stops
      rw [← inNumber_iff]
      simpa using stops

/-! ## Values -/

/-- The number that the digits of a run spell, negative behind a minus. -/
def signedValue (sign run : Bytes) : Int :=
  if sign = [minus] then -(decimal (run.filter isDigit) : Int) else decimal (run.filter isDigit)

theorem WellPlaced.digits {run : Bytes} (placed : WellPlaced run) : Digits (run.filter isDigit) := by
  obtain ⟨b, head, digit⟩ := placed.starts
  refine ⟨?_, fun c member => (List.mem_filter.mp member).2⟩
  have first : b ∈ run.filter isDigit := List.mem_filter.mpr ⟨List.mem_of_mem_head? head, digit⟩
  exact List.ne_nil_of_mem first

/-- Without points, what is left without underscores is the digits. -/
theorem filter_run {run : Bytes} (inside : ∀ b ∈ run, inNumber b) (whole : point ∉ run) :
    run.filter (· != underscore) = run.filter isDigit := by
  refine List.filter_congr fun b member => ?_
  rcases inNumber_iff.mp (inside b member) with digit | separator
  · simpa [digit] using ne_of_isDigit digit (by decide)
  · have notPoint : b ≠ point := by
      rintro rfl
      exact whole member
    obtain rfl : b = underscore := by simpa [isSeparator, notPoint] using separator
    rfl

theorem splitSign_run {s : Bytes} (placed : WellPlaced (runAt s)) (whole : point ∉ runAt s) :
    splitSign ((signAt s ++ runAt s).filter (· != underscore)) =
      (decide (signAt s = [minus]), (runAt s).filter isDigit) := by
  rw [List.filter_append, filter_run (fun _ => inNumber_of_mem) whole]
  rcases signAt_cases s with ⟨none, -⟩ | ⟨b, others, -, isSign, one⟩
  · rw [none]
    exact placed.digits.splitSign
  · rw [one]
    simp only [Source.isSign, Bool.or_eq_true, beq_iff_eq] at isSign
    rcases isSign with rfl | rfl <;> rfl

theorem numberValue_whole {literal body : Bytes} {negative : Bool}
    (parts : splitSign (literal.filter (· != underscore)) = (negative, body)) (whole : point ∉ body)
    {value : Int} (spelled : value = if negative then -(decimal body : Int) else decimal body) :
    numberValue literal = if -2 ^ 63 ≤ value ∧ value ≤ 2 ^ 63 - 1 then
      .ok (.integer (Int64.ofInt value)) else .error .outOfRange := by
  have others : ∀ b ∈ body, (b != point) = true := by
    intro b member
    simp only [bne_iff_ne]
    rintro rfl
    exact whole member
  have cut : (body ++ []).span (· != point) = (body, []) := span_append others (by simp)
  rw [List.append_nil] at cut
  rw [numberValue, parts]
  simp only [cut, digitsValue_eq, ← spelled, Int64.toInt_minValue, Int64.toInt_maxValue]

theorem message_outOfRange (literal : Bytes) :
    (Cause.malformedNumber literal .outOfRange).message =
      "malformed number " ++ Utf8.ascii literal ++ ": value out of range" := by
  have text : ": " ++ Malformed.outOfRange.message = ": value out of range" := by decide
  calc (Cause.malformedNumber literal .outOfRange).message
      = "malformed number " ++ Utf8.ascii literal ++ (": " ++ Malformed.outOfRange.message) :=
        String.append_assoc
    _ = "malformed number " ++ Utf8.ascii literal ++ ": value out of range" := by rw [text]

/-- What a number without a point comes to, for the integer that it spells. -/
structure DecodesWhole (s literal rest : Bytes) (value : Int) : Prop where
  inside : (∃ n : Int64, n.toInt = value ∧ number s = .ok (.integer n, rest)) ↔
    -2 ^ 63 ≤ value ∧ value ≤ 2 ^ 63 - 1
  outside : ¬ (-2 ^ 63 ≤ value ∧ value ≤ 2 ^ 63 - 1) → ∃ fault, number s = .error fault ∧
    fault.cause.message = "malformed number " ++ Utf8.ascii literal ++ ": value out of range" ∧
    ∀ before, (fault.locate (before ++ s)).offset = before.length

theorem decodesWhole {s literal rest : Bytes} (read : numberLexeme s = .ok (literal, rest))
    (whole : point ∉ literal) :
    DecodesWhole s literal rest (signedValue (signAt s) (runAt s)) := by
  obtain ⟨-, rfl, placed⟩ := numberLexeme_run_iff.mp read
  have whole' : point ∉ runAt s := fun member => whole (List.mem_append_right _ member)
  have digits : point ∉ (runAt s).filter isDigit := placed.digits.not_mem (by decide)
  have value : numberValue (signAt s ++ runAt s) = _ :=
    numberValue_whole (splitSign_run placed whole') digits
      (show signedValue (signAt s) (runAt s) = _ by simp [signedValue])
  generalize signedValue (signAt s) (runAt s) = v at value
  refine ⟨⟨?_, ?_⟩, ?_⟩
  · rintro ⟨n, rfl, -⟩
    exact ⟨Int64.le_toInt n, Int.le_sub_one_of_lt (Int64.toInt_lt n)⟩
  · intro range
    rw [if_pos range] at value
    refine ⟨Int64.ofInt v, ?_, by simp only [number, read, value]⟩
    exact Int64.toInt_ofInt_of_le range.1 (by omega)
  · intro range
    rw [if_neg range] at value
    refine ⟨⟨s.length, false, .malformedNumber (signAt s ++ runAt s) .outOfRange⟩,
      by simp only [number, read, value], ?_, ?_⟩
    · exact message_outOfRange _
    · intro before
      simp [Fault.locate]

/-- The text of an integer is read as that integer. -/
theorem parse_integer (n : Int64) :
    parse (Utf8.encode (Expr.integer n).render) = .ok [.integer n] := by
  obtain ⟨proper, value⟩ := integer_numeral n
  rw [Expr.render]
  exact parse_number proper value

/-- At every place a number is scanned iff the run there is well placed, and it is
the sign and the run. Without a point it is read as the integer that it spells,
exactly if that has 64 bits, and reported at its start as out of range otherwise.
Every integer is read back from its text. -/
theorem integer_literals_exact :
    (∀ s, ((∃ result, numberLexeme s = .ok result) ↔ WellPlaced (runAt s)) ∧
      ∀ literal rest, numberLexeme s = .ok (literal, rest) →
        literal = signAt s ++ runAt s ∧ s = literal ++ rest ∧
        (point ∉ literal → DecodesWhole s literal rest (signedValue (signAt s) (runAt s)))) ∧
    ∀ n : Int64, parse (Utf8.encode (Expr.integer n).render) = .ok [.integer n] := by
  refine ⟨fun s => ⟨⟨?_, ?_⟩, ?_⟩, parse_integer⟩
  · rintro ⟨⟨literal, rest⟩, read⟩
    exact (numberLexeme_run_iff.mp read).2.2
  · intro placed
    exact ⟨_, numberLexeme_run_iff.mpr ⟨eq_signAt_append s, rfl, placed⟩⟩
  · intro literal rest read
    obtain ⟨whole, run, -⟩ := numberLexeme_run_iff.mp read
    exact ⟨run, whole, decodesWhole read⟩

/-- One below the least integer, written `-09223372036854775_809` in front of a
semicolon. -/
theorem integer_literals_exact_beyond :
    ∃ literal, numberLexeme (literal ++ [semicolon]) = .ok (literal, [semicolon]) ∧
      signedValue (signAt (literal ++ [semicolon])) (runAt (literal ++ [semicolon])) =
        -9223372036854775809 ∧
      ∃ fault, number (literal ++ [semicolon]) = .error fault ∧
        ∀ before, (fault.locate (before ++ (literal ++ [semicolon]))).offset = before.length := by
  let literal : Bytes := [0x2D, 0x30, 0x39, 0x32, 0x32, 0x33, 0x33, 0x37, 0x32, 0x30, 0x33, 0x36,
    0x38, 0x35, 0x34, 0x37, 0x37, 0x35, 0x5F, 0x38, 0x30, 0x39]
  have read : numberLexeme (literal ++ [semicolon]) = .ok (literal, [semicolon]) := rfl
  have value : signedValue (signAt (literal ++ [semicolon])) (runAt (literal ++ [semicolon])) =
      -9223372036854775809 := rfl
  obtain ⟨-, -, decodes⟩ := (integer_literals_exact.1 (literal ++ [semicolon])).2 _ _ read
  have outside := (decodes (by decide)).outside
  rw [value] at outside
  obtain ⟨fault, failed, -, place⟩ := outside (by decide)
  exact ⟨literal, read, value, fault, failed, place⟩

end BoxScript.Source
