import BoxScript.Proofs.Number.Rounding
import BoxScript.Proofs.Source.Continuation

/-!
# Numbers without a value

A number that is out of range or has two points is reported as such even at the
end of the source, where it could go on. With more digits it stays out of range,
since reading decimals keeps their order, and with more points it has two of
them all the more. What can mend it is a first point: it makes a real of an
integer that has too many digits for one.

The reader comes to the number in the longer source as well, as it reads the
same tokens before it. So if the longer source is parsed, the longer number has
a value.
-/

set_option autoImplicit false

namespace BoxScript.Source

open Grammar

/-! ## A number that goes on -/

theorem decimal_append (s t : Bytes) :
    decimal (s ++ t) = decimal s * Nat.pow 10 t.length + decimal t := by
  induction s with
  | nil => simp [decimal]
  | cons b s ih =>
    have power : Nat.pow 10 (s.length + t.length) = Nat.pow 10 s.length * Nat.pow 10 t.length :=
      Nat.pow_add 10 _ _
    rw [List.cons_append, decimal, decimal, ih, List.length_append, power]
    ring

theorem decimal_mul_le (s t : Bytes) :
    decimal s * Nat.pow 10 t.length ≤ decimal (s ++ t) := by
  rw [decimal_append]
  exact Nat.le_add_right _ _

theorem decimal_le_append (s t : Bytes) : decimal s ≤ decimal (s ++ t) :=
  (Nat.le_mul_of_pos_right _ (Nat.pow_pos (by decide))).trans (decimal_mul_le s t)

/-- The value of a number without its sign and underscores. -/
def value? (negative : Bool) (body : Bytes) : Option Expr :=
  if point ∈ body then (real? negative body).map .real
  else (integer? (if negative then -(decimal body : Int) else decimal body)).map .integer

/-- A real by its digits before and behind its first point. -/
theorem real?_of_point {negative : Bool} {whole places : Bytes} (first : point ∉ whole) :
    real? negative (whole ++ point :: places) =
      if point ∈ places then none
      else Decimal.toReal? negative (decimal (whole ++ places)) places.length := by
  have others : ∀ b ∈ whole, (b != point) = true := by
    intro b member
    simp only [bne_iff_ne]
    rintro rfl
    exact first member
  have cut : (whole ++ point :: places).span (· != point) = (whole, point :: places) :=
    span_append others (by simp)
  rw [List.span_eq_takeWhile_dropWhile] at cut
  obtain ⟨front, back⟩ := Prod.mk.inj cut
  simp only [real?, front, back, List.tail_cons]

theorem value?_of_point {negative : Bool} {whole places : Bytes} (first : point ∉ whole) :
    value? negative (whole ++ point :: places) =
      (if point ∈ places then none
        else Decimal.toReal? negative (decimal (whole ++ places)) places.length).map .real := by
  rw [value?, if_pos (by simp), real?_of_point first]

/-- A real without a value has none with more behind it. -/
theorem value?_append_of_point {negative : Bool} {whole places more : Bytes}
    (first : point ∉ whole) (valueless : value? negative (whole ++ point :: places) = none) :
    value? negative (whole ++ point :: places ++ more) = none := by
  rw [List.append_assoc, List.cons_append, value?_of_point first, Option.map_eq_none_iff]
  rw [value?_of_point first, Option.map_eq_none_iff] at valueless
  split
  · rfl
  · next once =>
    rw [List.mem_append, not_or] at once
    rw [if_neg once.1] at valueless
    refine Decimal.toReal?_eq_none_of_le ?_ valueless
    have power : Nat.pow 10 (places.length + more.length) =
        Nat.pow 10 places.length * Nat.pow 10 more.length := Nat.pow_add 10 _ _
    rw [← List.append_assoc, List.length_append, power]
    calc decimal (whole ++ places) * (Nat.pow 10 places.length * Nat.pow 10 more.length)
        = decimal (whole ++ places) * Nat.pow 10 more.length * Nat.pow 10 places.length := by ring
      _ ≤ decimal (whole ++ places ++ more) * Nat.pow 10 places.length :=
          Nat.mul_le_mul_right _ (decimal_mul_le _ _)

/-- An integer out of range is so with more digits. -/
theorem integer?_eq_none_of_le {negative : Bool} {n n' : Nat} (le : n ≤ n')
    (outside : integer? (if negative then -(n : Int) else n) = none) :
    integer? (if negative then -(n' : Int) else n') = none := by
  rw [integer?, ite_eq_right_iff] at outside ⊢
  intro inside
  refine absurd (outside ?_) (by simp)
  cases negative with
  | false =>
    simp only [Bool.false_eq_true, if_false] at inside ⊢
    omega
  | true =>
    simp only [if_true] at inside ⊢
    omega

/-- Only a point in what is added can give a value to a number that has none,
and only if the number had no point and is in the range of the reals. -/
theorem value?_mended {negative : Bool} {body more : Bytes} {e : Expr}
    (valueless : value? negative body = none) (mended : value? negative (body ++ more) = some e) :
    point ∉ body ∧ point ∈ more ∧ ∃ x, value? negative (body ++ [point]) = some (.real x) := by
  by_cases inside : point ∈ body
  · obtain ⟨whole, places, rfl, first⟩ := List.eq_append_cons_of_mem inside
    rw [value?_append_of_point first valueless] at mended
    cases mended
  · refine ⟨inside, ?_⟩
    by_cases added : point ∈ more
    · refine ⟨added, ?_⟩
      obtain ⟨front, places, rfl, first⟩ := List.eq_append_cons_of_mem added
      have first' : point ∉ body ++ front := by simp [inside, first]
      rw [← List.append_assoc, value?_of_point first'] at mended
      rw [value?_of_point inside, if_neg (by simp), List.append_nil, List.length_nil]
      cases plain : Decimal.toReal? negative (decimal body) 0 with
      | some x => exact ⟨x, rfl⟩
      | none =>
        -- If the digits alone were out of range, all of them would be.
        have outside : Decimal.toReal? negative (decimal (body ++ front ++ places))
            places.length = none := by
          refine Decimal.toReal?_eq_none_of_le ?_ plain
          calc decimal body * Nat.pow 10 places.length
              ≤ decimal (body ++ front) * Nat.pow 10 places.length :=
                Nat.mul_le_mul_right _ (decimal_le_append _ _)
            _ ≤ decimal (body ++ front ++ places) := decimal_mul_le _ _
            _ = decimal (body ++ front ++ places) * Nat.pow 10 0 := (Nat.mul_one _).symm
        rw [outside, ite_self] at mended
        cases mended
    · rw [value?, if_neg inside, Option.map_eq_none_iff] at valueless
      rw [value?, if_neg (by simp [inside, added]),
        integer?_eq_none_of_le (decimal_le_append body more) valueless] at mended
      cases mended

theorem splitSign_append {s : Bytes} (some' : s ≠ []) (more : Bytes) :
    splitSign (s ++ more) = ((splitSign s).1, (splitSign s).2 ++ more) := by
  cases s with
  | nil => exact absurd rfl some'
  | cons b s =>
    simp only [List.cons_append, splitSign]
    split
    · rfl
    · split <;> rfl

/-- A number keeps its first byte when its underscores are left out. -/
theorem filter_ne_nil {literal : Bytes} (proper : IsNumber literal) :
    literal.filter (· != underscore) ≠ [] := by
  obtain ⟨b, rest, rfl, first, -⟩ := proper.bytes
  have kept : (b != underscore) = true := by
    simp only [bne_iff_ne]
    rintro rfl
    exact absurd first (by decide)
  simp [kept]

theorem number?_append {literal : Bytes} (proper : IsNumber literal) (more : Bytes) :
    number? (literal ++ more) =
      value? (splitSign (literal.filter (· != underscore))).1
        ((splitSign (literal.filter (· != underscore))).2 ++ more.filter (· != underscore)) := by
  rw [number?, List.filter_append, splitSign_append (filter_ne_nil proper), value?]

theorem number?_eq {literal : Bytes} (proper : IsNumber literal) :
    number? literal = value? (splitSign (literal.filter (· != underscore))).1
      (splitSign (literal.filter (· != underscore))).2 := by
  have whole := number?_append proper []
  rwa [List.append_nil, List.filter_nil, List.append_nil] at whole

theorem point_mem_splitSign {s : Bytes} : point ∈ (splitSign s).2 ↔ point ∈ s := by
  cases s with
  | nil => rfl
  | cons b s =>
    simp only [splitSign]
    split
    · next isMinus =>
      have other : point ≠ b := by
        rintro rfl
        exact absurd isMinus (by decide)
      simp [other]
    · split
      · next isPlus =>
        have other : point ≠ b := by
          rintro rfl
          exact absurd isPlus (by decide)
        simp [other]
      · rfl

theorem point_mem_filter {s : Bytes} : point ∈ s.filter (· != underscore) ↔ point ∈ s := by
  rw [List.mem_filter]
  exact and_iff_left (by decide)

theorem number?_mended {literal more : Bytes} {e : Expr} (proper : IsNumber literal)
    (valueless : number? literal = none) (mended : number? (literal ++ more) = some e) :
    point ∉ literal ∧ point ∈ more ∧ ∃ x, number? (literal ++ [point]) = some (.real x) := by
  rw [number?_eq proper] at valueless
  rw [number?_append proper] at mended
  obtain ⟨absent, added, x, value⟩ := value?_mended valueless mended
  rw [point_mem_splitSign, point_mem_filter] at absent
  exact ⟨absent, point_mem_filter.mp added, x, by rw [number?_append proper]; exact value⟩

/-! ## Where a number without a value is met -/

theorem name_not_malformed {s : Bytes} {fault : Fault} (failed : name s = .error fault) :
    fault.cause.isMalformed = false := by
  cases s with
  | nil =>
    cases failed
    rfl
  | cons b s =>
    simp only [name] at failed
    split at failed
    · cases failed
    · cases failed
      rfl

theorem quotedText_not_malformed {quote : UInt8} {s : Bytes} {fault : Fault}
    (failed : quotedText quote s = .error fault) : fault.cause.isMalformed = false := by
  simp only [quotedText] at failed
  split at failed
  · cases failed
  · cases failed
    rfl

theorem numberEnd_not_malformed {seen s : Bytes} {last : UInt8} {fault : Fault}
    (failed : numberEnd seen last s = .error fault) : fault.cause.isMalformed = false := by
  simp only [numberEnd] at failed
  split at failed
  · cases failed
    rfl
  · cases failed

theorem numberTail_not_malformed {seen s : Bytes} {last : UInt8} {fault : Fault}
    (failed : numberTail seen last s = .error fault) : fault.cause.isMalformed = false := by
  induction s generalizing seen last with
  | nil => exact numberEnd_not_malformed failed
  | cons b s ih =>
    simp only [numberTail] at failed
    split at failed
    · exact ih failed
    · split at failed
      · split at failed
        · exact ih failed
        · cases failed
          rfl
      · exact numberEnd_not_malformed failed

theorem unsignedNumber_not_malformed {s : Bytes} {fault : Fault}
    (failed : unsignedNumber s = .error fault) : fault.cause.isMalformed = false := by
  cases s with
  | nil =>
    cases failed
    rfl
  | cons b s =>
    simp only [unsignedNumber] at failed
    split at failed
    · exact numberTail_not_malformed failed
    · cases failed
      rfl

theorem numberLexeme_not_malformed {s : Bytes} {fault : Fault}
    (failed : numberLexeme s = .error fault) : fault.cause.isMalformed = false := by
  cases s with
  | nil => exact unsignedNumber_not_malformed (show unsignedNumber [] = _ from failed)
  | cons b s =>
    simp only [numberLexeme] at failed
    split at failed
    · split at failed
      · cases failed
      · next found =>
        cases failed
        exact unsignedNumber_not_malformed found
    · exact unsignedNumber_not_malformed failed

/-- A number without a value is cut off like any other. -/
theorem number_malformed {s literal : Bytes} {why : Malformed} {fault : Fault}
    (failed : number s = .error fault) (cause : fault.cause = .malformedNumber literal why) :
    ∃ rest, s = literal ++ rest ∧ IsNumber literal ∧ number? literal = none ∧
      fault.remaining = s.length ∧ fault.incomplete = false := by
  simp only [number] at failed
  split at failed
  · next found =>
    cases failed
    have other := numberLexeme_not_malformed found
    rw [cause] at other
    cases other
  · next literal' rest found =>
    split at failed
    · cases failed
    · next why' valueless =>
      cases failed
      cases cause
      obtain ⟨whole, proper, -⟩ := numberLexeme_iff.mp found
      refine ⟨rest, whole, proper, ?_, rfl, rfl⟩
      cases value : number? literal with
      | none => rfl
      | some e =>
        rw [numberValue_iff.mpr value] at valueless
        cases valueless

/-- The reader comes to a number, behind some tokens, and finds this fault. -/
def Meets (s : Bytes) (fault : Fault) : Prop :=
  ∃ ts rest, Reads s ts rest ∧ number (skipSpace rest) = .error fault

namespace Meets

variable {s middle : Bytes} {ts : List Token} {fault : Fault}

theorem after (reads : Reads s ts middle) (meets : Meets middle fault) : Meets s fault := by
  obtain ⟨us, rest, reads', failed⟩ := meets
  exact ⟨ts ++ us, rest, reads.trans reads', failed⟩

theorem after_mark {b : UInt8} (isMark : b ∈ marks) (head : (skipSpace s).head? = some b)
    (meets : Meets (skipSpace s).tail fault) : Meets s fault := by
  have reads : Reads s [.mark b] (skipSpace s).tail := .mark isMark head rfl
  exact .after reads meets

theorem of_skipSpace (meets : Meets (skipSpace s) fault) : Meets s fault := .after (.refl s) meets

end Meets

/-- Where the reading functions find numbers without a value. -/
structure Met (n : Nat) : Prop where
  sequence : ∀ {top : Bool} {seen : List Expr} {s : Bytes} {fault : Fault},
    Source.sequence top seen n s = .error fault → fault.cause.isMalformed = true → Meets s fault
  expr : ∀ {s : Bytes} {fault : Fault}, Source.expr n s = .error fault →
    fault.cause.isMalformed = true → Meets s fault
  suffixes : ∀ {front : Expr} {s : Bytes} {fault : Fault},
    Source.suffixes front n s = .error fault → fault.cause.isMalformed = true → Meets s fault
  primary : ∀ {s : Bytes} {fault : Fault}, Source.primary n s = .error fault →
    fault.cause.isMalformed = true → Meets s fault
  block : ∀ {s : Bytes} {fault : Fault}, Source.block n s = .error fault →
    fault.cause.isMalformed = true → Meets s fault
  tuple : ∀ {s : Bytes} {fault : Fault}, Source.tuple n s = .error fault →
    fault.cause.isMalformed = true → Meets s fault
  items : ∀ {seen : List Expr} {s : Bytes} {fault : Fault},
    Source.items seen n s = .error fault → fault.cause.isMalformed = true → Meets s fault

section Met

variable {n : Nat} (ih : Met n) {s : Bytes} {fault : Fault}
  (malformed : fault.cause.isMalformed = true)

include ih malformed

theorem sequence_met {top : Bool} {seen : List Expr}
    (failed : Source.sequence top seen (n + 1) s = .error fault) : Meets s fault := by
  simp only [Source.sequence] at failed
  split at failed
  · cases failed
  · split at failed
    · next separator => exact .after_mark (by decide) separator (ih.sequence failed malformed)
    · split at failed
      · next found =>
        cases failed
        exact .of_skipSpace (ih.expr found malformed)
      · next e rest found =>
        obtain ⟨t, -, reads⟩ := (sound n).expr found
        split at failed
        · cases failed
        · split at failed
          · next separator =>
            have inner := ih.sequence failed malformed
            exact .of_skipSpace (.after reads (.after_mark (by decide) separator inner))
          · cases failed
            cases malformed

theorem expr_met (failed : Source.expr (n + 1) s = .error fault) : Meets s fault := by
  simp only [Source.expr] at failed
  split at failed
  · next found =>
    cases failed
    exact ih.primary found malformed
  · next front rest found =>
    obtain ⟨t, -, reads⟩ := (sound n).primary found
    split at failed
    · next found' =>
      cases failed
      exact .after reads (ih.suffixes found' malformed)
    · next e rest' found' =>
      obtain ⟨t', -, reads', blank⟩ := (sound n).suffixes found'
      split at failed
      · next equals =>
        split at failed
        · cases failed
          cases malformed
        · split at failed
          · next found'' =>
            cases failed
            rw [← blank] at equals found''
            have inner := ih.expr found'' malformed
            exact .after reads (.after reads' (.after_mark (by decide) equals inner))
          · cases failed
      · cases failed

theorem suffixes_met {front : Expr} (failed : Source.suffixes front (n + 1) s = .error fault) :
    Meets s fault := by
  simp only [Source.suffixes] at failed
  split at failed
  · next isPoint =>
    split at failed
    · next found =>
      cases failed
      rw [name_not_malformed found] at malformed
      cases malformed
    · next member rest found =>
      obtain ⟨letters, whole, proper, ends, -⟩ := name_iff.mp found
      have reads : Reads (skipSpace s).tail [.name letters] rest :=
        ⟨rest, whole, proper, ends, rfl⟩
      exact .after_mark (by decide) isPoint (.after reads (ih.suffixes failed malformed))
  · split at failed
    · next isOpen =>
      split at failed
      · next found =>
        cases failed
        exact .after_mark (by decide) isOpen (ih.tuple found malformed)
      · next items rest found =>
        obtain ⟨t, ts, -, -, reads⟩ := (sound n).tuple found
        exact .after_mark (by decide) isOpen (.after reads (ih.suffixes failed malformed))
    · cases failed

theorem block_met (failed : Source.block (n + 1) s = .error fault) : Meets s fault := by
  simp only [Source.block] at failed
  split at failed
  · next found =>
    cases failed
    exact ih.sequence found malformed
  · split at failed
    · cases failed
    · cases failed
      cases malformed

theorem tuple_met (failed : Source.tuple (n + 1) s = .error fault) : Meets s fault := by
  simp only [Source.tuple] at failed
  split at failed
  · cases failed
  · exact .of_skipSpace (ih.items failed malformed)

theorem items_met {seen : List Expr} (failed : Source.items seen (n + 1) s = .error fault) :
    Meets s fault := by
  simp only [Source.items] at failed
  split at failed
  · next found =>
    cases failed
    exact ih.expr found malformed
  · next e rest found =>
    obtain ⟨t, -, reads⟩ := (sound n).expr found
    split at failed
    · next isComma =>
      exact .after reads (.after_mark (by decide) isComma (ih.items failed malformed))
    · split at failed
      · cases failed
      · cases failed
        cases malformed

theorem primary_met (failed : Source.primary (n + 1) s = .error fault) : Meets s fault := by
  simp only [Source.primary] at failed
  split at failed
  · cases failed
    cases malformed
  · next b after start =>
    have opened {c : UInt8} (isMark : c ∈ marks) (is : (b == c) = true)
        (meets : Meets after fault) : Meets s fault := by
      have same : b = c := by simpa using is
      refine .after_mark isMark (by rw [start, same]; rfl) ?_
      rwa [start]
    split at failed
    · split at failed
      · next found =>
        cases failed
        rw [quotedText_not_malformed found] at malformed
        cases malformed
      · cases failed
    · split at failed
      · exact ⟨[], s, rfl, by rw [start]; exact failed⟩
      · split at failed
        · split at failed
          · next found =>
            cases failed
            rw [name_not_malformed found] at malformed
            cases malformed
          · cases failed
        · split at failed
          · next isBrace =>
            split at failed
            · next found =>
              cases failed
              exact opened (by decide) isBrace (ih.block found malformed)
            · cases failed
          · split at failed
            · next isParen =>
              split at failed
              · next found =>
                cases failed
                exact opened (by decide) isParen (ih.tuple found malformed)
              · next items rest found =>
                obtain ⟨t, ts, -, -, reads⟩ := (sound n).tuple found
                split at failed
                · next isBody =>
                  split at failed
                  · cases failed
                    cases malformed
                  · split at failed
                    · next found' =>
                      cases failed
                      have inner := ih.block found' malformed
                      exact opened (by decide) isParen
                        (.after reads (.after_mark (by decide) isBody inner))
                    · cases failed
                · cases failed
            · cases failed
              cases malformed

end Met

theorem met (n : Nat) : Met n := by
  induction n with
  | zero =>
    constructor <;>
    · intros
      next failed malformed =>
        cases failed
        cases malformed
  | succ n ih =>
    exact ⟨fun failed malformed => sequence_met ih malformed failed,
      fun failed malformed => expr_met ih malformed failed,
      fun failed malformed => suffixes_met ih malformed failed,
      fun failed malformed => primary_met ih malformed failed,
      fun failed malformed => block_met ih malformed failed,
      fun failed malformed => tuple_met ih malformed failed,
      fun failed malformed => items_met ih malformed failed⟩

/-! ## The tokens of the longer source -/

namespace Reads

variable {s rest : Bytes} {ts us : List Token}

theorem skipSpace_suffix (s : Bytes) : skipSpace s <:+ s := List.dropWhile_suffix isSpace

/-- What is left of a source is the end of it. -/
theorem suffix (reads : Reads s ts rest) : skipSpace rest <:+ s := by
  induction ts generalizing s with
  | nil =>
    rw [← show skipSpace s = skipSpace rest from reads]
    exact skipSpace_suffix s
  | cons t ts ih =>
    obtain ⟨after, start, -, -, others⟩ := reads
    have inner : after <:+ skipSpace s := ⟨t.lexeme, start.symm⟩
    exact (ih others).trans (inner.trans (skipSpace_suffix s))

/-- Tokens in front of something else are read the same in a longer source. -/
theorem append_of_live (t : Bytes) (live : skipSpace rest ≠ []) (reads : Reads s ts rest) :
    Reads (s ++ t) ts (rest ++ t) := by
  have left : Live t (skipSpace rest) := fun ended => absurd ended live
  induction ts generalizing s with
  | nil =>
    have same : skipSpace s = skipSpace rest := reads
    have left' : Live t (skipSpace s) := by rwa [same]
    change skipSpace (s ++ t) = skipSpace (rest ++ t)
    rw [left'.skipSpace_append, left.skipSpace_append, same]
  | cons token ts ih =>
    obtain ⟨after, start, proper, ends, others⟩ := reads
    have more : after ≠ [] := by
      rintro rfl
      exact live (List.suffix_nil.mp others.suffix)
    obtain ⟨b, lexeme, first, -, -⟩ := Token.first proper
    have left' : Live t (skipSpace s) := .of_head (by rw [start, first]; rfl)
    refine ⟨after ++ t, ?_, proper, ends.append fun ended => absurd ended more, ih others⟩
    rw [left'.skipSpace_append, start, List.append_assoc]

/-- A source has one way to be read on. -/
theorem continued (first : Reads s ts rest) (second : Reads s us []) :
    ∃ vs, us = ts ++ vs ∧ Reads rest vs [] := by
  induction ts generalizing s us with
  | nil => exact ⟨us, rfl, second.of_skipSpace_eq (Eq.symm first)⟩
  | cons t ts ih =>
    obtain ⟨after, start, proper, ends, others⟩ := first
    cases us with
    | nil =>
      obtain ⟨b, lexeme, begins, -, -⟩ := Token.first proper
      rw [show skipSpace s = [] from second, begins] at start
      cases start
    | cons u us =>
      obtain ⟨after', start', proper', ends', others'⟩ := second
      obtain ⟨rfl, rfl⟩ := Token.unique proper proper' ends ends' (start.symm.trans start')
      obtain ⟨vs, rfl, reads⟩ := ih others others'
      exact ⟨vs, rfl, reads⟩

end Reads

/-- Behind a number that goes on, the token that is read is a longer number. -/
theorem number_goes_on {literal t after : Bytes} {token : Token} (proper : IsNumber literal)
    (proper' : token.WellFormed) (ends : token.Ends after)
    (start : literal ++ t = token.lexeme ++ after) :
    ∃ more, token = .number (literal ++ more) ∧ t = more ++ after := by
  obtain ⟨b, rest, lexeme, kind, -⟩ := Token.first (t := .number literal) proper
  obtain ⟨c, rest', lexeme', kind', -⟩ := Token.first proper'
  have same : b = c := by
    rw [lexeme'] at start
    rw [show literal = b :: rest from lexeme] at start
    exact (List.cons.inj start).1
  rw [same, kind'] at kind
  cases token with
  | number longer =>
    have whole : literal ++ t = longer ++ after := start
    rcases List.append_eq_append_iff.mp whole with ⟨more, longer', rest''⟩ | ⟨cut, shorter, rest''⟩
    · exact ⟨more, by rw [longer'], rest''⟩
    · -- A byte of the old number behind the new one would continue it.
      cases cut with
      | nil => exact ⟨[], by simp [shorter], by simpa using rest''.symm⟩
      | cons d cut =>
        obtain ⟨e, tail, first, -, others⟩ := proper.bytes
        have inside : d ∈ tail := by
          rw [shorter] at first
          cases longer with
          | nil => cases lexeme'
          | cons f longer =>
            obtain ⟨-, rfl⟩ := List.cons.inj first
            simp
        exact absurd (others d inside) (ends d (by rw [rest'']; rfl))
  | _ => cases kind

namespace Grammar

/-- The numbers among tokens have values. -/
def Valued (ts : List Token) : Prop :=
  ∀ literal, .number literal ∈ ts → ∃ e, number? literal = some e

namespace Valued

variable {ts us : List Token}

theorem nil : Valued [] := fun _ member => nomatch member

theorem append (first : Valued ts) (second : Valued us) : Valued (ts ++ us) := by
  intro literal member
  rcases List.mem_append.mp member with member | member
  · exact first literal member
  · exact second literal member

theorem cons {t : Token} (other : ∀ literal, t ≠ .number literal) (rest : Valued ts) :
    Valued (t :: ts) := by
  intro literal member
  rcases List.mem_cons.mp member with same | member
  · exact absurd same.symm (other literal)
  · exact rest literal member

theorem mark (b : UInt8) (rest : Valued ts) : Valued (.mark b :: ts) := .cons nofun rest

end Valued

mutual

/-- A derivation denotes something only if its numbers have values. -/
theorem Sequence.valued : ∀ (t : Sequence) (es : List Expr), t.meaning? = some es →
    Valued t.tokens
  | .none, _, _ => .nil
  | .skip rest, es, meaning => by
    rw [Sequence.tokens]
    exact .mark semicolon (Sequence.valued rest es meaning)
  | .last e, es, meaning => by
    rw [Sequence.meaning?] at meaning
    obtain ⟨e', denotes, -⟩ := Option.map_eq_some_iff.mp meaning
    rw [Sequence.tokens]
    exact Expression.valued e e' denotes
  | .next e rest, es, meaning => by
    rw [Sequence.meaning?] at meaning
    obtain ⟨e', denotes, meaning⟩ := Option.bind_eq_some_iff.mp meaning
    obtain ⟨others, denote, -⟩ := Option.map_eq_some_iff.mp meaning
    rw [Sequence.tokens]
    exact (Expression.valued e e' denotes).append (.mark _ (Sequence.valued rest others denote))

theorem Expression.valued : ∀ (t : Expression) (e : Expr), t.meaning? = some e →
    Valued t.tokens
  | .plain t, e, meaning => by
    rw [Expression.tokens]
    exact Postfix.valued t e meaning
  | .assign t value, e, meaning => by
    rw [Expression.meaning?] at meaning
    obtain ⟨target, denotes, meaning⟩ := Option.bind_eq_some_iff.mp meaning
    obtain ⟨value', denotes', -⟩ := Option.bind_eq_some_iff.mp meaning
    rw [Expression.tokens]
    have assigned := Expression.valued value value' denotes'
    exact (Postfix.valued t target denotes).append (.mark _ assigned)

theorem Postfix.valued : ∀ (t : Postfix) (e : Expr), t.meaning? = some e → Valued t.tokens
  | .mk head suffixes, e, meaning => by
    rw [Postfix.meaning?] at meaning
    obtain ⟨front, denotes, meaning⟩ := Option.bind_eq_some_iff.mp meaning
    rw [Postfix.tokens]
    exact (Primary.valued head front denotes).append (Suffixes.valued suffixes e front meaning)

theorem Suffixes.valued : ∀ (t : Suffixes) (e front : Expr), t.meaning? front = some e →
    Valued t.tokens
  | .none, _, _, _ => .nil
  | .member letters rest, e, front, meaning => by
    rw [Suffixes.tokens]
    exact .mark point (.cons nofun (Suffixes.valued rest e _ meaning))
  | .call arguments rest, e, front, meaning => by
    rw [Suffixes.meaning?] at meaning
    obtain ⟨items, denote, meaning⟩ := Option.bind_eq_some_iff.mp meaning
    rw [Suffixes.tokens]
    exact (Tuple.valued arguments items denote).append (Suffixes.valued rest e _ meaning)

theorem Primary.valued : ∀ (t : Primary) (e : Expr), t.meaning? = some e → Valued t.tokens
  | .text _ _, _, _ | .name _, _, _ => by
    rw [Primary.tokens]
    exact .cons nofun .nil
  | .number literal, e, meaning => by
    intro literal' member
    rw [Primary.tokens, List.mem_singleton, Token.number.injEq] at member
    exact ⟨e, by rw [member]; exact meaning⟩
  | .box body, e, meaning => by
    rw [Primary.meaning?] at meaning
    obtain ⟨es, denote, -⟩ := Option.map_eq_some_iff.mp meaning
    rw [Primary.tokens]
    exact .mark _ ((Sequence.valued body es denote).append (.mark _ .nil))
  | .list items, e, meaning => by
    rw [Primary.meaning?] at meaning
    obtain ⟨es, denote, -⟩ := Option.map_eq_some_iff.mp meaning
    rw [Primary.tokens]
    exact Tuple.valued items es denote
  | .method params body, e, meaning => by
    rw [Primary.meaning?] at meaning
    obtain ⟨names, bare, meaning⟩ := Option.bind_eq_some_iff.mp meaning
    obtain ⟨items, denote, -⟩ := Option.bind_eq_some_iff.mp bare
    obtain ⟨es, denote', -⟩ := Option.map_eq_some_iff.mp meaning
    rw [Primary.tokens]
    exact (Tuple.valued params items denote).append
      (.mark _ ((Sequence.valued body es denote').append (.mark _ .nil)))

theorem Tuple.valued : ∀ (t : Tuple) (es : List Expr), t.meaning? = some es → Valued t.tokens
  | .empty, _, _ => .mark _ (.mark _ .nil)
  | .items items, es, meaning => by
    rw [Tuple.tokens]
    exact .mark _ ((Items.valued items es meaning).append (.mark _ .nil))

theorem Items.valued : ∀ (t : Items) (es : List Expr), t.meaning? = some es → Valued t.tokens
  | .one e, es, meaning => by
    rw [Items.meaning?] at meaning
    obtain ⟨e', denotes, -⟩ := Option.map_eq_some_iff.mp meaning
    rw [Items.tokens]
    exact Expression.valued e e' denotes
  | .more e rest, es, meaning => by
    rw [Items.meaning?] at meaning
    obtain ⟨e', denotes, meaning⟩ := Option.bind_eq_some_iff.mp meaning
    obtain ⟨others, denote, -⟩ := Option.map_eq_some_iff.mp meaning
    rw [Items.tokens]
    exact (Expression.valued e e' denotes).append (.mark _ (Items.valued rest others denote))

end

end Grammar

/-! ## Whole sources -/

/-- A source that is reported for a number without a value is read up to that
number. -/
theorem parse_malformed {s literal : Bytes} {why : Malformed} {e : ParseError}
    (failed : parse s = .error e) (cause : e.cause = .malformedNumber literal why) :
    ∃ ts rest after, Reads s ts rest ∧ skipSpace rest = literal ++ after ∧ IsNumber literal ∧
      number? literal = none ∧ s.drop e.offset = literal ++ after ∧ e.incomplete = false := by
  obtain ⟨fault, found, rfl⟩ := parse_error failed
  have cause' : fault.cause = .malformedNumber literal why := cause
  rcases parseFault_error found with found | ⟨es, b, rest, -, rfl⟩
  · obtain ⟨ts, rest, reads, unread⟩ := (met _).sequence found (by rw [cause']; rfl)
    obtain ⟨after, start, proper, valueless, place, complete⟩ := number_malformed unread cause'
    refine ⟨ts, rest, after, reads, start, proper, valueless, ?_, complete⟩
    have offset : (fault.locate s).offset = s.length - (skipSpace rest).length := by
      rw [← place]
      rfl
    rw [offset, ← List.suffix_iff_eq_drop.mp reads.suffix, start]
  · cases cause'

/-- If a source ends in a number without a value, then nothing that is added to
it makes it one that is parsed, unless the number has no point, is in the range
of the reals, and is continued by digits and a point. -/
theorem malformed_mended_by_point_only {s literal : Bytes} {why : Malformed} {e : ParseError}
    (failed : parse s = .error e) (cause : e.cause = .malformedNumber literal why)
    (last : s.drop e.offset = literal) :
    e.incomplete = false ∧ ∀ (t : Bytes) (es : List Expr), parse (s ++ t) = .ok es →
      point ∉ literal ∧ (∃ x, numberValue (literal ++ [point]) = .ok (.real x)) ∧
      ∃ digits rest, t = digits ++ point :: rest ∧ ∀ b ∈ digits, isDigit b ∨ b = underscore := by
  obtain ⟨ts, rest, after, reads, start, proper, valueless, place, complete⟩ :=
    parse_malformed failed cause
  obtain rfl : after = [] := by simpa [last] using place
  rw [List.append_nil] at start
  refine ⟨complete, ?_⟩
  intro t es parsed
  obtain ⟨program, spells, meaning⟩ := derives_of_parse parsed
  have live : skipSpace rest ≠ [] := by
    obtain ⟨b, tail, rfl, -⟩ := proper.bytes
    simp [start]
  -- The longer source has the tokens in front of the number, and then a number.
  obtain ⟨us, whole, reads'⟩ :=
    (reads.append_of_live t live).continued (spells_iff_reads.mp spells)
  have start' : skipSpace (rest ++ t) = literal ++ t := by
    rw [Live.skipSpace_append fun ended => absurd ended live, start]
  cases us with
  | nil =>
    rw [show skipSpace (rest ++ t) = [] from reads', List.nil_eq, List.append_eq_nil_iff] at start'
    exact absurd (start.trans start'.1) live
  | cons token us =>
    obtain ⟨after, found, proper', ends, -⟩ := reads'
    obtain ⟨more, rfl, rfl⟩ := number_goes_on proper proper' ends (start'.symm.trans found)
    have member : .number (literal ++ more) ∈ program.tokens := by simp [whole]
    obtain ⟨value, denotes⟩ := program.valued es meaning _ member
    obtain ⟨absent, added, x, real⟩ := number?_mended proper valueless denotes
    refine ⟨absent, ⟨x, numberValue_iff.mpr real⟩, ?_⟩
    obtain ⟨digits, places, rfl, first⟩ := List.eq_append_cons_of_mem added
    refine ⟨digits, places ++ after, by simp, ?_⟩
    intro b member
    have inside : isDigit b ∨ isSeparator b := by
      obtain ⟨c, tail, literal', -, -⟩ := proper.bytes
      obtain ⟨d, tail', longer, -, others⟩ := IsNumber.bytes proper'
      rw [literal', List.cons_append] at longer
      obtain ⟨-, rfl⟩ := List.cons.inj longer
      exact others b (by simp [member])
    refine inside.imp_right fun separator => ?_
    simp only [isSeparator, Bool.or_eq_true, beq_iff_eq] at separator
    refine separator.resolve_left ?_
    rintro rfl
    exact first member

/-- The source `a(1.5.2` cannot be mended. -/
theorem malformed_mended_by_point_only_nested :
    (∃ e, parse [0x61, 0x28, 0x31, 0x2E, 0x35, 0x2E, 0x32] = .error e ∧ e.incomplete = false) ∧
    ∀ (t : Bytes) (es : List Expr),
      parse ([0x61, 0x28, 0x31, 0x2E, 0x35, 0x2E, 0x32] ++ t) ≠ .ok es := by
  have mended := @malformed_mended_by_point_only [0x61, 0x28, 0x31, 0x2E, 0x35, 0x2E, 0x32]
    [0x31, 0x2E, 0x35, 0x2E, 0x32] .twoPoints _ rfl rfl rfl
  refine ⟨⟨_, rfl, mended.1⟩, ?_⟩
  intro t es parsed
  exact absurd (by decide) (mended.2 t es parsed).1

/-- A number alone is a source. -/
theorem parse_number {literal : Bytes} {e : Expr} (proper : IsNumber literal)
    (value : number? literal = some e) : parse literal = .ok [e] := by
  have spells : Spells (literal ++ []) [.number literal] :=
    .token (t := .number literal) proper nofun .done
  rw [List.append_nil] at spells
  refine parse_of_derives ⟨.last (.plain (.mk (.number literal) .none)), ?_, ?_⟩
  · simpa [Sequence.tokens, Expression.tokens, Postfix.tokens, Primary.tokens,
      Suffixes.tokens] using spells
  · simp [Sequence.meaning?, Expression.meaning?, Postfix.meaning?, Primary.meaning?,
      Suffixes.meaning?, value]

/-- The digits of 2^63, the least integer beyond the range: `9223372036854775808`. -/
def beyond : Bytes :=
  [0x39, 0x32, 0x32, 0x33, 0x33, 0x37, 0x32, 0x30, 0x33, 0x36, 0x38, 0x35, 0x34, 0x37, 0x37, 0x35,
    0x38, 0x30, 0x38]

theorem isNumber_beyond : IsNumber beyond := by
  refine .inl ?_
  simp only [beyond, IsUnsigned, ContinuesNumber]
  decide

theorem number?_beyond :
    number? (beyond ++ [point]) = some (.real (Float.ofBits 0x43E0000000000000)) := by
  have body : splitSign (beyond.filter (· != underscore)) = (false, beyond) := rfl
  have digits : decimal (beyond ++ []) = 0x8000000000000000 := rfl
  -- The word of the real is found by exact division, in the kernel.
  have word : Decimal.word 0x8000000000000000 0 = 0x43E0000000000000 := by decide +kernel
  have kept : [point].filter (· != underscore) = [point] := rfl
  rw [number?_append isNumber_beyond, body, kept, value?_of_point (by decide),
    if_neg (by simp), digits, List.length_nil, Decimal.toReal?]
  simp only [word]
  rfl

/-- The integer 2^63 is reported as complete, and with a point behind it, it is
a real. -/
theorem integer_mended_by_point :
    parse beyond = .error ⟨0, 1, 1, .malformedNumber beyond .outOfRange, false⟩ ∧
    parse (beyond ++ [point]) = .ok [.real (Float.ofBits 0x43E0000000000000)] := by
  refine ⟨rfl, parse_number (.inl ?_) number?_beyond⟩
  simp only [beyond, List.cons_append, List.nil_append, IsUnsigned, ContinuesNumber]
  decide

end BoxScript.Source
