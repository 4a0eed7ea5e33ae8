import BoxScript.Proofs.Source.Faults
import BoxScript.Console.Repl

/-!
# Sources that go on

What has been read of a source is read the same way when more bytes follow, as
long as the reader has not looked beyond the end. It has done so exactly where
it has nothing left to read: there it returns, or it reports a fault that is
incomplete, and both may turn out differently with more to read. All other
results stay: the value with a longer rest, the fault at the same place.

Numbers make the exceptions. One without a value is reported as such even at
the end of the source, where it could go on. And a number that lacks its first
digit or ends in an underscore is incomplete there, although only a digit, a
point or an underscore right behind it could mend it.
-/

set_option autoImplicit false

namespace BoxScript.Source

/-- No number goes on with these bytes. -/
def Apart (t : Bytes) : Prop := ∀ b ∈ t.head?, ¬ (isDigit b ∨ isSeparator b)

/-- What is read next is still the old source, unless nothing was added to it. -/
def Live (t rest : Bytes) : Prop := rest = [] → t = []

/-- A number is written wrongly or has no value. -/
def Cause.ofNumber : Cause → Bool
  | .numberWithoutDigit _ => true
  | .trailingUnderscore => true
  | .malformedNumber _ _ => true
  | _ => false

def Cause.isMalformed : Cause → Bool
  | .malformedNumber _ _ => true
  | _ => false

theorem Cause.ofNumber_of_isMalformed {cause : Cause} (malformed : cause.isMalformed = true) :
    cause.ofNumber = true := by
  cases cause with
  | malformedNumber => rfl
  | _ => cases malformed

/-- The cause of a fault at the end of a source to which `t` is added: the byte
that was missing is the first one of `t`. -/
def Cause.extend (t : Bytes) : Cause → Cause
  | .numberWithoutDigit none => .numberWithoutDigit t.head?
  | cause => cause

theorem Cause.extend_nil (cause : Cause) : cause.extend [] = cause := by
  cases cause with
  | numberWithoutDigit got => cases got <;> rfl
  | _ => rfl

namespace Fault

/-- The fault of a source when `t` is added to it. -/
def extend (t : Bytes) (fault : Fault) : Fault where
  remaining := fault.remaining + t.length
  incomplete := fault.incomplete && t.isEmpty
  cause := if fault.incomplete then fault.cause.extend t else fault.cause

/-- Adding `t` to the source cannot mend the fault. -/
def Final (t : Bytes) (fault : Fault) : Prop :=
  fault.cause ≠ .outOfFuel ∧
    (t = [] ∨ fault.incomplete = false ∧ fault.cause.isMalformed = false ∨
      fault.cause.ofNumber = true ∧ Apart t)

variable {t : Bytes} {fault : Fault}

theorem extend_nil (fault : Fault) : fault.extend [] = fault := by
  rw [extend, Cause.extend_nil, List.isEmpty_nil, Bool.and_true, ite_self]
  rfl

/-- An incomplete fault that is not about a number is final only if nothing is
added. -/
theorem Final.nil_of_incomplete (final : fault.Final t) (incomplete : fault.incomplete = true)
    (other : fault.cause.ofNumber = false) : t = [] := by
  rcases final.2 with none | ⟨complete, -⟩ | ⟨number, -⟩
  · exact none
  · rw [incomplete] at complete
    cases complete
  · rw [other] at number
    cases number

theorem Final.apart (final : fault.Final t)
    (open' : fault.incomplete = true ∨ fault.cause.isMalformed = true) : Apart t := by
  rcases final.2 with rfl | ⟨complete, sound⟩ | ⟨-, apart⟩
  · simp [Apart]
  · rcases open' with incomplete | malformed
    · rw [incomplete] at complete
      cases complete
    · rw [malformed] at sound
      cases sound
  · exact apart

end Fault

/-- What becomes of a result when `t` is added to the source. -/
def Extends {α : Type} (t : Bytes) (before after : Except Fault (α × Bytes)) : Prop :=
  match before with
  | .ok (a, rest) => Live t rest → after = .ok (a, rest ++ t)
  | .error fault => fault.Final t → after = .error (fault.extend t)

namespace Live

variable {t s : Bytes}

theorem head?_append (live : Live t s) : (s ++ t).head? = s.head? := by
  cases s with
  | nil => rw [live rfl, List.append_nil]
  | cons b s => rfl

theorem tail_append (live : Live t s) : (s ++ t).tail = s.tail ++ t := by
  cases s with
  | nil => rw [live rfl, List.append_nil, List.append_nil]
  | cons b s => rfl

theorem atClose_append {top : Bool} (live : Live t s) : atClose top (s ++ t) = atClose top s := by
  cases s with
  | nil => rw [live rfl, List.append_nil]
  | cons b s => rfl

theorem of_skipSpace (live : Live t (skipSpace s)) : Live t s := by
  rintro rfl
  exact live rfl

theorem skipSpace_append (live : Live t (skipSpace s)) :
    skipSpace (s ++ t) = skipSpace s ++ t := by
  induction s with
  | nil => rw [live rfl, List.append_nil, List.append_nil]
  | cons b s ih =>
    by_cases blank : isSpace b = true
    · simp only [skipSpace, List.cons_append, List.dropWhile_cons, blank, if_true] at live ih ⊢
      exact ih live
    · rw [List.cons_append, skipSpace_eq_self blank, skipSpace_eq_self blank, List.cons_append]

theorem of_head {b : UInt8} (head : s.head? = some b) : Live t s := by
  rintro rfl
  cases head

/-- A fault at the next byte, or at the end if nothing is added there. -/
theorem extend_at {cause : Cause} (live : Live t s) :
    (Fault.at s cause).extend t = .at (s ++ t) cause := by
  cases s with
  | nil => rw [live rfl, Fault.extend_nil, List.append_nil]
  | cons b s => simp [Fault.extend, Fault.at, Nat.add_right_comm]

theorem extend_since {start : Bytes} {cause : Cause} (live : Live t s) :
    (Fault.since start s cause).extend t = .since (start ++ t) (s ++ t) cause := by
  cases s with
  | nil => rw [live rfl, Fault.extend_nil, List.append_nil, List.append_nil]
  | cons b s => simp [Fault.extend, Fault.since]

end Live

theorem live_or_ended (t rest : Bytes) : Live t rest ∨ rest = [] ∧ t ≠ [] :=
  (Classical.em (Live t rest)).imp_right Classical.not_imp.mp

namespace Extends

variable {α : Type} {t rest : Bytes} {before after : Except Fault (α × Bytes)}

theorem of_ok {a : α} (ext : Extends t before after) (found : before = .ok (a, rest))
    (live : Live t rest) : after = .ok (a, rest ++ t) := by
  subst found
  exact ext live

theorem of_error {fault : Fault} (ext : Extends t before after) (found : before = .error fault)
    (final : fault.Final t) : after = .error (fault.extend t) := by
  subst found
  exact ext final

/-- At the end of the source, where something is added, nothing is promised. -/
theorem ended {a : α} (more : t ≠ []) : Extends t (.ok (a, [])) after :=
  fun live => absurd (live rfl) more

theorem incomplete {cause : Cause} (more : t ≠ []) (other : cause.ofNumber = false) :
    Extends t (.error (.at [] cause)) after :=
  fun final => absurd (final.nil_of_incomplete rfl other) more

end Extends

/-! ## Tokens in front of more bytes -/

theorem Token.Ends.append {token : Token} {rest t : Bytes} (ends : token.Ends rest)
    (live : Live t rest) : token.Ends (rest ++ t) := by
  cases token with
  | name | number =>
    intro b head
    rw [live.head?_append] at head
    exact ends b head
  | text | mark => trivial

/-- Bytes that continue no token. -/
def Separate (v : Bytes) : Prop := ∀ token : Token, token.Ends v

theorem Separate.of_head {v : Bytes} {b : UInt8} (head : v.head? = some b)
    (neither : continuesName b = false ∧ isSeparator b = false) : Separate v := by
  have noDigit : isDigit b = false := by
    have := neither.1
    simp only [continuesName, Bool.or_eq_false_iff] at this
    exact this.2
  intro token
  cases token with
  | name letters =>
    intro c isHead
    obtain rfl := Option.some.inj (head.symm.trans isHead)
    simp [neither.1]
  | number literal =>
    intro c isHead
    obtain rfl := Option.some.inj (head.symm.trans isHead)
    simp [noDigit, neither.2]
  | text | mark => trivial

theorem Separate.nil : Separate [] := by
  intro token
  cases token with
  | name | number =>
    intro b head
    cases head
  | text | mark => trivial

/-- What is added behind the tokens of a source does not change them if it
continues none of them. -/
theorem Reads.append {s rest v : Bytes} {ts : List Token} (separate : Separate v)
    (reads : Reads s ts rest) : Reads (s ++ v) ts (rest ++ v) := by
  induction ts generalizing s with
  | nil =>
    have blank : skipSpace s = skipSpace rest := reads
    change skipSpace (s ++ v) = skipSpace (rest ++ v)
    simp only [skipSpace] at blank ⊢
    rw [List.dropWhile_append, List.dropWhile_append, blank]
  | cons token ts ih =>
    obtain ⟨after, start, proper, ends, others⟩ := reads
    obtain ⟨b, lexeme, first, -, -⟩ := Token.first proper
    have live : Live v (skipSpace s) := .of_head (by rw [start, first]; rfl)
    refine ⟨after ++ v, by rw [live.skipSpace_append, start, List.append_assoc], proper, ?_, ih others⟩
    cases after with
    | nil => exact separate token
    | cons c after => exact ends.append (.of_head rfl)

/-! ## Names, texts and numbers -/

theorem name_extends (t s : Bytes) : Extends t (name s) (name (s ++ t)) := by
  cases found : name s with
  | ok result =>
    obtain ⟨x, rest⟩ := result
    intro live
    obtain ⟨letters, rfl, proper, ends, rfl⟩ := name_iff.mp found
    rw [List.append_assoc]
    exact name_iff.mpr ⟨letters, rfl, proper, ends.append live, rfl⟩
  | error fault =>
    intro final
    cases s with
    | nil =>
      cases found
      rw [final.nil_of_incomplete rfl rfl, Fault.extend_nil]
      rfl
    | cons b s =>
      simp only [name] at found
      split at found
      · cases found
      · next other =>
        cases found
        rw [Live.extend_at (.of_head rfl), List.cons_append, name, if_neg other]

theorem quotedText_extends (t : Bytes) (quote : UInt8) (s : Bytes) :
    Extends t (quotedText quote s) (quotedText quote (s ++ t)) := by
  cases found : quotedText quote s with
  | ok result =>
    obtain ⟨contents, rest⟩ := result
    intro live
    obtain ⟨rfl, absent⟩ := quotedText_iff.mp found
    exact quotedText_iff.mpr ⟨by simp, absent⟩
  | error fault =>
    intro final
    simp only [quotedText] at found
    split at found
    · cases found
    · next contents cut =>
      cases found
      rw [final.nil_of_incomplete rfl rfl, Fault.extend_nil, List.append_nil, quotedText, cut]

theorem numberEnd_extends (t seen : Bytes) (last b : UInt8) (s : Bytes) :
    Extends t (numberEnd seen last (b :: s)) (numberEnd seen last (b :: (s ++ t))) := by
  simp only [numberEnd]
  split
  · intro _
    simp [Fault.extend, Nat.add_right_comm]
  · intro _
    rfl

theorem numberTail_extends (t seen : Bytes) (last : UInt8) (s : Bytes) :
    Extends t (numberTail seen last s) (numberTail seen last (s ++ t)) := by
  induction s generalizing seen last with
  | nil =>
    simp only [numberTail, numberEnd]
    split
    · next trailing =>
      intro final
      have apart := final.apart (.inl rfl)
      cases t with
      | nil =>
        rw [Fault.extend_nil, List.append_nil, numberTail, numberEnd, if_pos trailing]
      | cons b t =>
        have neither := apart b rfl
        rw [not_or] at neither
        rw [List.nil_append, numberTail, if_neg neither.1, if_neg neither.2, numberEnd,
          if_pos trailing]
        simp [Fault.extend, Cause.extend, Nat.add_comm]
    · next proper =>
      intro live
      rw [live rfl, List.append_nil, numberTail, numberEnd, if_neg proper]
  | cons b s ih =>
    simp only [List.cons_append, numberTail]
    split
    · exact ih (b :: seen) b
    · split
      · split
        · exact ih (b :: seen) b
        · intro _
          rw [Live.extend_at (.of_head rfl)]
          rfl
      · exact numberEnd_extends t seen last b s

theorem unsignedNumber_extends (t s : Bytes) :
    Extends t (unsignedNumber s) (unsignedNumber (s ++ t)) := by
  cases s with
  | nil =>
    intro final
    have apart := final.apart (.inl rfl)
    cases t with
    | nil => rfl
    | cons b t =>
      have noDigit : ¬ isDigit b := fun digit => apart b rfl (.inl digit)
      rw [List.nil_append, unsignedNumber, if_neg noDigit]
      simp [Fault.extend, Cause.extend, Fault.at]
  | cons b s =>
    simp only [List.cons_append, unsignedNumber]
    split
    · exact numberTail_extends t [b] b s
    · intro _
      rw [Live.extend_at (.of_head rfl)]
      rfl

theorem numberLexeme_extends (t : Bytes) (b : UInt8) (s : Bytes) :
    Extends t (numberLexeme (b :: s)) (numberLexeme (b :: s ++ t)) := by
  simp only [List.cons_append, numberLexeme]
  split
  · have inner := unsignedNumber_extends t s
    cases found : unsignedNumber s with
    | ok result =>
      intro live
      rw [found] at inner
      rw [inner live]
    | error fault =>
      intro final
      rw [found] at inner
      rw [inner final]
  · exact unsignedNumber_extends t (b :: s)

theorem number_extends (t : Bytes) (b : UInt8) (s : Bytes) :
    Extends t (number (b :: s)) (number (b :: s ++ t)) := by
  have lexeme := numberLexeme_extends t b s
  simp only [number]
  cases found : numberLexeme (b :: s) with
  | error fault =>
    intro final
    rw [found] at lexeme
    rw [lexeme final]
  | ok result =>
    obtain ⟨literal, rest⟩ := result
    rw [found] at lexeme
    cases value : numberValue literal with
    | ok e =>
      simp only [value]
      intro live
      rw [lexeme live]
      simp only [value]
    | error why =>
      simp only [value]
      -- The number is cut off where it was before, also at the old end of the source.
      intro final
      have apart := final.apart (.inr rfl)
      obtain ⟨whole, proper, ends⟩ := numberLexeme_iff.mp found
      have ends' : (Token.number literal).Ends (rest ++ t) := by
        cases rest with
        | nil => exact apart
        | cons c rest => exact ends.append (.of_head rfl)
      have whole' : b :: s ++ t = literal ++ (rest ++ t) := by rw [whole, List.append_assoc]
      simp only [numberLexeme_iff.mpr ⟨whole', proper, ends'⟩, value]
      simp [Fault.extend, Nat.add_right_comm]

/-! ## The reading functions at the end of the source -/

theorem primary_nil (n : Nat) :
    ∃ cause, primary n [] = .error (.at [] cause) ∧ (cause = .missingExpression ∨ cause = .outOfFuel) := by
  cases n with
  | zero => exact ⟨.outOfFuel, by rw [primary], .inr rfl⟩
  | succ n => exact ⟨.missingExpression, by rw [primary]; rfl, .inl rfl⟩

theorem expr_nil (n : Nat) :
    ∃ cause, expr n [] = .error (.at [] cause) ∧ (cause = .missingExpression ∨ cause = .outOfFuel) := by
  cases n with
  | zero => exact ⟨.outOfFuel, by rw [expr], .inr rfl⟩
  | succ n =>
    obtain ⟨cause, failed, which⟩ := primary_nil n
    exact ⟨cause, by simp only [expr, failed], which⟩

theorem items_nil (seen : List Expr) (n : Nat) :
    ∃ cause, items seen n [] = .error (.at [] cause) ∧
      (cause = .missingExpression ∨ cause = .outOfFuel) := by
  cases n with
  | zero => exact ⟨.outOfFuel, by rw [items], .inr rfl⟩
  | succ n =>
    obtain ⟨cause, failed, which⟩ := expr_nil n
    exact ⟨cause, by simp only [items, failed], which⟩

theorem suffixes_nil (e : Expr) (n : Nat) :
    suffixes e n [] = .ok (e, []) ∨ suffixes e n [] = .error (.at [] .outOfFuel) := by
  cases n with
  | zero => exact .inr (by rw [suffixes])
  | succ n => exact .inl (by rw [suffixes]; rfl)

/-- Suffixes that start at the end of the source. -/
theorem suffixes_ended {t : Bytes} {front : Expr} {n : Nat} {after : Except Fault (Expr × Bytes)}
    (more : t ≠ []) : Extends t (suffixes front n []) after := by
  rcases suffixes_nil front n with ended | failed
  · rw [ended]
    exact .ended more
  · rw [failed]
    exact .incomplete more rfl

/-! ## The reading functions -/

/-- What the reading functions give with an allowance of `n` stays with a greater
one and in a longer source. -/
structure Extended (n : Nat) : Prop where
  sequence : ∀ {top : Bool} {seen : List Expr} {j : Nat} {t s : Bytes},
    Extends t (Source.sequence top seen n s) (Source.sequence top seen (j + n) (s ++ t))
  expr : ∀ {j : Nat} {t s : Bytes}, Extends t (Source.expr n s) (Source.expr (j + n) (s ++ t))
  suffixes : ∀ {e : Expr} {j : Nat} {t s : Bytes},
    Extends t (Source.suffixes e n s) (Source.suffixes e (j + n) (s ++ t))
  primary : ∀ {j : Nat} {t s : Bytes},
    Extends t (Source.primary n s) (Source.primary (j + n) (s ++ t))
  block : ∀ {j : Nat} {t s : Bytes}, Extends t (Source.block n s) (Source.block (j + n) (s ++ t))
  tuple : ∀ {j : Nat} {t s : Bytes}, Extends t (Source.tuple n s) (Source.tuple (j + n) (s ++ t))
  items : ∀ {seen : List Expr} {j : Nat} {t s : Bytes},
    Extends t (Source.items seen n s) (Source.items seen (j + n) (s ++ t))

section Extended

variable {n j : Nat} (ih : Extended n) {t s : Bytes}

include ih

theorem sequence_extended {top : Bool} {seen : List Expr} :
    Extends t (Source.sequence top seen (n + 1) s) (Source.sequence top seen (j + n + 1) (s ++ t)) := by
  simp only [Source.sequence]
  rcases live_or_ended t (skipSpace s) with live | ⟨none, more⟩
  · rw [live.skipSpace_append, live.atClose_append, live.head?_append, live.tail_append]
    split
    · intro _
      rfl
    · split
      · exact ih.sequence
      · cases found : Source.expr n (skipSpace s) with
        | error fault =>
          intro final
          rw [ih.expr.of_error found final]
        | ok result =>
          obtain ⟨e, rest⟩ := result
          simp only
          rcases live_or_ended t (skipSpace rest) with live' | ⟨none, more⟩
          · rw [ih.expr.of_ok found live'.of_skipSpace]
            simp only
            rw [live'.skipSpace_append, live'.atClose_append, live'.head?_append,
              live'.tail_append]
            split
            · intro _
              rfl
            · split
              · exact ih.sequence
              · intro _
                rw [live'.extend_at]
          · rw [none]
            exact .ended more
  · rw [none]
    exact .ended more

theorem expr_extended : Extends t (Source.expr (n + 1) s) (Source.expr (j + n + 1) (s ++ t)) := by
  simp only [Source.expr]
  cases found : Source.primary n s with
  | error fault =>
    intro final
    rw [ih.primary.of_error found final]
  | ok result =>
    obtain ⟨front, rest⟩ := result
    simp only
    rcases live_or_ended t rest with live | ⟨rfl, more⟩
    · rw [ih.primary.of_ok found live]
      simp only
      cases found' : Source.suffixes front n rest with
      | error fault =>
        intro final
        rw [ih.suffixes.of_error found' final]
      | ok result =>
        obtain ⟨e, rest'⟩ := result
        simp only
        rcases live_or_ended t rest' with live' | ⟨rfl, more⟩
        · rw [ih.suffixes.of_ok found' live']
          simp only
          rw [live'.head?_append, live'.tail_append]
          split
          · cases assignTo? e with
            | none =>
              intro _
              rw [live'.extend_at]
            | some assign =>
              simp only
              cases found'' : Source.expr n rest'.tail with
              | error fault =>
                intro final
                rw [ih.expr.of_error found'' final]
              | ok result =>
                intro live''
                rw [ih.expr.of_ok found'' live'']
          · intro _
            rfl
        · exact .ended more
    · rcases suffixes_nil front n with ended | failed
      · rw [ended]
        exact .ended more
      · rw [failed]
        exact .incomplete more rfl

theorem suffixes_extended {e : Expr} :
    Extends t (Source.suffixes e (n + 1) s) (Source.suffixes e (j + n + 1) (s ++ t)) := by
  simp only [Source.suffixes]
  rcases live_or_ended t (skipSpace s) with live | ⟨none, more⟩
  · rw [live.skipSpace_append, live.head?_append, live.tail_append]
    split
    · rcases live_or_ended t (skipSpace (skipSpace s).tail) with live' | ⟨none, more⟩
      · rw [live'.skipSpace_append]
        cases found : name (skipSpace (skipSpace s).tail) with
        | error fault =>
          intro final
          rw [(name_extends t _).of_error found final]
        | ok result =>
          obtain ⟨member, rest⟩ := result
          simp only
          rcases live_or_ended t rest with live'' | ⟨rfl, more⟩
          · rw [(name_extends t _).of_ok found live'']
            exact ih.suffixes
          · exact suffixes_ended more
      · rw [none]
        exact .incomplete more rfl
    · split
      · cases found : Source.tuple n (skipSpace s).tail with
        | error fault =>
          intro final
          rw [ih.tuple.of_error found final]
        | ok result =>
          obtain ⟨items, rest⟩ := result
          simp only
          rcases live_or_ended t rest with live' | ⟨rfl, more⟩
          · rw [ih.tuple.of_ok found live']
            exact ih.suffixes
          · exact suffixes_ended more
      · intro _
        rfl
  · rw [none]
    exact .ended more

theorem block_extended : Extends t (Source.block (n + 1) s) (Source.block (j + n + 1) (s ++ t)) := by
  simp only [Source.block]
  cases found : Source.sequence false [] n s with
  | error fault =>
    intro final
    rw [ih.sequence.of_error found final]
  | ok result =>
    obtain ⟨es, rest⟩ := result
    simp only
    rcases live_or_ended t rest with live | ⟨rfl, more⟩
    · rw [ih.sequence.of_ok found live]
      simp only
      rw [live.head?_append, live.tail_append]
      split
      · intro _
        rfl
      · intro _
        rw [live.extend_at]
    · exact .incomplete more rfl

theorem items_extended {seen : List Expr} :
    Extends t (Source.items seen (n + 1) s) (Source.items seen (j + n + 1) (s ++ t)) := by
  simp only [Source.items]
  cases found : Source.expr n s with
  | error fault =>
    intro final
    rw [ih.expr.of_error found final]
  | ok result =>
    obtain ⟨e, rest⟩ := result
    simp only
    rcases live_or_ended t (skipSpace rest) with live | ⟨none, more⟩
    · rw [ih.expr.of_ok found live.of_skipSpace]
      simp only
      rw [live.skipSpace_append, live.head?_append, live.tail_append]
      split
      · exact ih.items
      · split
        · intro _
          rfl
        · intro _
          rw [live.extend_at]
    · rw [none]
      exact .incomplete more rfl

theorem tuple_extended : Extends t (Source.tuple (n + 1) s) (Source.tuple (j + n + 1) (s ++ t)) := by
  simp only [Source.tuple]
  rcases live_or_ended t (skipSpace s) with live | ⟨none, more⟩
  · rw [live.skipSpace_append, live.head?_append, live.tail_append]
    split
    · intro _
      rfl
    · exact ih.items
  · obtain ⟨cause, failed, which⟩ := items_nil [] n
    rw [none, List.head?_nil, if_neg (by simp), failed]
    refine .incomplete more ?_
    rcases which with rfl | rfl <;> rfl

theorem primary_extended :
    Extends t (Source.primary (n + 1) s) (Source.primary (j + n + 1) (s ++ t)) := by
  simp only [Source.primary]
  rcases live_or_ended t (skipSpace s) with live | ⟨none, more⟩
  · rw [live.skipSpace_append]
    cases start : skipSpace s with
    | nil =>
      intro final
      rw [final.nil_of_incomplete rfl rfl]
      rfl
    | cons b rest =>
      simp only [List.cons_append]
      split
      · cases found : quotedText b rest with
        | error fault =>
          intro final
          rw [(quotedText_extends t b rest).of_error found final]
        | ok result =>
          intro live'
          rw [(quotedText_extends t b rest).of_ok found live']
      · split
        · exact number_extends t b rest
        · split
          · have inner := name_extends t (b :: rest)
            rw [List.cons_append] at inner
            cases found : name (b :: rest) with
            | error fault =>
              intro final
              rw [inner.of_error found final]
            | ok result =>
              intro live'
              rw [inner.of_ok found live']
          · split
            · cases found : Source.block n rest with
              | error fault =>
                intro final
                rw [ih.block.of_error found final]
              | ok result =>
                intro live'
                rw [ih.block.of_ok found live']
            · split
              · cases found : Source.tuple n rest with
                | error fault =>
                  intro final
                  rw [ih.tuple.of_error found final]
                | ok result =>
                  obtain ⟨items, after⟩ := result
                  simp only
                  rcases live_or_ended t (skipSpace after) with live' | ⟨none, more⟩
                  · rw [ih.tuple.of_ok found live'.of_skipSpace]
                    simp only
                    rw [live'.skipSpace_append, live'.head?_append, live'.tail_append]
                    split
                    · cases parameters items with
                      | error e =>
                        intro _
                        rw [live'.extend_since, List.cons_append]
                      | ok params =>
                        simp only
                        cases found' : Source.block n (skipSpace after).tail with
                        | error fault =>
                          intro final
                          rw [ih.block.of_error found' final]
                        | ok result =>
                          intro live''
                          rw [ih.block.of_ok found' live'']
                    · intro _
                      rfl
                  · rw [none]
                    exact .ended more
              · intro _
                rw [Live.extend_at (.of_head rfl), List.cons_append]
  · rw [none]
    exact .incomplete more rfl

end Extended

theorem extended (n : Nat) : Extended n := by
  induction n with
  | zero =>
    -- Without allowance every result is that there is none, which is not final.
    constructor <;> intros <;> exact fun final => absurd rfl final.1
  | succ n ih =>
    exact ⟨sequence_extended ih, expr_extended ih, suffixes_extended ih, primary_extended ih,
      block_extended ih, tuple_extended ih, items_extended ih⟩

/-! ## Whole sources -/

theorem allowance_append (s t : Bytes) : allowance (s ++ t) = 4 * t.length + allowance s := by
  rw [allowance, allowance, List.length_append]
  omega

theorem parseFault_append {s t : Bytes} {fault : Fault} (failed : parseFault s = .error fault)
    (final : fault.Final t) : parseFault (s ++ t) = .error (fault.extend t) := by
  rw [parseFault, allowance_append]
  rcases parseFault_error failed with found | ⟨es, b, rest, found, rfl⟩
  · rw [(extended _).sequence.of_error found final]
  · rw [(extended _).sequence.of_ok found (.of_head rfl), Live.extend_at (.of_head rfl)]
    rfl

/-- A complete fault stays where it was. -/
theorem Fault.locate_extend {t : Bytes} {fault : Fault} (s : Bytes)
    (complete : fault.incomplete = false) : (fault.extend t).locate (s ++ t) = fault.locate s := by
  have offset : s.length + t.length - (fault.remaining + t.length) = s.length - fault.remaining :=
    Nat.add_sub_add_right _ _ _
  have before : (s ++ t).take (s.length - fault.remaining) = s.take (s.length - fault.remaining) :=
    List.take_append_of_le_length (Nat.sub_le _ _)
  simp [locate, extend, List.length_append, offset, before, complete]

theorem parse_append_of_complete {s t : Bytes} {e : ParseError} (failed : parse s = .error e)
    (complete : e.incomplete = false) (beyond : e.cause.isMalformed = false ∨ Apart t) :
    parse (s ++ t) = .error e := by
  obtain ⟨fault, found, rfl⟩ := parse_error failed
  have final : fault.Final t := by
    refine ⟨(parseFault_within found).cause, .inr ?_⟩
    cases malformed : fault.cause.isMalformed with
    | false => exact .inl ⟨complete, rfl⟩
    | true =>
      have apart := beyond.resolve_left (by simp [Fault.locate, malformed])
      exact .inr ⟨Cause.ofNumber_of_isMalformed malformed, apart⟩
  rw [parse_of_fault (parseFault_append found final), Fault.locate_extend s complete]

theorem apart_newline (t : Bytes) : Apart (newline :: t) := by
  intro b head
  cases head
  decide

/-- Lines gathered behind a first one follow it at once or behind a line break. -/
theorem foldl_joinLine {s : Bytes} (some' : s ≠ []) (lines : List Bytes) :
    ∃ t, lines.foldl Console.joinLine s = s ++ t ∧ Apart t := by
  induction lines generalizing s with
  | nil => exact ⟨[], (List.append_nil s).symm, by simp [Apart]⟩
  | cons line lines ih =>
    have joined : Console.joinLine s line = s ++ newline :: line := by
      rw [Console.joinLine, if_neg (by simpa using some')]
      rfl
    obtain ⟨t, whole, -⟩ := @ih (s ++ newline :: line) (by simp)
    refine ⟨newline :: (line ++ t), ?_, apart_newline _⟩
    rw [List.foldl_cons, joined, whole]
    simp

/-- A complete error is final: whatever is added to the source, the same error is
reported, unless a number without a value is made longer. So a statement that is
not continued on the next line could not be mended there. -/
theorem complete_error_final (s : Bytes) :
    (∀ (t : Bytes) (e : ParseError), parse s = .error e → e.incomplete = false →
      (e.cause.isMalformed = false ∨ Apart t) → parse (s ++ t) = .error e) ∧
    (Console.wantsMore s = false → ∀ (lines : List Bytes) (es : List Expr),
      parse (lines.foldl Console.joinLine s) = .ok es → ∃ es', parse s = .ok es') := by
  refine ⟨fun t e => parse_append_of_complete, ?_⟩
  intro enough lines es parsed
  cases found : parse s with
  | ok es' => exact ⟨es', rfl⟩
  | error e =>
    have complete : e.incomplete = false := by simpa [Console.wantsMore, found] using enough
    have some' : s ≠ [] := by
      rintro rfl
      cases found
    obtain ⟨t, whole, apart⟩ := foldl_joinLine some' lines
    rw [whole, parse_append_of_complete found complete (.inr apart)] at parsed
    cases parsed

/-- The source `1.5.2` has no value, and neither has it with a line behind it. -/
theorem complete_error_final_number :
    ∃ e, parse [0x31, 0x2E, 0x35, 0x2E, 0x32] = .error e ∧ e.incomplete = false ∧
      parse ([0x31, 0x2E, 0x35, 0x2E, 0x32] ++ [0x0A, 0x3B]) = .error e :=
  ⟨_, rfl, rfl, (complete_error_final _).1 [0x0A, 0x3B] _ rfl rfl (.inr (apart_newline _))⟩

end BoxScript.Source
