import BoxScript.Proofs.Source.Shape
import Mathlib.Tactic.Ring

/-!
# Reading is deriving

The reading functions accept exactly what the grammar derives and build exactly
what it denotes. That what they return is derived is shown by induction on the
allowance of steps, one rule of the grammar for each function. That they return
what is derived is shown the same way, for every allowance of at least four
steps for each byte left and a few for the level of the grammar, and for every
rest that cannot be taken for a continuation.
-/

set_option autoImplicit false

namespace BoxScript.Source

open Grammar

/-! ## Numbers, parameters and assignments -/

theorem digitsValue_eq (digits : Bytes) : digitsValue digits = decimal digits := by
  have shifted : ∀ (digits : Bytes) (n : Nat),
      digits.foldl (fun n b => 10 * n + (b.toNat - 0x30)) n =
        n * 10 ^ digits.length + decimal digits := by
    intro digits
    induction digits with
    | nil => simp [decimal]
    | cons b digits ih =>
      intro n
      rw [List.foldl_cons, ih, decimal, List.length_cons, Nat.pow_succ, Nat.pow_eq]
      ring
  rw [digitsValue, shifted]
  simp

theorem integer?_eq (value : Int) :
    integer? value = if Int64.minValue.toInt ≤ value ∧ value ≤ Int64.maxValue.toInt then
      some (Int64.ofInt value) else none := by
  have least : Int64.minValue.toInt = -0x8000000000000000 := by decide
  have greatest : Int64.maxValue.toInt = 0x7FFFFFFFFFFFFFFF := by decide
  rw [integer?, least, greatest]

theorem numberValue_iff {literal : Bytes} {e : Expr} :
    numberValue literal = .ok e ↔ number? literal = some e := by
  unfold numberValue number?
  obtain ⟨negative, body⟩ := splitSign (literal.filter (· != underscore))
  simp only [List.span_eq_takeWhile_dropWhile]
  have whole := @List.takeWhile_append_dropWhile _ (· != point) body
  cases behind : body.dropWhile (· != point) with
  | nil =>
    have absent : point ∉ body := by
      intro member
      rw [← whole, behind, List.append_nil] at member
      simpa using List.all_eq_true.mp List.all_takeWhile point member
    rw [behind, List.append_nil] at whole
    simp only [whole, if_neg absent, digitsValue_eq, integer?_eq]
    generalize (if negative = true then -(decimal body : Int) else (decimal body : Int)) = value
    by_cases inside : Int64.minValue.toInt ≤ value ∧ value ≤ Int64.maxValue.toInt
    · rw [if_pos inside, if_pos inside]
      simp
    · rw [if_neg inside, if_neg inside]
      simp
  | cons c places =>
    have isPoint : c = point := by
      have stops := List.head?_dropWhile_not (· != point) body
      rw [behind] at stops
      simpa using stops
    have member : point ∈ body := by
      rw [← whole, behind, isPoint]
      simp
    simp only [if_pos member, real?, behind, List.tail_cons, digitsValue_eq,
      List.contains_iff_mem]
    by_cases twice : point ∈ places
    · simp [if_pos twice]
    · simp only [if_neg twice]
      cases Decimal.toReal? negative (decimal (body.takeWhile (· != point) ++ places))
        places.length with
      | none => simp
      | some x => simp

theorem parameters_iff {items : List Expr} {names : List String} :
    parameters items = .ok names ↔ names? items = some names := by
  induction items generalizing names with
  | nil => simp [parameters, names?]
  | cons e items ih =>
    cases e with
    | name x =>
      simp only [parameters, names?, Option.map_eq_some_iff, ← ih]
      cases parameters items with
      | error => simp
      | ok others => simp
    | _ => simp [parameters, names?]

theorem assignment?_eq (target value : Expr) :
    assignment? target value = (assignTo? target).map (· value) := by
  cases target <;> rfl

/-! ## What is read is derived -/

theorem eq_cons_of_head {s : Bytes} {b : UInt8} (head : s.head? = some b) : s = b :: s.tail := by
  cases s with
  | nil => cases head
  | cons c s =>
    cases head
    rfl

/-- A mark in front of what is read next. -/
theorem Reads.mark {s rest : Bytes} {b : UInt8} {ts : List Token} (isMark : b ∈ marks)
    (head : (skipSpace s).head? = some b) (reads : Reads (skipSpace s).tail ts rest) :
    Reads s (.mark b :: ts) rest :=
  (Reads.mark_iff isMark).mpr ⟨_, eq_cons_of_head head, reads⟩

theorem Reads.refl (s : Bytes) : Reads s [] (skipSpace s) := (skipSpace_idem s).symm

theorem Reads.trans {s middle rest : Bytes} {ts us : List Token} (first : Reads s ts middle)
    (second : Reads middle us rest) : Reads s (ts ++ us) rest :=
  Reads.append_iff.mpr ⟨middle, first, second⟩

/-- What the reading functions return with an allowance of `n` is derived. -/
structure Sound (n : Nat) : Prop where
  sequence : ∀ {top : Bool} {seen es : List Expr} {s rest : Bytes},
    Source.sequence top seen n s = .ok (es, rest) →
    ∃ (t : Sequence) (others : List Expr), t.meaning? = some others ∧ es = seen.reverse ++ others ∧
      Reads s t.tokens rest ∧ atClose top rest = true
  expr : ∀ {e : Expr} {s rest : Bytes}, Source.expr n s = .ok (e, rest) →
    ∃ t : Expression, t.meaning? = some e ∧ Reads s t.tokens rest
  suffixes : ∀ {front e : Expr} {s rest : Bytes}, Source.suffixes front n s = .ok (e, rest) →
    ∃ t : Suffixes, t.meaning? front = some e ∧ Reads s t.tokens rest ∧ skipSpace rest = rest
  primary : ∀ {e : Expr} {s rest : Bytes}, Source.primary n s = .ok (e, rest) →
    ∃ t : Primary, t.meaning? = some e ∧ Reads s t.tokens rest
  block : ∀ {body : Option Expr} {s rest : Bytes}, Source.block n s = .ok (body, rest) →
    ∃ (t : Sequence) (es : List Expr), t.meaning? = some es ∧ body = Expr.ofList es ∧
      Reads s (t.tokens ++ [.mark closeBrace]) rest
  tuple : ∀ {es : List Expr} {s rest : Bytes}, Source.tuple n s = .ok (es, rest) →
    ∃ (t : Tuple) (ts : List Token), t.meaning? = some es ∧ t.tokens = .mark openParen :: ts ∧
      Reads s ts rest
  items : ∀ {seen es : List Expr} {s rest : Bytes}, Source.items seen n s = .ok (es, rest) →
    ∃ (t : Items) (others : List Expr), t.meaning? = some others ∧ es = seen.reverse ++ others ∧
      Reads s (t.tokens ++ [.mark closeParen]) rest

section Sound

variable {n : Nat} (ih : Sound n)

include ih

theorem sequence_sound {top : Bool} {seen es : List Expr} {s rest : Bytes}
    (read : Source.sequence top seen (n + 1) s = .ok (es, rest)) :
    ∃ (t : Sequence) (others : List Expr), t.meaning? = some others ∧ es = seen.reverse ++ others ∧
      Reads s t.tokens rest ∧ atClose top rest = true := by
  simp only [Source.sequence] at read
  split at read
  · next close =>
    cases read
    exact ⟨.none, [], rfl, (List.append_nil _).symm, .refl s, close⟩
  · split at read
    · next separator =>
      obtain ⟨t, others, meaning, rfl, reads, close⟩ := ih.sequence read
      exact ⟨.skip t, others, meaning, rfl, .mark (by decide) separator reads, close⟩
    · split at read
      · cases read
      · next e after found =>
        obtain ⟨t, meaning, reads⟩ := ih.expr found
        have front := reads.of_skipSpace_eq (skipSpace_idem s).symm
        split at read
        · next close =>
          cases read
          refine ⟨.last t, [e], ?_, List.reverse_cons, ?_, close⟩
          · rw [Sequence.meaning?, meaning]
            rfl
          · exact front.rest_of_skipSpace_eq (skipSpace_idem after).symm
        · split at read
          · next separator =>
            obtain ⟨t', others, meaning', rfl, reads', close⟩ := ih.sequence read
            refine ⟨.next t t', e :: others, ?_, ?_, ?_, close⟩
            · rw [Sequence.meaning?, meaning, meaning']
              rfl
            · rw [List.reverse_cons, List.append_assoc, List.singleton_append]
            · exact front.trans (.mark (by decide) separator reads')
          · cases read

theorem expr_sound {e : Expr} {s rest : Bytes} (read : Source.expr (n + 1) s = .ok (e, rest)) :
    ∃ t : Expression, t.meaning? = some e ∧ Reads s t.tokens rest := by
  simp only [Source.expr] at read
  split at read
  · cases read
  · next front after found =>
    obtain ⟨head, meaning, reads⟩ := ih.primary found
    split at read
    · cases read
    · next target after' found' =>
      obtain ⟨suffixes, meaning', reads', blank⟩ := ih.suffixes found'
      have whole : (Postfix.mk head suffixes).meaning? = some target := by
        rw [Postfix.meaning?, meaning]
        exact meaning'
      have readsWhole : Reads s (Postfix.mk head suffixes).tokens after' := reads.trans reads'
      split at read
      · next equals =>
        split at read
        · cases read
        · next assign assignable =>
          split at read
          · cases read
          · next value after'' found'' =>
            cases read
            obtain ⟨t, denotes, readsValue⟩ := ih.expr found''
            refine ⟨.assign (.mk head suffixes) t, ?_, ?_⟩
            · rw [Expression.meaning?, whole, denotes]
              simp only [Option.bind_some, assignment?_eq, assignable, Option.map_some]
            · rw [← blank] at equals readsValue
              exact readsWhole.trans (.mark (by decide) equals readsValue)
      · cases read
        exact ⟨.plain (.mk head suffixes), whole, readsWhole⟩

theorem suffixes_sound {front e : Expr} {s rest : Bytes}
    (read : Source.suffixes front (n + 1) s = .ok (e, rest)) :
    ∃ t : Suffixes, t.meaning? front = some e ∧ Reads s t.tokens rest ∧ skipSpace rest = rest := by
  simp only [Source.suffixes] at read
  split at read
  · next isPoint =>
    split at read
    · cases read
    · next found after isName =>
      obtain ⟨letters, whole, proper, ends, rfl⟩ := name_iff.mp isName
      obtain ⟨t, meaning, reads, blank⟩ := ih.suffixes read
      refine ⟨.member letters t, meaning, .mark (by decide) isPoint ?_, blank⟩
      exact ⟨after, whole, proper, ends, reads⟩
  · split at read
    · next isOpen =>
      split at read
      · cases read
      · next items after found =>
        obtain ⟨arguments, ts, meaning, starts, reads⟩ := ih.tuple found
        obtain ⟨t, meaning', reads', blank⟩ := ih.suffixes read
        refine ⟨.call arguments t, ?_, ?_, blank⟩
        · rw [Suffixes.meaning?, meaning]
          exact meaning'
        · rw [Suffixes.tokens, starts]
          exact .mark (by decide) isOpen (reads.trans reads')
    · cases read
      exact ⟨.none, rfl, .refl s, skipSpace_idem s⟩

theorem block_sound {body : Option Expr} {s rest : Bytes}
    (read : Source.block (n + 1) s = .ok (body, rest)) :
    ∃ (t : Sequence) (es : List Expr), t.meaning? = some es ∧ body = Expr.ofList es ∧
      Reads s (t.tokens ++ [.mark closeBrace]) rest := by
  simp only [Source.block] at read
  split at read
  · cases read
  · next es after found =>
    obtain ⟨t, others, meaning, all, reads, -⟩ := ih.sequence found
    obtain rfl : es = others := all
    split at read
    · next close =>
      cases read
      have solid : skipSpace after = after := by
        rw [eq_cons_of_head close]
        exact skipSpace_eq_self (by decide)
      rw [← solid] at close
      refine ⟨t, es, meaning, rfl, reads.trans (.mark (by decide) close ?_)⟩
      rw [solid]
      rfl
    · cases read

theorem items_sound {seen es : List Expr} {s rest : Bytes}
    (read : Source.items seen (n + 1) s = .ok (es, rest)) :
    ∃ (t : Items) (others : List Expr), t.meaning? = some others ∧ es = seen.reverse ++ others ∧
      Reads s (t.tokens ++ [.mark closeParen]) rest := by
  simp only [Source.items] at read
  split at read
  · cases read
  · next e after found =>
    obtain ⟨t, meaning, reads⟩ := ih.expr found
    split at read
    · next isComma =>
      obtain ⟨t', others, meaning', rfl, reads'⟩ := ih.items read
      refine ⟨.more t t', e :: others, ?_, ?_, ?_⟩
      · rw [Items.meaning?, meaning, meaning']
        rfl
      · rw [List.reverse_cons, List.append_assoc, List.singleton_append]
      · rw [Items.tokens, List.append_assoc]
        exact reads.trans (.mark (by decide) isComma reads')
    · split at read
      · next close =>
        cases read
        refine ⟨.one t, [e], ?_, List.reverse_cons, ?_⟩
        · rw [Items.meaning?, meaning]
          rfl
        · exact reads.trans (.mark (by decide) close rfl)
      · cases read

theorem tuple_sound {es : List Expr} {s rest : Bytes}
    (read : Source.tuple (n + 1) s = .ok (es, rest)) :
    ∃ (t : Tuple) (ts : List Token), t.meaning? = some es ∧ t.tokens = .mark openParen :: ts ∧
      Reads s ts rest := by
  simp only [Source.tuple] at read
  split at read
  · next close =>
    cases read
    exact ⟨.empty, [.mark closeParen], rfl, by rw [Tuple.tokens], .mark (by decide) close rfl⟩
  · obtain ⟨t, others, meaning, rfl, reads⟩ := ih.items read
    refine ⟨.items t, t.tokens ++ [.mark closeParen], meaning, by rw [Tuple.tokens], ?_⟩
    exact reads.of_skipSpace_eq (skipSpace_idem s).symm

theorem primary_sound {e : Expr} {s rest : Bytes}
    (read : Source.primary (n + 1) s = .ok (e, rest)) :
    ∃ t : Primary, t.meaning? = some e ∧ Reads s t.tokens rest := by
  simp only [Source.primary] at read
  split at read
  · cases read
  · next b after start =>
    split at read
    · next isQuote =>
      split at read
      · cases read
      · next contents after' found =>
        cases read
        obtain ⟨rfl, absent⟩ := quotedText_iff.mp found
        refine ⟨.text b contents, rfl, rest, ?_, ⟨isQuote, absent⟩, trivial, rfl⟩
        simp [start, Token.lexeme]
    · split at read
      · simp only [number] at read
        split at read
        · cases read
        · next literal after' found =>
          split at read
          · next value denotes =>
            cases read
            obtain ⟨whole, proper, ends⟩ := numberLexeme_iff.mp found
            exact ⟨.number literal, numberValue_iff.mp denotes, rest, start.trans whole, proper,
              ends, rfl⟩
          · cases read
      · split at read
        · split at read
          · cases read
          · next found after' isName =>
            cases read
            obtain ⟨letters, whole, proper, ends, rfl⟩ := name_iff.mp isName
            exact ⟨.name letters, rfl, rest, start.trans whole, proper, ends, rfl⟩
        · split at read
          · next isOpen =>
            split at read
            · cases read
            · next body after' found =>
              cases read
              obtain ⟨t, es, meaning, rfl, reads⟩ := ih.block found
              refine ⟨.box t, by rw [Primary.meaning?, meaning]; rfl, ?_⟩
              have isBrace : b = openBrace := by simpa using isOpen
              exact (Reads.mark_iff (by decide)).mpr ⟨after, by rw [start, isBrace], reads⟩
          · split at read
            · next isOpen =>
              split at read
              · cases read
              · next items after' found =>
                obtain ⟨t, ts, meaning, starts, reads⟩ := ih.tuple found
                have isParen : b = openParen := by simpa using isOpen
                have front : Reads s t.tokens after' := by
                  rw [starts]
                  exact (Reads.mark_iff (by decide)).mpr ⟨after, by rw [start, isParen], reads⟩
                split at read
                · next isBody =>
                  split at read
                  · cases read
                  · next params bare =>
                    split at read
                    · cases read
                    · next body after'' found' =>
                      cases read
                      obtain ⟨t', es, meaning', rfl, reads'⟩ := ih.block found'
                      refine ⟨.method t t', ?_, front.trans (.mark (by decide) isBody reads')⟩
                      rw [Primary.meaning?, meaning, Option.bind_some, parameters_iff.mp bare,
                        meaning']
                      rfl
                · cases read
                  refine ⟨.list t, by rw [Primary.meaning?, meaning]; rfl, ?_⟩
                  exact front.rest_of_skipSpace_eq (skipSpace_idem after').symm
            · cases read

end Sound

theorem sound (n : Nat) : Sound n := by
  induction n with
  | zero => constructor <;> intros <;> contradiction
  | succ n ih =>
    exact ⟨sequence_sound ih, expr_sound ih, suffixes_sound ih, primary_sound ih, block_sound ih,
      tuple_sound ih, items_sound ih⟩

/-! ## What is derived is read -/

/-- How much there is to read. -/
def room (s : Bytes) : Nat := (skipSpace s).length

theorem room_le_length (s : Bytes) : room s ≤ s.length := (List.dropWhile_suffix isSpace).length_le

theorem room_congr {s s' : Bytes} (same : skipSpace s = skipSpace s') : room s = room s' :=
  congrArg List.length same

theorem room_cons {s after : Bytes} {b : UInt8} (start : skipSpace s = b :: after) :
    room after + 1 ≤ room s := by
  have := room_le_length after
  rw [room.eq_def s, start, List.length_cons]
  omega

/-- Every token takes up room. -/
theorem Reads.room {s rest : Bytes} {ts : List Token} (reads : Reads s ts rest) :
    room rest + ts.length ≤ room s := by
  induction ts generalizing s with
  | nil => exact Nat.le_of_eq (room_congr reads).symm
  | cons t ts ih =>
    obtain ⟨after, start, proper, -, others⟩ := reads
    obtain ⟨b, lexeme, starts, -, -⟩ := Token.first proper
    have left := ih others
    have short := room_le_length after
    rw [starts] at start
    have size : Source.room s = lexeme.length + after.length + 1 := by
      rw [Source.room, start]
      simp
    rw [List.length_cons]
    omega

/-- The next byte that is not blank is none of those listed. -/
def Stops (banned : List UInt8) (s : Bytes) : Prop := ∀ b ∈ (skipSpace s).head?, b ∉ banned

theorem Stops.mono {banned less : List UInt8} {s : Bytes} (stops : Stops banned s)
    (within : less ⊆ banned) : Stops less s :=
  fun b head member => stops b head (within member)

theorem Stops.of_start {banned : List UInt8} {s after : Bytes} {b : UInt8}
    (start : skipSpace s = b :: after) (allowed : b ∉ banned) : Stops banned s := by
  intro c head
  rw [start] at head
  cases head
  exact allowed

theorem Stops.head_ne {banned : List UInt8} {s : Bytes} {b : UInt8} (stops : Stops banned s)
    (member : b ∈ banned) : ¬ (skipSpace s).head? = some b :=
  fun head => stops b head member

/-- An expression does not start with a byte that ends one. -/
theorem Reads.start {s rest : Bytes} {t : Token} {ts : List Token} (reads : Reads s (t :: ts) rest)
    (starts : t ∉ enders) :
    ∃ b after, skipSpace s = b :: after ∧ b ∉ [semicolon, comma, closeParen, closeBrace] := by
  obtain ⟨after, start, proper, -, -⟩ := reads
  obtain ⟨b, lexeme, first, kind, -⟩ := Token.first proper
  refine ⟨b, lexeme ++ after, by rw [start, first]; rfl, ?_⟩
  intro ender
  have isMark : b ∈ marks := by
    simp only [List.mem_cons, List.not_mem_nil, or_false] at ender
    rcases ender with rfl | rfl | rfl | rfl <;> simp [marks]
  rw [(kindOf_mark isMark).1] at kind
  cases t with
  | mark c =>
    cases first
    exact starts (by simpa [enders] using ender)
  | _ => cases kind

theorem not_atClose {top : Bool} {b : UInt8} {after : Bytes}
    (start : b ∉ [semicolon, comma, closeParen, closeBrace]) : atClose top (b :: after) = false := by
  simp only [List.mem_cons, List.not_mem_nil, or_false, not_or] at start
  simp [atClose, start]

/-- The end of a sequence is no continuation of an expression. -/
theorem Stops.of_atClose {top : Bool} {s : Bytes} (close : atClose top (skipSpace s) = true) :
    Stops [point, openParen, equalSign, openBrace] s := by
  intro b head
  rw [eq_cons_of_head head] at close
  simp only [atClose, Bool.or_eq_true, Bool.and_eq_true, beq_iff_eq] at close
  rcases close with rfl | ⟨-, rfl⟩ <;> decide

theorem Suffixes.stops {t : Suffixes} {s rest : Bytes} (reads : Reads s t.tokens rest)
    (stops : Stops [openBrace] rest) : Stops [openBrace] s := by
  cases t with
  | none =>
    intro b head
    rw [show skipSpace s = skipSpace rest from reads] at head
    exact stops b head
  | member letters others =>
    rw [Suffixes.tokens] at reads
    obtain ⟨after, start, -⟩ := (Reads.mark_iff (by decide)).mp reads
    exact .of_start start (by decide)
  | call arguments others =>
    obtain ⟨ts, starts⟩ := arguments.tokens_start
    rw [Suffixes.tokens, starts] at reads
    obtain ⟨after, start, -⟩ := (Reads.mark_iff (by decide)).mp reads
    exact .of_start start (by decide)

/-- What is derived is read, given an allowance of `n`. -/
structure Complete (n : Nat) : Prop where
  sequence : ∀ {t : Sequence} {top : Bool} {seen es : List Expr} {s rest : Bytes},
    t.meaning? = some es → Reads s t.tokens rest → atClose top (skipSpace rest) = true →
    4 * room s + 3 ≤ n →
    Source.sequence top seen n s = .ok (seen.reverse ++ es, skipSpace rest)
  expr : ∀ {t : Expression} {e : Expr} {s rest : Bytes}, t.meaning? = some e →
    Reads s t.tokens rest → Stops [point, openParen, equalSign, openBrace] rest →
    4 * room s + 2 ≤ n → Source.expr n s = .ok (e, skipSpace rest)
  suffixes : ∀ {t : Suffixes} {front e : Expr} {s rest : Bytes}, t.meaning? front = some e →
    Reads s t.tokens rest → Stops [point, openParen] rest → 4 * room s + 1 ≤ n →
    Source.suffixes front n s = .ok (e, skipSpace rest)
  primary : ∀ {t : Primary} {e : Expr} {s rest : Bytes}, t.meaning? = some e →
    Reads s t.tokens rest → Stops [openBrace] rest → 4 * room s + 1 ≤ n →
    ∃ rest', Source.primary n s = .ok (e, rest') ∧ skipSpace rest' = skipSpace rest
  block : ∀ {t : Sequence} {es : List Expr} {s rest : Bytes}, t.meaning? = some es →
    Reads s (t.tokens ++ [.mark closeBrace]) rest → 4 * room s + 4 ≤ n →
    ∃ rest', Source.block n s = .ok (Expr.ofList es, rest') ∧ skipSpace rest' = skipSpace rest
  tuple : ∀ {t : Tuple} {ts : List Token} {es : List Expr} {s rest : Bytes},
    t.meaning? = some es → t.tokens = .mark openParen :: ts → Reads s ts rest →
    4 * room s + 4 ≤ n →
    ∃ rest', Source.tuple n s = .ok (es, rest') ∧ skipSpace rest' = skipSpace rest
  items : ∀ {t : Items} {seen es : List Expr} {s rest : Bytes}, t.meaning? = some es →
    Reads s (t.tokens ++ [.mark closeParen]) rest → 4 * room s + 3 ≤ n →
    ∃ rest', Source.items seen n s = .ok (seen.reverse ++ es, rest') ∧
      skipSpace rest' = skipSpace rest

section Complete

variable {n : Nat} (ih : Complete n)

include ih

/-- A sequence that starts with an expression goes on behind it. -/
theorem sequence_expr {t : Expression} {top : Bool} {seen : List Expr} {e : Expr} {s rest : Bytes}
    (meaning : t.meaning? = some e) (reads : Reads s t.tokens rest)
    (stops : Stops [point, openParen, equalSign, openBrace] rest)
    (enough : 4 * room s + 2 ≤ n) :
    Source.sequence top seen (n + 1) s =
      if atClose top (skipSpace rest) then .ok ((e :: seen).reverse, skipSpace rest)
      else if (skipSpace rest).head? = some semicolon then
        Source.sequence top (e :: seen) n (skipSpace rest).tail
      else .error (.at (skipSpace rest) (.missingSemicolon (skipSpace rest).head?)) := by
  obtain ⟨first, ts, starts, other⟩ := t.tokens_start
  rw [starts] at reads
  obtain ⟨b, after, start, allowed⟩ := reads.start other
  rw [← starts] at reads
  have value := ih.expr meaning (reads.of_skipSpace_eq (skipSpace_idem s)) stops
    (by rw [room_congr (skipSpace_idem s)]; exact enough)
  have notSeparator : ¬ (skipSpace s).head? = some semicolon := by
    rw [start]
    rintro ⟨⟩
    exact allowed (by simp)
  rw [Source.sequence]
  simp only [start, not_atClose allowed]
  rw [← start, if_neg notSeparator, value]
  simp only [skipSpace_idem, Bool.false_eq_true, if_false]

theorem sequence_complete {t : Sequence} {top : Bool} {seen es : List Expr} {s rest : Bytes}
    (meaning : t.meaning? = some es) (reads : Reads s t.tokens rest)
    (close : atClose top (skipSpace rest) = true) (enough : 4 * room s + 3 ≤ n + 1) :
    Source.sequence top seen (n + 1) s = .ok (seen.reverse ++ es, skipSpace rest) := by
  cases t with
  | none =>
    cases meaning
    have blank : skipSpace s = skipSpace rest := reads
    simp only [Source.sequence, blank, close, if_true, List.append_nil]
  | skip others =>
    rw [Sequence.tokens] at reads
    obtain ⟨after, start, reads⟩ := (Reads.mark_iff (by decide)).mp reads
    have less := room_cons start
    have denote : others.meaning? = some es := meaning
    have value : Source.sequence top seen n after = .ok (seen.reverse ++ es, skipSpace rest) :=
      ih.sequence denote reads close (by omega)
    have open' : atClose top (semicolon :: after) = false := by cases top <;> rfl
    rw [Source.sequence]
    simp only [start, open', Bool.false_eq_true, if_false, List.head?_cons, if_true, List.tail_cons]
    exact value
  | last e =>
    rw [Sequence.tokens] at reads
    obtain ⟨e', denotes, rfl⟩ := Option.map_eq_some_iff.mp meaning
    rw [sequence_expr ih denotes reads (.of_atClose close) (by omega), if_pos close,
      List.reverse_cons]
  | next e others =>
    rw [Sequence.tokens] at reads
    obtain ⟨e', denotes, meaning⟩ := Option.bind_eq_some_iff.mp meaning
    obtain ⟨es, denote, rfl⟩ := Option.map_eq_some_iff.mp meaning
    obtain ⟨middle, front, back⟩ := Reads.append_iff.mp reads
    obtain ⟨after, start, back⟩ := (Reads.mark_iff (by decide)).mp back
    have less := room_cons start
    have less' := front.room
    have open' : atClose top (semicolon :: after) = false := by cases top <;> rfl
    rw [sequence_expr ih denotes front (.of_start start (by decide)) (by omega), start, open']
    simp only [Bool.false_eq_true, if_false, List.head?_cons, if_true, List.tail_cons]
    rw [ih.sequence denote back close (by omega), List.reverse_cons, List.append_assoc,
      List.singleton_append]

/-- A postfix expression is read in front of anything that does not continue it. -/
theorem postfix_complete {head : Primary} {suffixes : Suffixes} {e : Expr} {s rest : Bytes}
    (meaning : (Postfix.mk head suffixes).meaning? = some e)
    (reads : Reads s (head.tokens ++ suffixes.tokens) rest)
    (stops : Stops [point, openParen, openBrace] rest) (enough : 4 * room s + 1 ≤ n) :
    ∃ front after, Source.primary n s = .ok (front, after) ∧
      Source.suffixes front n after = .ok (e, skipSpace rest) := by
  rw [Postfix.meaning?] at meaning
  obtain ⟨front, denotes, meaning⟩ := Option.bind_eq_some_iff.mp meaning
  obtain ⟨middle, first, second⟩ := Reads.append_iff.mp reads
  have less := first.room
  obtain ⟨after, found, same⟩ := ih.primary denotes first
    (Suffixes.stops second (stops.mono (by simp))) enough
  refine ⟨front, after, found, ?_⟩
  exact ih.suffixes meaning (second.of_skipSpace_eq same) (stops.mono (by simp))
    (by rw [room_congr same]; omega)

theorem expr_complete {t : Expression} {e : Expr} {s rest : Bytes} (meaning : t.meaning? = some e)
    (reads : Reads s t.tokens rest) (stops : Stops [point, openParen, equalSign, openBrace] rest)
    (enough : 4 * room s + 2 ≤ n + 1) : Source.expr (n + 1) s = .ok (e, skipSpace rest) := by
  cases t with
  | plain p =>
    obtain ⟨head, suffixes⟩ := p
    rw [Expression.tokens, Postfix.tokens] at reads
    obtain ⟨front, after, found, found'⟩ :=
      postfix_complete ih meaning reads (stops.mono (by simp)) (by omega)
    simp only [Source.expr, found, found', if_neg (stops.head_ne (by simp : equalSign ∈ _))]
  | assign p value =>
    obtain ⟨head, suffixes⟩ := p
    rw [Expression.tokens, Postfix.tokens] at reads
    obtain ⟨middle, first, second⟩ := Reads.append_iff.mp reads
    rw [Expression.meaning?] at meaning
    obtain ⟨target, denotes, meaning⟩ := Option.bind_eq_some_iff.mp meaning
    obtain ⟨value', denotes', assigned⟩ := Option.bind_eq_some_iff.mp meaning
    rw [assignment?_eq] at assigned
    obtain ⟨assign, assignable, rfl⟩ := Option.map_eq_some_iff.mp assigned
    obtain ⟨after, start, second⟩ := (Reads.mark_iff (by decide)).mp second
    have less := room_cons start
    have less' := first.room
    obtain ⟨b, ts, starts, -⟩ := head.tokens_start
    rw [starts, List.cons_append, List.length_cons] at less'
    obtain ⟨front, after', found, found'⟩ :=
      postfix_complete ih denotes first (.of_start start (by decide)) (by omega)
    simp only [Source.expr, found, found', start, List.head?_cons, if_true, assignable,
      List.tail_cons]
    rw [ih.expr denotes' second stops (by omega)]

theorem suffixes_complete {t : Suffixes} {front e : Expr} {s rest : Bytes}
    (meaning : t.meaning? front = some e) (reads : Reads s t.tokens rest)
    (stops : Stops [point, openParen] rest) (enough : 4 * room s + 1 ≤ n + 1) :
    Source.suffixes front (n + 1) s = .ok (e, skipSpace rest) := by
  cases t with
  | none =>
    cases meaning
    have blank : skipSpace s = skipSpace rest := reads
    simp only [Source.suffixes, blank, if_neg (stops.head_ne (by simp : point ∈ _)),
      if_neg (stops.head_ne (by simp : openParen ∈ _))]
  | member letters others =>
    rw [Suffixes.tokens] at reads
    obtain ⟨after, start, reads⟩ := (Reads.mark_iff (by decide)).mp reads
    have less := room_cons start
    obtain ⟨after', whole, proper, ends, reads'⟩ := reads
    have found := name_iff.mpr ⟨letters, whole, proper, ends, rfl⟩
    have less' : room after' + 1 ≤ room after :=
      @Reads.room after after' [.name letters] ⟨after', whole, proper, ends, rfl⟩
    have denotes : others.meaning? (.member front (Utf8.ascii letters)) = some e := meaning
    simp only [Source.suffixes, start, List.head?_cons, if_true, List.tail_cons, found]
    exact ih.suffixes denotes reads' stops (by omega)
  | call arguments others =>
    obtain ⟨ts, starts⟩ := arguments.tokens_start
    rw [Suffixes.tokens, starts, List.cons_append] at reads
    obtain ⟨after, start, reads⟩ := (Reads.mark_iff (by decide)).mp reads
    have less := room_cons start
    obtain ⟨middle, inner, outer⟩ := Reads.append_iff.mp reads
    have less' := inner.room
    rw [Suffixes.meaning?] at meaning
    obtain ⟨items, denote, meaning⟩ := Option.bind_eq_some_iff.mp meaning
    obtain ⟨after', found, same⟩ := ih.tuple denote starts inner (by omega)
    have notPoint : ¬ some openParen = some point := by decide
    simp only [Source.suffixes, start, List.head?_cons, if_neg notPoint, if_true, List.tail_cons,
      found]
    exact ih.suffixes meaning (outer.of_skipSpace_eq same) stops
      (by rw [room_congr same]; omega)

theorem block_complete {t : Sequence} {es : List Expr} {s rest : Bytes}
    (meaning : t.meaning? = some es) (reads : Reads s (t.tokens ++ [.mark closeBrace]) rest)
    (enough : 4 * room s + 4 ≤ n + 1) :
    ∃ rest', Source.block (n + 1) s = .ok (Expr.ofList es, rest') ∧
      skipSpace rest' = skipSpace rest := by
  obtain ⟨middle, front, back⟩ := Reads.append_iff.mp reads
  obtain ⟨after, start, back⟩ := (Reads.mark_iff (by decide)).mp back
  have close : atClose false (skipSpace middle) = true := by
    rw [start]
    rfl
  have value : Source.sequence false [] n s = .ok (es, skipSpace middle) :=
    ih.sequence meaning front close (by omega)
  refine ⟨after, ?_, back⟩
  simp only [Source.block, value, start, List.head?_cons, if_true, List.tail_cons]

theorem items_complete {t : Items} {seen es : List Expr} {s rest : Bytes}
    (meaning : t.meaning? = some es) (reads : Reads s (t.tokens ++ [.mark closeParen]) rest)
    (enough : 4 * room s + 3 ≤ n + 1) :
    ∃ rest', Source.items seen (n + 1) s = .ok (seen.reverse ++ es, rest') ∧
      skipSpace rest' = skipSpace rest := by
  cases t with
  | one e =>
    rw [Items.tokens] at reads
    obtain ⟨e', denotes, rfl⟩ := Option.map_eq_some_iff.mp meaning
    obtain ⟨middle, front, back⟩ := Reads.append_iff.mp reads
    obtain ⟨after, start, back⟩ := (Reads.mark_iff (by decide)).mp back
    have value := ih.expr denotes front (.of_start start (by decide)) (by omega)
    have notComma : ¬ some closeParen = some comma := by decide
    refine ⟨after, ?_, back⟩
    simp only [Source.items, value]
    rw [skipSpace_idem, start]
    simp only [List.head?_cons, if_neg notComma, if_true, List.tail_cons, List.reverse_cons]
  | more e others =>
    rw [Items.tokens, List.append_assoc] at reads
    obtain ⟨e', denotes, meaning⟩ := Option.bind_eq_some_iff.mp meaning
    obtain ⟨es, denote, rfl⟩ := Option.map_eq_some_iff.mp meaning
    obtain ⟨middle, front, back⟩ := Reads.append_iff.mp reads
    obtain ⟨after, start, back⟩ := (Reads.mark_iff (by decide)).mp back
    have less := room_cons start
    have less' := front.room
    have value := ih.expr denotes front (.of_start start (by decide)) (by omega)
    obtain ⟨rest', found, same⟩ := @ih.items others (e' :: seen) es after rest denote back (by omega)
    refine ⟨rest', ?_, same⟩
    simp only [Source.items, value]
    rw [skipSpace_idem, start]
    simp only [List.head?_cons, if_true, List.tail_cons, found, List.reverse_cons,
      List.append_assoc, List.singleton_append]

theorem tuple_complete {t : Tuple} {ts : List Token} {es : List Expr} {s rest : Bytes}
    (meaning : t.meaning? = some es) (starts : t.tokens = .mark openParen :: ts)
    (reads : Reads s ts rest) (enough : 4 * room s + 4 ≤ n + 1) :
    ∃ rest', Source.tuple (n + 1) s = .ok (es, rest') ∧ skipSpace rest' = skipSpace rest := by
  cases t with
  | empty =>
    cases meaning
    rw [Tuple.tokens] at starts
    obtain ⟨-, rfl⟩ := List.cons.inj starts
    obtain ⟨after, start, back⟩ := (Reads.mark_iff (by decide)).mp reads
    refine ⟨after, ?_, back⟩
    simp only [Source.tuple, start, List.head?_cons, if_true, List.tail_cons]
  | items items =>
    rw [Tuple.tokens] at starts
    obtain ⟨-, rfl⟩ := List.cons.inj starts
    obtain ⟨first, ts, begins, other⟩ := items.tokens_start
    have front := reads
    rw [begins] at front
    obtain ⟨b, after, start, allowed⟩ := front.start other
    have notClose : ¬ (skipSpace s).head? = some closeParen := by
      rw [start]
      rintro ⟨⟩
      exact allowed (by simp)
    have denote : items.meaning? = some es := meaning
    obtain ⟨rest', found, same⟩ := @ih.items items [] es (skipSpace s) rest denote
      (reads.of_skipSpace_eq (skipSpace_idem s)) (by rw [room_congr (skipSpace_idem s)]; omega)
    refine ⟨rest', ?_, same⟩
    simp only [Source.tuple, if_neg notClose, found]
    rfl

omit ih in
theorem of_kindOf_number {b : UInt8} (kind : kindOf b = .number) :
    isQuote b = false ∧ (isDigit b || isSign b) = true := by
  simp only [kindOf] at kind
  split at kind
  · cases kind
  · next noQuote =>
    split at kind
    · next starts => exact ⟨by simpa using noQuote, starts⟩
    · split at kind <;> cases kind

omit ih in
theorem of_kindOf_name {b : UInt8} (kind : kindOf b = .name) :
    isQuote b = false ∧ (isDigit b || isSign b) = false ∧ startsName b = true := by
  simp only [kindOf] at kind
  split at kind
  · cases kind
  · next noQuote =>
    split at kind
    · cases kind
    · next noNumber =>
      split at kind
      · next starts => exact ⟨by simpa using noQuote, by simpa using noNumber, starts⟩
      · cases kind

omit ih in
/-- A parenthesis starts neither a literal nor a name nor a box. -/
theorem openParen_tests : isQuote openParen = false ∧
    (isDigit openParen || isSign openParen) = false ∧ startsName openParen = false ∧
    (openParen == openBrace) = false := by
  decide

theorem primary_complete {t : Primary} {e : Expr} {s rest : Bytes} (meaning : t.meaning? = some e)
    (reads : Reads s t.tokens rest) (stops : Stops [openBrace] rest)
    (enough : 4 * room s + 1 ≤ n + 1) :
    ∃ rest', Source.primary (n + 1) s = .ok (e, rest') ∧ skipSpace rest' = skipSpace rest := by
  cases t with
  | text quote contents =>
    cases meaning
    rw [Primary.tokens] at reads
    obtain ⟨after, start, proper, -, same⟩ := reads
    have found : quotedText quote (contents ++ quote :: after) = .ok (contents, after) :=
      quotedText_iff.mpr ⟨rfl, proper.2⟩
    have start' : skipSpace s = quote :: (contents ++ quote :: after) := by
      simpa [Token.lexeme] using start
    refine ⟨after, ?_, same⟩
    simp only [Source.primary, start', proper.1, if_true, found]
  | number literal =>
    rw [Primary.tokens] at reads
    obtain ⟨after, start, proper, ends, same⟩ := reads
    obtain ⟨b, tail, first, kind, -⟩ := Token.first proper
    obtain ⟨noQuote, starts⟩ := of_kindOf_number kind
    have found := numberLexeme_iff.mpr ⟨start, proper, ends⟩
    have value : numberValue (Token.number literal).lexeme = .ok e := numberValue_iff.mpr meaning
    have start' : skipSpace s = b :: (tail ++ after) := by
      rw [start, first]
      rfl
    rw [start'] at found
    refine ⟨after, ?_, same⟩
    simp only [Source.primary, start', noQuote, starts, Bool.false_eq_true, if_false, if_true,
      number, found, value]
  | name letters =>
    cases meaning
    rw [Primary.tokens] at reads
    obtain ⟨after, start, proper, ends, same⟩ := reads
    obtain ⟨b, tail, first, kind, -⟩ := Token.first proper
    obtain ⟨noQuote, noNumber, starts⟩ := of_kindOf_name kind
    have found := name_iff.mpr ⟨letters, start, proper, ends, rfl⟩
    have start' : skipSpace s = b :: (tail ++ after) := by
      rw [start, first]
      rfl
    rw [start'] at found
    refine ⟨after, ?_, same⟩
    simp only [Source.primary, start', noQuote, noNumber, starts, Bool.false_eq_true, if_false,
      if_true, found]
  | box body =>
    rw [Primary.tokens] at reads
    obtain ⟨after, start, reads⟩ := (Reads.mark_iff (by decide)).mp reads
    have less := room_cons start
    rw [Primary.meaning?] at meaning
    obtain ⟨es, denote, rfl⟩ := Option.map_eq_some_iff.mp meaning
    obtain ⟨rest', found, same⟩ := ih.block denote reads (by omega)
    have quote : isQuote openBrace = false := by decide
    have digit : (isDigit openBrace || isSign openBrace) = false := by decide
    have letter : startsName openBrace = false := by decide
    refine ⟨rest', ?_, same⟩
    simp only [Source.primary, start, quote, digit, letter, Bool.false_eq_true, if_false,
      beq_self_eq_true, if_true, found]
  | list items =>
    obtain ⟨ts, starts⟩ := items.tokens_start
    rw [Primary.tokens, starts] at reads
    obtain ⟨after, start, reads⟩ := (Reads.mark_iff (by decide)).mp reads
    rw [Primary.meaning?] at meaning
    obtain ⟨es, denote, rfl⟩ := Option.map_eq_some_iff.mp meaning
    have less := room_cons start
    obtain ⟨after', found, same⟩ := ih.tuple denote starts reads (by omega)
    refine ⟨skipSpace rest, ?_, skipSpace_idem rest⟩
    simp only [Source.primary, start, openParen_tests, Bool.false_eq_true, if_false,
      beq_self_eq_true, if_true, found, same, if_neg (stops.head_ne (by simp : openBrace ∈ _))]
  | method params body =>
    obtain ⟨ts, starts⟩ := params.tokens_start
    rw [Primary.tokens, starts, List.cons_append] at reads
    obtain ⟨after, start, reads⟩ := (Reads.mark_iff (by decide)).mp reads
    have less := room_cons start
    obtain ⟨middle, inner, outer⟩ := Reads.append_iff.mp reads
    obtain ⟨after', start', outer⟩ := (Reads.mark_iff (by decide)).mp outer
    have less' := inner.room
    have less'' := room_cons start'
    rw [Primary.meaning?] at meaning
    obtain ⟨names, bare, meaning⟩ := Option.bind_eq_some_iff.mp meaning
    obtain ⟨items, denote, bare⟩ := Option.bind_eq_some_iff.mp bare
    obtain ⟨es, denote', rfl⟩ := Option.map_eq_some_iff.mp meaning
    obtain ⟨between, found, blank⟩ := ih.tuple denote starts inner (by omega)
    obtain ⟨rest', found', same⟩ := ih.block denote' outer (by omega)
    refine ⟨rest', ?_, same⟩
    simp only [Source.primary, start, openParen_tests, Bool.false_eq_true, if_false,
      beq_self_eq_true, if_true, found, blank, start', List.head?_cons,
      parameters_iff.mpr bare, List.tail_cons, found']

end Complete

theorem complete (n : Nat) : Complete n := by
  induction n with
  | zero => constructor <;> intros <;> omega
  | succ n ih =>
    exact ⟨sequence_complete ih, expr_complete ih, suffixes_complete ih, primary_complete ih,
      block_complete ih, tuple_complete ih, items_complete ih⟩

/-! ## Whole sources -/

theorem parse_ok_iff {s : Bytes} {es : List Expr} :
    parse s = .ok es ↔ sequence true [] (allowance s) s = .ok (es, []) := by
  simp only [parse, parseFault]
  cases sequence true [] (allowance s) s with
  | error fault => simp
  | ok result =>
    obtain ⟨found, rest⟩ := result
    cases rest with
    | nil => simp
    | cons b rest => simp

theorem derives_of_parse {s : Bytes} {es : List Expr} (parsed : parse s = .ok es) :
    Derives s es := by
  obtain ⟨t, others, meaning, all, reads, -⟩ := (sound _).sequence (parse_ok_iff.mp parsed)
  obtain rfl : es = others := all
  exact ⟨t, spells_iff_reads.mpr reads, meaning⟩

theorem parse_of_derives {s : Bytes} {es : List Expr} (derives : Derives s es) :
    parse s = .ok es := by
  obtain ⟨t, spells, meaning⟩ := derives
  have enough : 4 * room s + 3 ≤ allowance s := by
    have := room_le_length s
    rw [allowance]
    omega
  exact parse_ok_iff.mpr
    ((complete _).sequence meaning (spells_iff_reads.mp spells) rfl enough)

theorem Spells.proper {s : Bytes} {ts : List Token} (spells : Spells s ts) : Proper ts := by
  induction spells with
  | done => nofun
  | blank _ _ ih => exact ih
  | token proper _ _ ih =>
    intro t member
    rcases List.mem_cons.mp member with rfl | member
    · exact proper
    · exact ih t member

theorem parsed_of_parse {s : Bytes} {es : List Expr} (parsed : parse s = .ok es) :
    ∀ e ∈ es, Parsed e := by
  obtain ⟨t, spells, meaning⟩ := derives_of_parse parsed
  exact t.parsed es spells.proper meaning

/-- Reading accepts exactly the sources that the grammar derives and builds
exactly what their derivations denote. A source has at most one derivation, and
what is built has the shape of parsed expressions. -/
theorem parse_iff_derives (s : Bytes) :
    (∀ es, parse s = .ok es ↔ Derives s es) ∧
    (∀ t u : Sequence, Spells s t.tokens → Spells s u.tokens → t = u) ∧
    ∀ es, parse s = .ok es → (∀ e ∈ es, Parsed e) ∧
      (parseProgram s = .ok none ↔ es = []) ∧
      ∀ e, parseProgram s = .ok (some e) ↔
        es = [e] ∨ e = .sequence es ∧ 2 ≤ es.length := by
  refine ⟨fun es => ⟨derives_of_parse, parse_of_derives⟩, fun t u => Sequence.unique, ?_⟩
  intro es parsed
  refine ⟨parsed_of_parse parsed, ?_, ?_⟩
  · rw [parseProgram, parsed]
    match es with
    | [] => simp [Expr.ofList]
    | [e] => simp [Expr.ofList]
    | e :: f :: es => simp [Expr.ofList]
  · intro e
    rw [parseProgram, parsed]
    match es with
    | [] => simp [Expr.ofList]
    | [f] => simp [Expr.ofList]
    | f :: g :: es => simp [Expr.ofList, eq_comm]

end BoxScript.Source
