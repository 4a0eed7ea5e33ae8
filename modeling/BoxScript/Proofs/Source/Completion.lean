import BoxScript.Proofs.Source.Continuation

/-!
# Sources that can be completed

Where a source ends too early, what is missing can be read off the calls that
were still open: a text is closed with its quote, a name is put where one or an
expression is missing, and the brackets are closed from the inside out. What
was already read stays as it is, since a line break continues no token. Nothing
that is added here opens a body or assigns, so no list becomes a list of
parameters and no expression the target of an assignment.

Two faults at the end of a source cannot be mended on the next line: a sign
without a digit and an underscore that ends a number.
-/

set_option autoImplicit false

namespace BoxScript.Source

open Grammar

/-- The source ended too early, and not inside a number. -/
structure Fault.Mendable (fault : Fault) : Prop where
  incomplete : fault.incomplete = true
  digit : fault.cause ≠ .numberWithoutDigit none
  underscore : fault.cause ≠ .trailingUnderscore
  allowance : fault.cause ≠ .outOfFuel

theorem Fault.Mendable.ended {s : Bytes} {cause : Cause} (mendable : (Fault.at s cause).Mendable) :
    s = [] :=
  List.isEmpty_iff.mp mendable.incomplete

/-- Some bytes on the next line turn a source into these tokens, whatever
follows them. -/
def Completes (s : Bytes) (ts : List Token) : Prop :=
  ∃ c, ∀ u, Reads (s ++ newline :: (c ++ u)) ts u

theorem separate_newline (u : Bytes) : Separate (newline :: u) := .of_head rfl (by decide)

namespace Completes

variable {s rest : Bytes} {ts us : List Token}

/-- Tokens in front of those that are completed. -/
theorem after (reads : Reads s ts rest) (completes : Completes rest us) : Completes s (ts ++ us) := by
  obtain ⟨c, completes⟩ := completes
  exact ⟨c, fun u => (reads.append (separate_newline _)).trans (completes u)⟩

theorem after_mark {b : UInt8} (isMark : b ∈ marks) (head : (skipSpace s).head? = some b)
    (completes : Completes (skipSpace s).tail us) : Completes s (.mark b :: us) := by
  have reads : Reads s [.mark b] (skipSpace s).tail := .mark isMark head rfl
  exact after reads completes

/-- Blanks in front do not matter. -/
theorem of_skipSpace (completes : Completes (skipSpace s) ts) : Completes s ts :=
  after (.refl s) completes

/-- One more mark is put behind. -/
theorem before_mark {b : UInt8} (isMark : b ∈ marks) (solid : ¬ isSpace b)
    (completes : Completes s ts) : Completes s (ts ++ [.mark b]) := by
  obtain ⟨c, completes⟩ := completes
  refine ⟨c ++ [b], fun u => ?_⟩
  have front := completes (b :: u)
  have back : Reads (b :: u) [.mark b] u :=
    (Reads.mark_iff isMark).mpr ⟨u, skipSpace_eq_self solid, rfl⟩
  simpa using front.trans back

/-- At the end of a source everything that is missing comes on the next line. -/
theorem of_end (none : skipSpace s = []) (c : Bytes) (reads : ∀ u, Reads (c ++ u) ts u) :
    Completes s ts := by
  refine ⟨c, fun u => (reads u).of_skipSpace_eq ?_⟩
  have blank : isSpace newline = true := by decide
  simp only [skipSpace] at none ⊢
  simp [List.dropWhile_append, none, blank]

/-- A mark that is all that is missing. -/
theorem mark_of_end {b : UInt8} (none : skipSpace s = []) (isMark : b ∈ marks) (solid : ¬ isSpace b) :
    Completes s [.mark b] :=
  of_end none [b] fun u => (Reads.mark_iff isMark).mpr ⟨u, skipSpace_eq_self solid, rfl⟩

/-- The name `x` where a name is missing. -/
theorem name_of_end (none : skipSpace s = []) : Completes s [.name [0x78]] := by
  refine of_end none [0x78, 0x20] fun u => ⟨0x20 :: u, rfl, ⟨by decide, by simp⟩, ?_, rfl⟩
  intro b head
  cases head
  decide

end Completes

/-! ## Names, texts and numbers -/

theorem name_mendable {s : Bytes} {fault : Fault} (failed : name (skipSpace s) = .error fault)
    (mendable : fault.Mendable) : skipSpace s = [] := by
  cases start : skipSpace s with
  | nil => rfl
  | cons b rest =>
    rw [start] at failed
    simp only [name] at failed
    split at failed
    · cases failed
    · cases failed
      cases mendable.incomplete

theorem not_mem_of_quotedText_error {quote : UInt8} {s : Bytes} {fault : Fault}
    (failed : quotedText quote s = .error fault) : quote ∉ s := by
  simp only [quotedText] at failed
  split at failed
  · cases failed
  · next contents cut =>
    obtain ⟨whole, all, -⟩ := of_span cut
    rw [List.append_nil] at whole
    intro member
    rw [whole] at member
    simpa using all quote member

theorem numberEnd_not_mendable {seen s : Bytes} {last : UInt8} {fault : Fault}
    (failed : numberEnd seen last s = .error fault) : ¬ fault.Mendable := by
  intro mendable
  simp only [numberEnd] at failed
  split at failed
  · cases failed
    exact mendable.underscore rfl
  · cases failed

theorem numberTail_not_mendable {seen s : Bytes} {last : UInt8} {fault : Fault}
    (failed : numberTail seen last s = .error fault) : ¬ fault.Mendable := by
  induction s generalizing seen last with
  | nil => exact numberEnd_not_mendable failed
  | cons b s ih =>
    simp only [numberTail] at failed
    split at failed
    · exact ih failed
    · split at failed
      · split at failed
        · exact ih failed
        · cases failed
          intro mendable
          cases mendable.incomplete
      · exact numberEnd_not_mendable failed

theorem unsignedNumber_not_mendable {s : Bytes} {fault : Fault}
    (failed : unsignedNumber s = .error fault) : ¬ fault.Mendable := by
  intro mendable
  cases s with
  | nil =>
    cases failed
    exact mendable.digit rfl
  | cons b s =>
    simp only [unsignedNumber] at failed
    split at failed
    · exact numberTail_not_mendable failed mendable
    · cases failed
      cases mendable.incomplete

theorem number_not_mendable {s : Bytes} {fault : Fault} (failed : number s = .error fault) :
    ¬ fault.Mendable := by
  intro mendable
  simp only [number] at failed
  split at failed
  · next found =>
    cases failed
    cases s with
    | nil => exact unsignedNumber_not_mendable (s := []) found mendable
    | cons b s =>
      simp only [numberLexeme] at found
      split at found
      · split at found
        · cases found
        · next found' =>
          cases found
          exact unsignedNumber_not_mendable found' mendable
      · exact unsignedNumber_not_mendable found mendable
  · split at failed
    · cases failed
    · cases failed
      cases mendable.incomplete

/-! ## The reading functions -/

/-- What the reading functions leave open with an allowance of `n` can be
completed. -/
structure Completable (n : Nat) : Prop where
  sequence : ∀ {top : Bool} {seen : List Expr} {s : Bytes} {fault : Fault},
    Source.sequence top seen n s = .error fault → fault.Mendable →
    ∃ (t : Sequence) (es : List Expr), t.meaning? = some es ∧ Completes s t.tokens
  expr : ∀ {s : Bytes} {fault : Fault}, Source.expr n s = .error fault → fault.Mendable →
    ∃ (t : Expression) (e : Expr), t.meaning? = some e ∧ Completes s t.tokens
  suffixes : ∀ {front : Expr} {s : Bytes} {fault : Fault},
    Source.suffixes front n s = .error fault → fault.Mendable →
    ∃ (t : Suffixes) (e : Expr), t.meaning? front = some e ∧ Completes s t.tokens
  primary : ∀ {s : Bytes} {fault : Fault}, Source.primary n s = .error fault → fault.Mendable →
    ∃ (t : Primary) (e : Expr), t.meaning? = some e ∧ Completes s t.tokens
  block : ∀ {s : Bytes} {fault : Fault}, Source.block n s = .error fault → fault.Mendable →
    ∃ (t : Sequence) (es : List Expr), t.meaning? = some es ∧
      Completes s (t.tokens ++ [.mark closeBrace])
  tuple : ∀ {s : Bytes} {fault : Fault}, Source.tuple n s = .error fault → fault.Mendable →
    ∃ (t : Tuple) (es : List Expr) (ts : List Token), t.meaning? = some es ∧
      t.tokens = .mark openParen :: ts ∧ Completes s ts
  items : ∀ {seen : List Expr} {s : Bytes} {fault : Fault},
    Source.items seen n s = .error fault → fault.Mendable →
    ∃ (t : Items) (es : List Expr), t.meaning? = some es ∧
      Completes s (t.tokens ++ [.mark closeParen])

section Completable

variable {n : Nat} (ih : Completable n) {s : Bytes} {fault : Fault} (mendable : fault.Mendable)

include ih mendable

theorem sequence_completable {top : Bool} {seen : List Expr}
    (failed : Source.sequence top seen (n + 1) s = .error fault) :
    ∃ (t : Sequence) (es : List Expr), t.meaning? = some es ∧ Completes s t.tokens := by
  simp only [Source.sequence] at failed
  split at failed
  · cases failed
  · split at failed
    · next separator =>
      obtain ⟨t, es, meaning, completes⟩ := ih.sequence failed mendable
      exact ⟨.skip t, es, meaning, .after_mark (by decide) separator completes⟩
    · split at failed
      · next found =>
        cases failed
        obtain ⟨t, e, meaning, completes⟩ := ih.expr found mendable
        refine ⟨.last t, [e], ?_, completes.of_skipSpace⟩
        rw [Sequence.meaning?, meaning]
        rfl
      · next e rest found =>
        obtain ⟨t, meaning, reads⟩ := (sound n).expr found
        have front := reads.of_skipSpace_eq (skipSpace_idem s).symm
        split at failed
        · cases failed
        · next notClose =>
          split at failed
          · next separator =>
            obtain ⟨t', es, meaning', completes⟩ := ih.sequence failed mendable
            refine ⟨.next t t', e :: es, ?_, .after front (.after_mark (by decide) separator completes)⟩
            rw [Sequence.meaning?, meaning, meaning']
            rfl
          · cases failed
            -- At the end of the source a sequence is closed, so something is left here.
            rw [mendable.ended] at notClose
            exact absurd rfl notClose

theorem expr_completable (failed : Source.expr (n + 1) s = .error fault) :
    ∃ (t : Expression) (e : Expr), t.meaning? = some e ∧ Completes s t.tokens := by
  simp only [Source.expr] at failed
  split at failed
  · next found =>
    cases failed
    obtain ⟨head, e, meaning, completes⟩ := ih.primary found mendable
    refine ⟨.plain (.mk head .none), e, ?_, ?_⟩
    · rw [Expression.meaning?, Postfix.meaning?, meaning]
      rfl
    · rw [Expression.tokens, Postfix.tokens, Suffixes.tokens, List.append_nil]
      exact completes
  · next front rest found =>
    obtain ⟨head, meaning, reads⟩ := (sound n).primary found
    split at failed
    · next found' =>
      cases failed
      obtain ⟨suffixes, e, meaning', completes⟩ := ih.suffixes found' mendable
      refine ⟨.plain (.mk head suffixes), e, ?_, .after reads completes⟩
      rw [Expression.meaning?, Postfix.meaning?, meaning]
      exact meaning'
    · next target rest' found' =>
      obtain ⟨suffixes, meaning', reads', blank⟩ := (sound n).suffixes found'
      split at failed
      · next equals =>
        split at failed
        · cases failed
          rw [mendable.ended] at equals
          cases equals
        · next assign assignable =>
          split at failed
          · next found'' =>
            cases failed
            obtain ⟨t, value, denotes, completes⟩ := ih.expr found'' mendable
            refine ⟨.assign (.mk head suffixes) t, assign value, ?_, ?_⟩
            · rw [Expression.meaning?, Postfix.meaning?, meaning, Option.bind_some, meaning', denotes]
              simp only [Option.bind_some, assignment?_eq, assignable, Option.map_some]
            · rw [← blank] at equals completes
              exact .after (reads.trans reads') (.after_mark (by decide) equals completes)
          · cases failed
      · cases failed

theorem suffixes_completable {front : Expr}
    (failed : Source.suffixes front (n + 1) s = .error fault) :
    ∃ (t : Suffixes) (e : Expr), t.meaning? front = some e ∧ Completes s t.tokens := by
  simp only [Source.suffixes] at failed
  split at failed
  · next isPoint =>
    split at failed
    · next found =>
      cases failed
      refine ⟨.member [0x78] .none, _, rfl, .after_mark (by decide) isPoint ?_⟩
      exact .name_of_end (name_mendable found mendable)
    · next member rest found =>
      obtain ⟨letters, whole, proper, ends, rfl⟩ := name_iff.mp found
      obtain ⟨t, e, meaning, completes⟩ := ih.suffixes failed mendable
      refine ⟨.member letters t, e, meaning, .after_mark (by decide) isPoint ?_⟩
      have reads : Reads (skipSpace s).tail [.name letters] rest := ⟨rest, whole, proper, ends, rfl⟩
      exact .after reads completes
  · split at failed
    · next isOpen =>
      split at failed
      · next found =>
        cases failed
        obtain ⟨arguments, es, ts, meaning, starts, completes⟩ := ih.tuple found mendable
        refine ⟨.call arguments .none, .call front (.list es), ?_, ?_⟩
        · rw [Suffixes.meaning?, meaning]
          rfl
        · rw [Suffixes.tokens, Suffixes.tokens, List.append_nil, starts]
          exact .after_mark (by decide) isOpen completes
      · next items rest found =>
        obtain ⟨arguments, ts, meaning, starts, reads⟩ := (sound n).tuple found
        obtain ⟨t, e, meaning', completes⟩ := ih.suffixes failed mendable
        refine ⟨.call arguments t, e, ?_, ?_⟩
        · rw [Suffixes.meaning?, meaning]
          exact meaning'
        · rw [Suffixes.tokens, starts]
          exact .after_mark (by decide) isOpen (.after reads completes)
    · cases failed

theorem block_completable (failed : Source.block (n + 1) s = .error fault) :
    ∃ (t : Sequence) (es : List Expr), t.meaning? = some es ∧
      Completes s (t.tokens ++ [.mark closeBrace]) := by
  simp only [Source.block] at failed
  split at failed
  · next found =>
    cases failed
    obtain ⟨t, es, meaning, completes⟩ := ih.sequence found mendable
    exact ⟨t, es, meaning, completes.before_mark (by decide) (by decide)⟩
  · next es rest found =>
    obtain ⟨t, others, meaning, -, reads, -⟩ := (sound n).sequence found
    split at failed
    · cases failed
    · cases failed
      refine ⟨t, others, meaning, .after reads (.mark_of_end ?_ (by decide) (by decide))⟩
      rw [mendable.ended]
      rfl

theorem items_completable {seen : List Expr}
    (failed : Source.items seen (n + 1) s = .error fault) :
    ∃ (t : Items) (es : List Expr), t.meaning? = some es ∧
      Completes s (t.tokens ++ [.mark closeParen]) := by
  simp only [Source.items] at failed
  split at failed
  · next found =>
    cases failed
    obtain ⟨t, e, meaning, completes⟩ := ih.expr found mendable
    refine ⟨.one t, [e], ?_, completes.before_mark (by decide) (by decide)⟩
    rw [Items.meaning?, meaning]
    rfl
  · next e rest found =>
    obtain ⟨t, meaning, reads⟩ := (sound n).expr found
    split at failed
    · next isComma =>
      obtain ⟨t', es, meaning', completes⟩ := ih.items failed mendable
      refine ⟨.more t t', e :: es, ?_, ?_⟩
      · rw [Items.meaning?, meaning, meaning']
        rfl
      · rw [Items.tokens, List.append_assoc]
        exact .after reads (.after_mark (by decide) isComma completes)
    · split at failed
      · cases failed
      · cases failed
        refine ⟨.one t, [e], ?_, .after reads (.mark_of_end mendable.ended (by decide) (by decide))⟩
        rw [Items.meaning?, meaning]
        rfl

theorem tuple_completable (failed : Source.tuple (n + 1) s = .error fault) :
    ∃ (t : Tuple) (es : List Expr) (ts : List Token), t.meaning? = some es ∧
      t.tokens = .mark openParen :: ts ∧ Completes s ts := by
  simp only [Source.tuple] at failed
  split at failed
  · cases failed
  · obtain ⟨t, es, meaning, completes⟩ := ih.items failed mendable
    exact ⟨.items t, es, _, meaning, by rw [Tuple.tokens], completes.of_skipSpace⟩

theorem primary_completable (failed : Source.primary (n + 1) s = .error fault) :
    ∃ (t : Primary) (e : Expr), t.meaning? = some e ∧ Completes s t.tokens := by
  simp only [Source.primary] at failed
  split at failed
  · next none => exact ⟨.name [0x78], _, rfl, .name_of_end none⟩
  · next b after start =>
    have opens {c : UInt8} {ts : List Token} (is : (b == c) = true) (isMark : c ∈ marks)
        (completes : Completes after ts) : Completes s (.mark c :: ts) := by
      have same : b = c := by simpa using is
      refine .after_mark isMark (by rw [start, same]; rfl) ?_
      rwa [start]
    split at failed
    · next isQuote =>
      split at failed
      · next found =>
        -- The text goes on over the line break, which becomes part of it.
        have absent : b ∉ after ++ [newline] := by
          have other : b ≠ newline := by
            rintro rfl
            cases isQuote
          simpa [other] using not_mem_of_quotedText_error found
        refine ⟨.text b (after ++ [newline]), _, rfl, [b], fun u => ?_⟩
        refine ⟨u, ?_, ⟨isQuote, absent⟩, trivial, rfl⟩
        rw [Live.skipSpace_append (.of_head (by rw [start]; rfl)), start]
        simp [Token.lexeme]
      · cases failed
    · split at failed
      · exact absurd mendable (number_not_mendable failed)
      · split at failed
        · next starts =>
          simp only [name, if_pos starts] at failed
          cases failed
        · split at failed
          · next isOpen =>
            split at failed
            · next found =>
              cases failed
              obtain ⟨t, es, meaning, completes⟩ := ih.block found mendable
              refine ⟨.box t, .box (Expr.ofList es), ?_, opens isOpen (by decide) completes⟩
              rw [Primary.meaning?, meaning]
              rfl
            · cases failed
          · split at failed
            · next isOpen =>
              split at failed
              · next found =>
                cases failed
                obtain ⟨t, es, ts, meaning, starts, completes⟩ := ih.tuple found mendable
                refine ⟨.list t, .list es, ?_, ?_⟩
                · rw [Primary.meaning?, meaning]
                  rfl
                · rw [Primary.tokens, starts]
                  exact opens isOpen (by decide) completes
              · next items rest found =>
                split at failed
                · next isBody =>
                  split at failed
                  · cases failed
                    have none : skipSpace rest = [] := List.isEmpty_iff.mp mendable.incomplete
                    rw [none] at isBody
                    cases isBody
                  · next params bare =>
                    split at failed
                    · next found' =>
                      cases failed
                      obtain ⟨t, ts, meaning, starts, reads⟩ := (sound n).tuple found
                      obtain ⟨t', es, meaning', completes⟩ := ih.block found' mendable
                      refine ⟨.method t t', .method params (Expr.ofList es), ?_, ?_⟩
                      · rw [Primary.meaning?, meaning, Option.bind_some, parameters_iff.mp bare,
                          meaning']
                        rfl
                      · rw [Primary.tokens, starts]
                        exact opens isOpen (by decide)
                          (.after reads (.after_mark (by decide) isBody completes))
                    · cases failed
                · cases failed
            · cases failed
              cases mendable.incomplete

end Completable

theorem completable (n : Nat) : Completable n := by
  induction n with
  | zero =>
    -- Without allowance there is no other fault than that.
    constructor <;> intros <;> rename_i failed mendable <;> cases failed <;>
      exact absurd rfl mendable.allowance
  | succ n ih =>
    exact ⟨fun failed mendable => sequence_completable ih mendable failed,
      fun failed mendable => expr_completable ih mendable failed,
      fun failed mendable => suffixes_completable ih mendable failed,
      fun failed mendable => primary_completable ih mendable failed,
      fun failed mendable => block_completable ih mendable failed,
      fun failed mendable => tuple_completable ih mendable failed,
      fun failed mendable => items_completable ih mendable failed⟩

/-! ## Whole sources -/

theorem parse_of_completes {s : Bytes} {t : Sequence} {es : List Expr} (meaning : t.meaning? = some es)
    (completes : Completes s t.tokens) : ∃ rest, parse (s ++ newline :: rest) = .ok es := by
  obtain ⟨c, completes⟩ := completes
  refine ⟨c, parse_of_derives ⟨t, spells_iff_reads.mpr ?_, meaning⟩⟩
  simpa using completes []

theorem parseFault_completable {s : Bytes} {fault : Fault} (failed : parseFault s = .error fault)
    (mendable : fault.Mendable) : ∃ rest es, parse (s ++ newline :: rest) = .ok es := by
  rcases parseFault_error failed with found | ⟨es, b, rest, -, rfl⟩
  · obtain ⟨t, es, meaning, completes⟩ := (completable _).sequence found mendable
    obtain ⟨rest, parsed⟩ := parse_of_completes meaning completes
    exact ⟨rest, es, parsed⟩
  · cases mendable.incomplete

/-- A number that ended with the source is not mended by another line. -/
theorem parseFault_newline {s : Bytes} {fault : Fault} (failed : parseFault s = .error fault)
    (number : fault.cause.ofNumber = true) (t : Bytes) :
    parseFault (s ++ newline :: t) = .error (fault.extend (newline :: t)) :=
  parseFault_append failed ⟨(parseFault_within failed).cause, .inr (.inr ⟨number, apart_newline t⟩)⟩

theorem append_ne {a b x : String} (apart : ¬ a.toList <+: b.toList) : a ++ x ≠ b := by
  rintro rfl
  exact apart (by simp)

theorem describe_ne (b : UInt8) : describe (some b) ≠ describe none :=
  append_ne (a := "'" ++ Quoted.character '\'' (Char.ofNat b.toNat)) (x := "'") (by simp [describe])

theorem Cause.eq_trailingUnderscore {cause : Cause}
    (same : cause.message = "trailing underscore in number") : cause = .trailingUnderscore := by
  cases cause with
  | trailingUnderscore => rfl
  | unclosedText | missingExpression | outOfFuel => exact absurd same (by decide)
  | _ => exact absurd same (append_ne (by simp))

theorem Cause.eq_numberWithoutDigit {cause : Cause}
    (same : cause.message = "expected digit to start number, got end of input") :
    cause = .numberWithoutDigit none := by
  cases cause with
  | numberWithoutDigit got =>
    cases got with
    | none => rfl
    | some b =>
      have found : "expected digit to start number, got " ++ describe (some b) =
          "expected digit to start number, got " ++ describe none := same
      exact absurd (String.append_right_inj _ |>.mp found) (describe_ne b)
  | unclosedText | trailingUnderscore | missingExpression | outOfFuel =>
    exact absurd same (by decide)
  | _ => exact absurd same (append_ne (by simp))

/-- Further lines can complete every statement that asks for them, except one
that ends in a sign or in an underscore of a number. -/
theorem incomplete_completed_iff (s : Bytes) (e : ParseError) (failed : parse s = .error e)
    (incomplete : e.incomplete = true) :
    Console.wantsMore s = true ∧
      ((∃ (t : Bytes) (es : List Expr), parse (s ++ newline :: t) = .ok es) ↔
        e.cause.message ≠ "expected digit to start number, got end of input" ∧
          e.cause.message ≠ "trailing underscore in number") := by
  refine ⟨by rw [Console.wantsMore, failed]; exact incomplete, ?_⟩
  obtain ⟨fault, found, rfl⟩ := parse_error failed
  constructor
  · rintro ⟨t, es, parsed⟩
    have other : fault.cause.ofNumber ≠ true := by
      intro number
      rw [parse_of_fault (parseFault_newline found number t)] at parsed
      cases parsed
    constructor
    · intro same
      exact other (congrArg Cause.ofNumber (Cause.eq_numberWithoutDigit same))
    · intro same
      exact other (congrArg Cause.ofNumber (Cause.eq_trailingUnderscore same))
  · rintro ⟨digit, underscore⟩
    refine parseFault_completable found ⟨incomplete, ?_, ?_, (parseFault_within found).cause⟩
    · intro same
      exact digit (congrArg Cause.message same)
    · intro same
      exact underscore (congrArg Cause.message same)

/-- The statement `{a=(` ends inside a list, an assignment and a box. -/
theorem incomplete_completed_nested :
    ∃ e, parse [0x7B, 0x61, 0x3D, 0x28] = .error e ∧
      ∃ t es, parse ([0x7B, 0x61, 0x3D, 0x28] ++ newline :: t) = .ok es :=
  ⟨_, rfl, (incomplete_completed_iff [0x7B, 0x61, 0x3D, 0x28] _ rfl rfl).2.mpr
    ⟨by decide, by decide⟩⟩

end BoxScript.Source
