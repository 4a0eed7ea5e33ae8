import BoxScript.Proofs.Source.Reading

/-!
# Where faults lie

A fault found while reading a source lies inside it: from its place to the end
there are at most as many bytes as there were to read. And it is a fault of the
source, since the allowance of four steps for each byte left is never used up:
every call is made either further on in the source or one level further down
in the grammar.
-/

set_option autoImplicit false

namespace BoxScript.Source

open Grammar

namespace Fault

variable (start s : Bytes) (cause : Cause)

@[simp] theorem cause_at : (Fault.at s cause).cause = cause := rfl

@[simp] theorem cause_since : (Fault.since start s cause).cause = cause := rfl

end Fault

/-- A fault of the source itself, at one of its last `size` bytes or its end. -/
structure Fault.Within (size : Nat) (fault : Fault) : Prop where
  cause : fault.cause ≠ .outOfFuel
  place : fault.remaining ≤ size

theorem Fault.Within.mono {size more : Nat} {fault : Fault} (within : fault.Within size)
    (le : size ≤ more) : fault.Within more :=
  ⟨within.cause, Nat.le_trans within.place le⟩

/-! ## Names, texts and numbers -/

theorem name_within {s : Bytes} {fault : Fault} (failed : name s = .error fault) :
    fault.Within s.length := by
  cases s with
  | nil =>
    cases failed
    exact ⟨by simp, Nat.le_refl _⟩
  | cons b s =>
    simp only [name] at failed
    split at failed
    · cases failed
    · cases failed
      exact ⟨by simp, Nat.le_refl _⟩

theorem quotedText_within {quote : UInt8} {s : Bytes} {fault : Fault}
    (failed : quotedText quote s = .error fault) : fault.Within (s.length + 1) := by
  simp only [quotedText] at failed
  split at failed
  · cases failed
  · cases failed
    exact ⟨by simp, Nat.le_refl _⟩

theorem numberEnd_within {seen s : Bytes} {last : UInt8} {fault : Fault}
    (failed : numberEnd seen last s = .error fault) : fault.Within (s.length + 1) := by
  simp only [numberEnd] at failed
  split at failed
  · cases failed
    exact ⟨by simp, Nat.le_refl _⟩
  · cases failed

theorem numberTail_within {seen s : Bytes} {last : UInt8} {fault : Fault}
    (failed : numberTail seen last s = .error fault) : fault.Within (s.length + 1) := by
  induction s generalizing seen last with
  | nil => exact numberEnd_within failed
  | cons b s ih =>
    have more {seen : Bytes} {last : UInt8} (failed : numberTail seen last s = .error fault) :
        fault.Within (s.length + 1 + 1) := (ih failed).mono (Nat.le_succ _)
    simp only [numberTail] at failed
    split at failed
    · exact more failed
    · split at failed
      · split at failed
        · exact more failed
        · cases failed
          exact ⟨by simp, Nat.le_succ _⟩
      · exact numberEnd_within failed

theorem unsignedNumber_within {s : Bytes} {fault : Fault}
    (failed : unsignedNumber s = .error fault) : fault.Within s.length := by
  cases s with
  | nil =>
    cases failed
    exact ⟨by simp, Nat.le_refl _⟩
  | cons b s =>
    simp only [unsignedNumber] at failed
    split at failed
    · exact numberTail_within failed
    · cases failed
      exact ⟨by simp, Nat.le_refl _⟩

theorem numberLexeme_within {s : Bytes} {fault : Fault}
    (failed : numberLexeme s = .error fault) : fault.Within s.length := by
  cases s with
  | nil => exact unsignedNumber_within failed
  | cons b s =>
    simp only [numberLexeme] at failed
    split at failed
    · split at failed
      · cases failed
      · next fault' found =>
        cases failed
        exact (unsignedNumber_within found).mono (Nat.le_succ _)
    · exact unsignedNumber_within failed

theorem number_within {s : Bytes} {fault : Fault} (failed : number s = .error fault) :
    fault.Within s.length := by
  simp only [number] at failed
  split at failed
  · next found =>
    cases failed
    exact numberLexeme_within found
  · split at failed
    · cases failed
    · cases failed
      exact ⟨by simp, Nat.le_refl _⟩

/-! ## The reading functions -/

theorem expr_room {n : Nat} {s rest : Bytes} {e : Expr} (read : expr n s = .ok (e, rest)) :
    room rest + 1 ≤ room s := by
  obtain ⟨t, -, reads⟩ := (sound n).expr read
  obtain ⟨first, ts, starts, -⟩ := t.tokens_start
  have less := reads.room
  rw [starts, List.length_cons] at less
  omega

theorem primary_room {n : Nat} {s rest : Bytes} {e : Expr} (read : primary n s = .ok (e, rest)) :
    room rest + 1 ≤ room s := by
  obtain ⟨t, -, reads⟩ := (sound n).primary read
  obtain ⟨first, ts, starts, -⟩ := t.tokens_start
  have less := reads.room
  rw [starts, List.length_cons] at less
  omega

theorem tuple_room {n : Nat} {s rest : Bytes} {es : List Expr} (read : tuple n s = .ok (es, rest)) :
    room rest ≤ room s := by
  obtain ⟨-, ts, -, -, reads⟩ := (sound n).tuple read
  have less := reads.room
  omega

theorem name_room {s rest : Bytes} {found : String} (read : name s = .ok (found, rest)) :
    room rest ≤ s.length := by
  obtain ⟨letters, rfl, -⟩ := name_iff.mp read
  have := room_le_length rest
  rw [List.length_append]
  omega

theorem room_skipSpace (s : Bytes) : room (skipSpace s) = room s := room_congr (skipSpace_idem s)

theorem length_skipSpace (s : Bytes) : (skipSpace s).length = room s := rfl

/-- What is left behind the next mark. -/
theorem room_tail {s : Bytes} {b : UInt8} (head : (skipSpace s).head? = some b) :
    room (skipSpace s).tail + 1 ≤ room s :=
  room_cons (eq_cons_of_head head)

/-- The faults of the reading functions, given an allowance of `n`. -/
structure Placed (n : Nat) : Prop where
  sequence : ∀ {top : Bool} {seen : List Expr} {s : Bytes} {fault : Fault},
    4 * room s + 3 ≤ n → Source.sequence top seen n s = .error fault → fault.Within (room s)
  expr : ∀ {s : Bytes} {fault : Fault}, 4 * room s + 2 ≤ n → Source.expr n s = .error fault →
    fault.Within (room s)
  suffixes : ∀ {front : Expr} {s : Bytes} {fault : Fault}, 4 * room s + 1 ≤ n →
    Source.suffixes front n s = .error fault → fault.Within (room s)
  primary : ∀ {s : Bytes} {fault : Fault}, 4 * room s + 1 ≤ n →
    Source.primary n s = .error fault → fault.Within (room s)
  block : ∀ {s : Bytes} {fault : Fault}, 4 * room s + 4 ≤ n → Source.block n s = .error fault →
    fault.Within (room s)
  tuple : ∀ {s : Bytes} {fault : Fault}, 4 * room s + 4 ≤ n → Source.tuple n s = .error fault →
    fault.Within (room s)
  items : ∀ {seen : List Expr} {s : Bytes} {fault : Fault}, 4 * room s + 3 ≤ n →
    Source.items seen n s = .error fault → fault.Within (room s)

section Placed

variable {n : Nat} (ih : Placed n) {s : Bytes} {fault : Fault}

include ih

theorem sequence_placed {top : Bool} {seen : List Expr} (enough : 4 * room s + 3 ≤ n + 1)
    (failed : Source.sequence top seen (n + 1) s = .error fault) : fault.Within (room s) := by
  simp only [Source.sequence] at failed
  split at failed
  · cases failed
  · split at failed
    · next separator =>
      have less := room_tail separator
      exact (ih.sequence (by omega) failed).mono (by omega)
    · have same := room_skipSpace s
      split at failed
      · next found =>
        cases failed
        exact (ih.expr (by omega) found).mono (Nat.le_of_eq same)
      · next e rest found =>
        have less := expr_room found
        split at failed
        · cases failed
        · split at failed
          · next separator =>
            have less' := room_tail separator
            exact (ih.sequence (by omega) failed).mono (by omega)
          · cases failed
            exact ⟨by simp, show room rest ≤ _ by omega⟩

theorem expr_placed (enough : 4 * room s + 2 ≤ n + 1)
    (failed : Source.expr (n + 1) s = .error fault) : fault.Within (room s) := by
  simp only [Source.expr] at failed
  split at failed
  · next found =>
    cases failed
    exact ih.primary (by omega) found
  · next front rest found =>
    have less := primary_room found
    split at failed
    · next found' =>
      cases failed
      exact (ih.suffixes (by omega) found').mono (by omega)
    · next e rest' found' =>
      obtain ⟨t, -, reads, blank⟩ := (sound n).suffixes found'
      have less' := reads.room
      split at failed
      · next equals =>
        rw [← blank] at equals
        have less'' := room_tail equals
        rw [blank] at less''
        split at failed
        · cases failed
          have size : rest'.length = room rest' := by rw [← length_skipSpace, blank]
          exact ⟨by simp, show rest'.length ≤ _ by omega⟩
        · split at failed
          · next found'' =>
            cases failed
            exact (ih.expr (by omega) found'').mono (by omega)
          · cases failed
      · cases failed

theorem suffixes_placed {front : Expr} (enough : 4 * room s + 1 ≤ n + 1)
    (failed : Source.suffixes front (n + 1) s = .error fault) : fault.Within (room s) := by
  simp only [Source.suffixes] at failed
  split at failed
  · next isPoint =>
    have less := room_tail isPoint
    split at failed
    · next found =>
      cases failed
      exact (name_within found).mono (by rw [length_skipSpace]; omega)
    · next member rest found =>
      have less' := name_room found
      rw [length_skipSpace] at less'
      exact (ih.suffixes (by omega) failed).mono (by omega)
  · split at failed
    · next isOpen =>
      have less := room_tail isOpen
      split at failed
      · next found =>
        cases failed
        exact (ih.tuple (by omega) found).mono (by omega)
      · next items rest found =>
        have less' := tuple_room found
        exact (ih.suffixes (by omega) failed).mono (by omega)
    · cases failed

theorem block_placed (enough : 4 * room s + 4 ≤ n + 1)
    (failed : Source.block (n + 1) s = .error fault) : fault.Within (room s) := by
  simp only [Source.block] at failed
  split at failed
  · next found =>
    cases failed
    exact ih.sequence (by omega) found
  · next es rest found =>
    obtain ⟨-, -, -, -, -, close⟩ := (sound n).sequence found
    split at failed
    · cases failed
    · next notBrace =>
      cases failed
      cases rest with
      | nil => exact ⟨by simp, Nat.zero_le _⟩
      | cons b rest =>
        -- Inside braces a sequence that ends before the end of the source ends at a brace.
        have isBrace : b = closeBrace := by simpa [atClose] using close
        exact absurd (by rw [isBrace]; rfl) notBrace

theorem tuple_placed (enough : 4 * room s + 4 ≤ n + 1)
    (failed : Source.tuple (n + 1) s = .error fault) : fault.Within (room s) := by
  have same := room_skipSpace s
  simp only [Source.tuple] at failed
  split at failed
  · cases failed
  · exact (ih.items (by omega) failed).mono (Nat.le_of_eq same)

theorem items_placed {seen : List Expr} (enough : 4 * room s + 3 ≤ n + 1)
    (failed : Source.items seen (n + 1) s = .error fault) : fault.Within (room s) := by
  simp only [Source.items] at failed
  split at failed
  · next found =>
    cases failed
    exact ih.expr (by omega) found
  · next e rest found =>
    have less := expr_room found
    split at failed
    · next isComma =>
      have less' := room_tail isComma
      exact (ih.items (by omega) failed).mono (by omega)
    · split at failed
      · cases failed
      · cases failed
        exact ⟨by simp, show room rest ≤ _ by omega⟩

theorem primary_placed (enough : 4 * room s + 1 ≤ n + 1)
    (failed : Source.primary (n + 1) s = .error fault) : fault.Within (room s) := by
  simp only [Source.primary] at failed
  split at failed
  · cases failed
    exact ⟨by simp, Nat.zero_le _⟩
  · next b after start =>
    have size : room s = after.length + 1 := congrArg List.length start
    have less := room_cons start
    split at failed
    · split at failed
      · next found =>
        cases failed
        exact (quotedText_within found).mono (Nat.le_of_eq size.symm)
      · cases failed
    · split at failed
      · exact (number_within failed).mono (Nat.le_of_eq size.symm)
      · split at failed
        · split at failed
          · next found =>
            cases failed
            exact (name_within found).mono (Nat.le_of_eq size.symm)
          · cases failed
        · split at failed
          · split at failed
            · next found =>
              cases failed
              exact (ih.block (by omega) found).mono (by omega)
            · cases failed
          · split at failed
            · split at failed
              · next found =>
                cases failed
                exact (ih.tuple (by omega) found).mono (by omega)
              · next items rest found =>
                have less' := tuple_room found
                split at failed
                · next isBody =>
                  have less'' := room_tail isBody
                  split at failed
                  · cases failed
                    exact ⟨by simp, Nat.le_of_eq size.symm⟩
                  · split at failed
                    · next found' =>
                      cases failed
                      exact (ih.block (by omega) found').mono (by omega)
                    · cases failed
                · cases failed
            · cases failed
              exact ⟨by simp, Nat.le_of_eq size.symm⟩

end Placed

theorem placed (n : Nat) : Placed n := by
  induction n with
  | zero => constructor <;> intros <;> omega
  | succ n ih =>
    exact ⟨sequence_placed ih, expr_placed ih, suffixes_placed ih, primary_placed ih,
      block_placed ih, tuple_placed ih, items_placed ih⟩

/-! ## Whole sources -/

theorem room_le_allowance (s : Bytes) : 4 * room s + 3 ≤ allowance s := by
  have := room_le_length s
  rw [allowance]
  omega

/-- The first fault of a source is found while its top-level sequence is read,
or is a closing bracket behind it. -/
theorem parseFault_error {s : Bytes} {fault : Fault} (failed : parseFault s = .error fault) :
    sequence true [] (allowance s) s = .error fault ∨
      ∃ es b rest, sequence true [] (allowance s) s = .ok (es, b :: rest) ∧
        fault = .at (b :: rest) (.unexpected (some b)) := by
  simp only [parseFault] at failed
  split at failed
  · next found =>
    cases failed
    exact .inl found
  · cases failed
  · next es b rest found =>
    cases failed
    exact .inr ⟨es, b, rest, found, rfl⟩

theorem parseFault_within {s : Bytes} {fault : Fault} (failed : parseFault s = .error fault) :
    fault.Within s.length := by
  have short := room_le_length s
  rcases parseFault_error failed with found | ⟨es, b, rest, found, rfl⟩
  · exact ((placed _).sequence (room_le_allowance s) found).mono short
  · obtain ⟨t, -, -, -, reads, close⟩ := (sound _).sequence found
    have less := reads.room
    have solid : room (b :: rest) = (b :: rest).length := by
      rw [atClose, Bool.or_eq_true, Bool.and_eq_true, beq_iff_eq, beq_iff_eq] at close
      rw [← length_skipSpace, skipSpace_eq_self]
      rcases close with rfl | ⟨-, rfl⟩ <;> decide
    exact ⟨by simp, show (b :: rest).length ≤ _ by omega⟩

theorem parse_of_fault {s : Bytes} {fault : Fault} (failed : parseFault s = .error fault) :
    parse s = .error (fault.locate s) := by
  rw [parse, failed]

theorem parse_error {s : Bytes} {e : ParseError} (failed : parse s = .error e) :
    ∃ fault, parseFault s = .error fault ∧ e = fault.locate s := by
  simp only [parse] at failed
  split at failed
  · cases failed
  · next fault found =>
    cases failed
    exact ⟨fault, found, rfl⟩

end BoxScript.Source
