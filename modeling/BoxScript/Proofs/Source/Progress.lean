import Mathlib.Data.List.Induction
import BoxScript.Proofs.Source.Faults
import BoxScript.Proofs.Source.Following

/-!
# The cursor goes on

Each reading function that succeeds leaves less of the source than it was given,
sequences and suffixes apart, which may be empty. With that, careful reading
follows the reader through all its functions, by induction on the allowance, and
the calls and turns that it records have taken the cursor on.

An offset of a source has a line and a column of its own, since every byte takes
the place behind it to a later line or to a later column of the same line.
-/

set_option autoImplicit false

namespace BoxScript.Source

/-! ## What a call consumes -/

theorem length_tail_lt {s : Bytes} {b : UInt8} (head : (skipSpace s).head? = some b) :
    (skipSpace s).tail.length < s.length := by
  have start := congrArg List.length (eq_cons_of_head head)
  have := room_le_length s
  rw [length_skipSpace, List.length_cons] at start
  omega

theorem name_consumes {s rest : Bytes} {found : String} (read : name s = .ok (found, rest)) :
    rest.length < s.length := by
  obtain ⟨letters, rfl, proper, -⟩ := name_iff.mp read
  cases letters with
  | nil => cases proper
  | cons b letters =>
    rw [List.cons_append, List.length_cons, List.length_append]
    omega

theorem number_consumes {s rest : Bytes} {e : Expr} (read : number s = .ok (e, rest)) :
    rest.length < s.length := by
  simp only [number] at read
  split at read
  · cases read
  · next literal after found =>
    obtain ⟨rfl, proper, -⟩ := numberLexeme_iff.mp found
    obtain ⟨b, others, rfl, -⟩ := proper.bytes
    split at read
    · cases read
      rw [List.cons_append, List.length_cons, List.length_append]
      omega
    · cases read

/-- How much of their source the reading functions leave, given an allowance of `n`. -/
structure Consumes (n : Nat) : Prop where
  sequence : ∀ {top : Bool} {seen es : List Expr} {s rest : Bytes},
    Source.sequence top seen n s = .ok (es, rest) → rest.length ≤ s.length
  expr : ∀ {e : Expr} {s rest : Bytes}, Source.expr n s = .ok (e, rest) → rest.length < s.length
  suffixes : ∀ {front e : Expr} {s rest : Bytes}, Source.suffixes front n s = .ok (e, rest) →
    rest.length ≤ s.length
  primary : ∀ {e : Expr} {s rest : Bytes}, Source.primary n s = .ok (e, rest) →
    rest.length < s.length
  block : ∀ {body : Option Expr} {s rest : Bytes}, Source.block n s = .ok (body, rest) →
    rest.length < s.length
  tuple : ∀ {es : List Expr} {s rest : Bytes}, Source.tuple n s = .ok (es, rest) →
    rest.length < s.length
  items : ∀ {seen es : List Expr} {s rest : Bytes}, Source.items seen n s = .ok (es, rest) →
    rest.length < s.length

section Consumes

variable {n : Nat} (ih : Consumes n) {s rest : Bytes}

include ih

theorem sequence_consumes {top : Bool} {seen es : List Expr}
    (read : Source.sequence top seen (n + 1) s = .ok (es, rest)) : rest.length ≤ s.length := by
  have short := room_le_length s
  simp only [Source.sequence] at read
  split at read
  · cases read
    exact short
  · split at read
    · next separator =>
      have less := length_tail_lt separator
      have := ih.sequence read
      omega
    · split at read
      · cases read
      · next e after found =>
        have less := ih.expr found
        have short' := room_le_length after
        rw [length_skipSpace] at less
        split at read
        · cases read
          rw [length_skipSpace]
          omega
        · split at read
          · next separator =>
            have less' := length_tail_lt separator
            have := ih.sequence read
            omega
          · cases read

theorem expr_consumes {e : Expr} (read : Source.expr (n + 1) s = .ok (e, rest)) :
    rest.length < s.length := by
  simp only [Source.expr] at read
  split at read
  · cases read
  · next front after found =>
    have less := ih.primary found
    split at read
    · cases read
    · next e after' found' =>
      have le := ih.suffixes found'
      split at read
      · split at read
        · cases read
        · split at read
          · cases read
          · next found'' =>
            cases read
            have less' := ih.expr found''
            rw [List.length_tail] at less'
            omega
      · cases read
        omega

theorem suffixes_consumes {front e : Expr}
    (read : Source.suffixes front (n + 1) s = .ok (e, rest)) : rest.length ≤ s.length := by
  simp only [Source.suffixes] at read
  split at read
  · next isPoint =>
    have less := length_tail_lt isPoint
    split at read
    · cases read
    · next found =>
      have less' := name_consumes found
      have short := room_le_length (skipSpace s).tail
      have := ih.suffixes read
      rw [length_skipSpace] at less'
      omega
  · split at read
    · next isOpen =>
      have less := length_tail_lt isOpen
      split at read
      · cases read
      · next found =>
        have less' := ih.tuple found
        have := ih.suffixes read
        omega
    · cases read
      exact room_le_length s

theorem block_consumes {body : Option Expr} (read : Source.block (n + 1) s = .ok (body, rest)) :
    rest.length < s.length := by
  simp only [Source.block] at read
  split at read
  · cases read
  · next after found =>
    have le := ih.sequence found
    split at read
    · next isClose =>
      cases read
      rw [eq_cons_of_head isClose, List.length_cons] at le
      omega
    · cases read

theorem items_consumes {seen es : List Expr}
    (read : Source.items seen (n + 1) s = .ok (es, rest)) : rest.length < s.length := by
  simp only [Source.items] at read
  split at read
  · cases read
  · next found =>
    have less := ih.expr found
    split at read
    · next isComma =>
      have less' := length_tail_lt isComma
      have := ih.items read
      omega
    · split at read
      · next isClose =>
        cases read
        have less' := length_tail_lt isClose
        omega
      · cases read

theorem tuple_consumes {es : List Expr} (read : Source.tuple (n + 1) s = .ok (es, rest)) :
    rest.length < s.length := by
  simp only [Source.tuple] at read
  split at read
  · next isClose =>
    cases read
    exact length_tail_lt isClose
  · exact Nat.lt_of_lt_of_le (ih.items read) (room_le_length s)

theorem primary_consumes {e : Expr} (read : Source.primary (n + 1) s = .ok (e, rest)) :
    rest.length < s.length := by
  have short := room_le_length s
  simp only [Source.primary] at read
  split at read
  · cases read
  · next b after start =>
    rw [← length_skipSpace, start] at short
    -- Every branch leaves less than the first byte and what is behind it.
    refine Nat.lt_of_lt_of_le ?_ short
    rw [List.length_cons]
    split at read
    · split at read
      · cases read
      · next contents after' found =>
        cases read
        obtain ⟨rfl, -⟩ := quotedText_iff.mp found
        simp only [List.length_append, List.length_cons]
        omega
    · split at read
      · exact number_consumes read
      · split at read
        · split at read
          · cases read
          · next found =>
            cases read
            exact name_consumes found
        · split at read
          · split at read
            · cases read
            · next found =>
              cases read
              exact Nat.lt_succ_of_lt (ih.block found)
          · split at read
            · split at read
              · cases read
              · next items after' found =>
                have less := ih.tuple found
                have short' := room_le_length after'
                split at read
                · next isBody =>
                  have less' := length_tail_lt isBody
                  split at read
                  · cases read
                  · split at read
                    · cases read
                    · next found' =>
                      cases read
                      have := ih.block found'
                      omega
                · cases read
                  rw [length_skipSpace]
                  omega
            · cases read

end Consumes

theorem consumes (n : Nat) : Consumes n := by
  induction n with
  | zero => constructor <;> intros <;> contradiction
  | succ n ih =>
    exact ⟨sequence_consumes ih, expr_consumes ih, suffixes_consumes ih, primary_consumes ih,
      block_consumes ih, tuple_consumes ih, items_consumes ih⟩

/-! ## Careful reading follows the reader -/

namespace Careful

theorem follows_atClose {source s : Bytes} {top : Bool} :
    Follows source (atClose top) s (.ok (Source.atClose top s, s)) := by
  refine follows_eof.bind ?_
  cases s with
  | nil => exact .pure true
  | cons b s => exact follows_peek_cons.bind (.pure _)

/-- With an allowance of `n`, careful reading of the source follows the reader. -/
structure Followed (source : Bytes) (n : Nat) : Prop where
  sequence : ∀ {top : Bool} {seen : List Expr} {s : Bytes},
    Follows source (Careful.sequence top seen n) s (Source.sequence top seen n s)
  expr : ∀ {s : Bytes}, Follows source (Careful.expr n) s (Source.expr n s)
  suffixes : ∀ {e : Expr} {s : Bytes},
    Follows source (Careful.suffixes e n) s (Source.suffixes e n s)
  primary : ∀ {s : Bytes}, Follows source (Careful.primary n) s (Source.primary n s)
  block : ∀ {s : Bytes}, Follows source (Careful.block n) (openBrace :: s) (Source.block n s)
  tuple : ∀ {s : Bytes}, Follows source (Careful.tuple n) (openParen :: s) (Source.tuple n s)
  items : ∀ {seen : List Expr} {s : Bytes},
    Follows source (Careful.items seen n) s (Source.items seen n s)

theorem Followed.tuple_head {source s : Bytes} {n : Nat} (ih : Followed source n)
    (head : s.head? = some openParen) :
    Follows source (Careful.tuple n) s (Source.tuple n s.tail) := by
  have opened : Follows source (Careful.tuple n) (openParen :: s.tail) _ := ih.tuple
  rwa [← eq_cons_of_head head] at opened

theorem Followed.block_head {source s : Bytes} {n : Nat} (ih : Followed source n)
    (head : s.head? = some openBrace) :
    Follows source (Careful.block n) s (Source.block n s.tail) := by
  have opened : Follows source (Careful.block n) (openBrace :: s.tail) _ := ih.block
  rwa [← eq_cons_of_head head] at opened

section Followed

variable {source s : Bytes} {n : Nat} (ih : Followed source n)

include ih

theorem sequence_followed {top : Bool} {seen : List Expr} :
    Follows source (Careful.sequence top seen (n + 1)) s (Source.sequence top seen (n + 1) s) := by
  refine .of_inside fun inside => ?_
  rw [Careful.sequence, Source.sequence]
  refine follows_cursor.bind (follows_skipSpace.bind (follows_atClose.bind ?_))
  refine .ite Iff.rfl (fun _ => .pure _) fun _ => follows_peek.bind ?_
  refine .ite (headD_eq_iff (by decide)) (fun separator => ?_) fun _ => ?_
  · refine (follows_advance_head separator).bind ?_
    exact (follows_turn inside (length_tail_lt separator)).bind ih.sequence
  · refine ih.expr.bind_cases (fun fault read => by rw [read]) fun e rest read => ?_
    have less := (consumes n).expr read
    have short := room_le_length s
    rw [length_skipSpace] at less
    rw [read]
    refine follows_skipSpace.bind (follows_atClose.bind ?_)
    refine .ite Iff.rfl (fun _ => .pure _) fun _ => follows_peek.bind ?_
    refine .ite (headD_eq_iff (by decide)) (fun separator => ?_) fun _ => ?_
    · have less' := length_tail_lt separator
      refine (follows_advance_head separator).bind ?_
      exact (follows_turn inside (by omega)).bind ih.sequence
    · exact follows_found.bind (follows_fail _)

/-- A primary with its suffixes, as the reader of expressions reads it. -/
theorem suffixed_followed {e : Expr} {rest : Bytes} (read : Source.primary n s = .ok (e, rest)) :
    Follows source (call .suffixed do
      let head ← Careful.primary n
      Careful.suffixes head n) s (Source.suffixes e n rest) := by
  have head : Follows source (Careful.primary n) s (.ok (e, rest)) := read ▸ ih.primary
  refine (head.bind ih.suffixes).call fun e' rest' read' => ?_
  exact Nat.lt_of_le_of_lt ((consumes n).suffixes read') ((consumes n).primary read)

theorem expr_followed :
    Follows source (Careful.expr (n + 1)) s (Source.expr (n + 1) s) := by
  rw [Careful.expr]
  refine Follows.call ?_ fun e rest => (consumes (n + 1)).expr
  rw [Source.expr]
  cases read : Source.primary n s with
  | error fault =>
    have head : Follows source (Careful.primary n) s (.error fault) := read ▸ ih.primary
    refine (Follows.call head.bind_error fun e rest done => ?_).bind_error
    cases done
  | ok found =>
    refine (suffixed_followed ih read).bind_cases (fun fault read' => by simp only [read'])
      fun e rest read' => ?_
    -- The suffixes end in front of a byte that is no blank.
    obtain ⟨-, -, -, solid⟩ := (sound n).suffixes read'
    have still : Follows source skipSpace rest (.ok ((), rest)) := by
      have skipped : Follows source skipSpace rest _ := follows_skipSpace
      rwa [solid] at skipped
    simp only [read']
    refine still.bind (follows_peek.bind ?_)
    refine .ite (headD_eq_iff (by decide)) (fun equals => ?_) fun _ => .pure _
    cases assignTo? e with
    | none => exact follows_fail _
    | some assign =>
      refine (follows_advance_head equals).bind ?_
      refine ih.expr.bind_cases (fun fault read'' => by simp only [read''])
        fun value rest' read'' => ?_
      simp only [read'']
      exact .pure _

theorem suffixes_followed {e : Expr} :
    Follows source (Careful.suffixes e (n + 1)) s (Source.suffixes e (n + 1) s) := by
  refine .of_inside fun inside => ?_
  rw [Careful.suffixes, Source.suffixes]
  refine follows_cursor.bind (follows_skipSpace.bind (follows_peek.bind ?_))
  refine .ite (headD_eq_iff (by decide)) (fun isPoint => ?_) fun _ => ?_
  · refine (follows_advance_head isPoint).bind (follows_skipSpace.bind ?_)
    refine follows_name.bind_cases (fun fault read => by rw [read]) fun letters rest read => ?_
    have less := length_tail_lt isPoint
    have less' := name_consumes read
    have short := room_le_length (Source.skipSpace s).tail
    rw [length_skipSpace] at less'
    rw [read]
    exact (follows_turn inside (by omega)).bind ih.suffixes
  · refine .ite (headD_eq_iff (by decide)) (fun isOpen => ?_) fun _ => .pure _
    refine (ih.tuple_head isOpen).bind_cases (fun fault read => by rw [read])
      fun items rest read => ?_
    have less := length_tail_lt isOpen
    have less' := (consumes n).tuple read
    rw [read]
    exact (follows_turn inside (by omega)).bind ih.suffixes

theorem items_followed {seen : List Expr} :
    Follows source (Careful.items seen (n + 1)) s (Source.items seen (n + 1) s) := by
  refine .of_inside fun inside => ?_
  rw [Careful.items, Source.items]
  refine follows_cursor.bind ?_
  refine ih.expr.bind_cases (fun fault read => by rw [read]) fun e rest read => ?_
  have less := (consumes n).expr read
  rw [read]
  refine follows_skipSpace.bind (follows_peek.bind ?_)
  refine .ite (headD_eq_iff (by decide)) (fun isComma => ?_) fun _ => ?_
  · have less' := length_tail_lt isComma
    refine (follows_advance_head isComma).bind ?_
    exact (follows_turn inside (by omega)).bind ih.items
  · refine .ite (headD_eq_iff (by decide)) (fun isClose => ?_) fun _ => ?_
    · exact (follows_advance_head isClose).bind (.pure _)
    · exact follows_found.bind (follows_fail _)

theorem tuple_followed :
    Follows source (Careful.tuple (n + 1)) (openParen :: s) (Source.tuple (n + 1) s) := by
  rw [Careful.tuple]
  refine Follows.call ?_ fun es rest read => Nat.lt_succ_of_lt ((consumes (n + 1)).tuple read)
  rw [Source.tuple]
  have still : Follows source skipSpace (openParen :: s) (.ok ((), openParen :: s)) :=
    follows_skipSpace
  refine still.bind (follows_peek_cons.bind ?_)
  rw [if_pos rfl]
  refine follows_advance.bind (follows_skipSpace.bind (follows_peek.bind ?_))
  refine .ite (headD_eq_iff (by decide)) (fun isClose => ?_) fun _ => ih.items
  exact (follows_advance_head isClose).bind (.pure _)

theorem block_followed :
    Follows source (Careful.block (n + 1)) (openBrace :: s) (Source.block (n + 1) s) := by
  rw [Careful.block]
  refine Follows.call ?_ fun body rest read => Nat.lt_succ_of_lt ((consumes (n + 1)).block read)
  rw [Source.block]
  have still : Follows source skipSpace (openBrace :: s) (.ok ((), openBrace :: s)) :=
    follows_skipSpace
  refine still.bind (follows_peek_cons.bind ?_)
  rw [if_pos rfl]
  refine follows_advance.bind ?_
  refine ih.sequence.bind_cases (fun fault read => by rw [read]) fun es rest read => ?_
  rw [read]
  refine follows_peek.bind ?_
  refine .ite (headD_eq_iff (by decide)) (fun isClose => ?_) fun _ => ?_
  · exact (follows_advance_head isClose).bind (.pure _)
  · exact follows_found.bind (follows_fail _)

theorem primary_followed :
    Follows source (Careful.primary (n + 1)) s (Source.primary (n + 1) s) := by
  rw [Careful.primary]
  refine Follows.call ?_ fun e rest => (consumes (n + 1)).primary
  rw [Source.primary]
  refine follows_skipSpace.bind ?_
  cases start : Source.skipSpace s with
  | nil => exact follows_peek_nil.bind (follows_eof.bind (follows_fail _))
  | cons b rest =>
    refine .of_inside fun inside => follows_peek_cons.bind (follows_eof.bind ?_)
    rw [if_neg (by simp)]
    refine .ite Iff.rfl (fun isQuote => ?_) fun _ => ?_
    · refine (follows_quotedText isQuote).bind_cases (fun fault read => by rw [read])
        fun contents rest' read => ?_
      rw [read]
      exact .pure _
    refine .ite Iff.rfl (fun _ => follows_number) fun _ => ?_
    refine .ite Iff.rfl (fun _ => ?_) fun _ => ?_
    · refine follows_name.bind_cases (fun fault read => by rw [read]) fun found rest' read => ?_
      rw [read]
      exact .pure _
    refine .ite Iff.rfl (fun isOpen => ?_) fun _ => ?_
    · obtain rfl : b = openBrace := by simpa using isOpen
      refine ih.block.bind_cases (fun fault read => by rw [read]) fun body rest' read => ?_
      rw [read]
      exact .pure _
    refine .ite Iff.rfl (fun isOpen => ?_) fun _ => ?_
    · obtain rfl : b = openParen := by simpa using isOpen
      refine follows_cursor.bind ?_
      refine ih.tuple.bind_cases (fun fault read => by rw [read]) fun items rest' read => ?_
      rw [read]
      refine follows_skipSpace.bind (follows_peek.bind ?_)
      refine .ite (headD_eq_iff (by decide)) (fun isBody => ?_) fun _ => .pure _
      cases parameters items with
      | error e => exact follows_failAt inside _
      | ok params =>
        refine (ih.block_head isBody).bind_cases (fun fault read' => by simp only [read'])
          fun body rest'' read' => ?_
        simp only [read']
        exact .pure _
    · exact follows_found.bind (follows_fail _)

end Followed

theorem followed (source : Bytes) (n : Nat) : Followed source n := by
  induction n with
  | zero => constructor <;> intros <;> exact fun _ _ => .spent rfl
  | succ n ih =>
    exact ⟨sequence_followed ih, expr_followed ih, suffixes_followed ih, primary_followed ih,
      block_followed ih, tuple_followed ih, items_followed ih⟩

theorem follows_program (source : Bytes) :
    Follows source (program (allowance source)) source ((parseFault source).map (·, [])) := by
  rw [program, parseFault]
  refine (followed source (allowance source)).sequence.bind_cases
    (fun fault read => by rw [read]; rfl) fun es rest read => ?_
  rw [read]
  refine follows_eof.bind ?_
  cases rest with
  | nil => exact .pure es
  | cons b rest => exact follows_found.bind (follows_fail _)

theorem parse_gives (source : Bytes) :
    Gives source (Careful.parse source) ((parseFault source).map (·, [])) :=
  follows_program source [] ⟨List.suffix_refl source, (Int.sub_self _).symm, nofun⟩

end Careful

/-! ## Lines and columns -/

/-- The place behind a byte. Lines and columns count from 1. -/
def nextPlace (place : Nat × Nat) (b : UInt8) : Nat × Nat :=
  if b = newline then (place.1 + 1, 1) else (place.1, place.2 + 1)

/-- The line and column at an offset of a source. -/
def placeAt (source : Bytes) (offset : Nat) : Nat × Nat :=
  (source.take offset).foldl nextPlace (1, 1)

theorem foldl_nextPlace (before : Bytes) : before.foldl nextPlace (1, 1) =
    (before.count newline + 1, (before.reverse.takeWhile (· != newline)).length + 1) := by
  induction before using List.reverseRecOn with
  | nil => rfl
  | append_singleton before b ih =>
    rw [List.foldl_append, ih, List.foldl_cons, List.foldl_nil, nextPlace, List.reverse_append,
      List.count_append]
    by_cases isNewline : b = newline
    · simp [isNewline]
    · simp [isNewline]

theorem Fault.placeAt_locate (source : Bytes) (fault : Fault) :
    placeAt source (fault.locate source).offset =
      ((fault.locate source).line, (fault.locate source).column) :=
  foldl_nextPlace _

/-- Bytes take a place on to a later line, or as many columns further on its own. -/
theorem foldl_nextPlace_after (place : Nat × Nat) (more : Bytes) :
    place.1 ≤ (more.foldl nextPlace place).1 ∧
      ((more.foldl nextPlace place).1 = place.1 →
        (more.foldl nextPlace place).2 = place.2 + more.length) := by
  induction more generalizing place with
  | nil => exact ⟨Nat.le_refl _, fun _ => rfl⟩
  | cons b more ih =>
    obtain ⟨later, further⟩ := ih (nextPlace place b)
    rw [List.foldl_cons, List.length_cons]
    by_cases isNewline : b = newline
    · simp only [nextPlace, if_pos isNewline] at later further ⊢
      exact ⟨by omega, by omega⟩
    · simp only [nextPlace, if_neg isNewline] at later further ⊢
      exact ⟨later, fun same => by rw [further same]; omega⟩

theorem placeAt_inj {source : Bytes} {i j : Nat} (le : i ≤ j) (inside : j ≤ source.length)
    (same : placeAt source i = placeAt source j) : i = j := by
  have split : source.take j = source.take i ++ (source.drop i).take (j - i) := by
    rw [← List.take_add, Nat.add_sub_cancel' le]
  have size : ((source.drop i).take (j - i)).length = j - i := by
    rw [List.length_take, List.length_drop]
    omega
  obtain ⟨-, further⟩ := foldl_nextPlace_after (placeAt source i) ((source.drop i).take (j - i))
  have reached : ((source.drop i).take (j - i)).foldl nextPlace (placeAt source i) =
      placeAt source j := by
    rw [placeAt, placeAt, split, List.foldl_append]
  rw [reached, ← same, size] at further
  have := further rfl
  omega

/-! ## Whole sources -/

/-- Careful reading ends as reading does, somewhere in the source. -/
theorem parse_stands (source : Bytes) : ∃ rest,
    (Careful.parse source).1 = (parse source).mapError .fault ∧
    Careful.Stands source rest (Careful.parse source).2 ∧
    ∀ e, parse source = .error e → e.incomplete = true → rest = [] := by
  have given := Careful.parse_gives source
  generalize Careful.parse source = outcome at given ⊢
  cases read : parseFault source with
  | ok es =>
    rw [read] at given
    rw [parse, read]
    cases given with
    | ok stands =>
      refine ⟨[], rfl, stands, ?_⟩
      intro e failed
      cases failed
  | error fault =>
    rw [read] at given
    rw [parse_of_fault read]
    cases given with
    | @fault _ rest _ stands ended =>
      refine ⟨rest, rfl, stands, ?_⟩
      rintro e ⟨⟩
      exact ended
    | spent spent => exact absurd spent (parseFault_within read).cause

/-- Reading with a cursor gives what reading gives: no byte or part is taken out
of range and no loop or recursion runs out of its steps. The cursor stays in the
source, never goes back, and goes on in every successful call and every turn that
another one follows. An error lies in the source, where no other offset has its
line and column, and it is incomplete only if the cursor came to the end. -/
theorem cursor_safe_and_forward (s : Bytes) :
    (Careful.parse s).1 = (parse s).mapError .fault ∧
    (∀ event ∈ (Careful.parse s).2, event.Proper s.length) ∧
    ∀ e, parse s = .error e →
      e.cause ≠ .outOfFuel ∧ e.offset ≤ s.length ∧
      (∀ k ≤ s.length, placeAt s k = (e.line, e.column) ↔ k = e.offset) ∧
      (e.incomplete = true → Careful.place (Careful.parse s).2 = s.length) := by
  obtain ⟨rest, same, stands, ended⟩ := parse_stands s
  refine ⟨same, stands.proper, ?_⟩
  intro e failed
  obtain ⟨fault, found, rfl⟩ := parse_error failed
  have within : (fault.locate s).offset ≤ s.length := Nat.sub_le _ _
  have located := fault.placeAt_locate s
  refine ⟨(parseFault_within found).cause, within, ?_, ?_⟩
  · intro k inside
    constructor
    · intro there
      rw [← located] at there
      rcases Nat.le_total k (fault.locate s).offset with le | le
      · exact placeAt_inj le within there
      · exact (placeAt_inj le inside there.symm).symm
    · rintro rfl
      exact located
  · intro incomplete
    rw [stands.place, ended _ failed incomplete, Careful.offset]
    exact Int.sub_zero _

/-- The source `x;`, a line feed and `(1_`: one turn of the sequence takes the
cursor to the line feed, and the underscore is reported from behind it, at the end
of the source. -/
theorem cursor_safe_and_forward_underscore :
    parse [0x78, 0x3B, 0x0A, 0x28, 0x31, 0x5F] = .error ⟨5, 2, 3, .trailingUnderscore, true⟩ ∧
    (Careful.parse [0x78, 0x3B, 0x0A, 0x28, 0x31, 0x5F]).1 =
      .error (.fault ⟨5, 2, 3, .trailingUnderscore, true⟩) ∧
    .turn .sequence 0 2 ∈ (Careful.parse [0x78, 0x3B, 0x0A, 0x28, 0x31, 0x5F]).2 ∧
    (Event.turn .sequence 0 2).Proper 6 ∧
    Careful.place (Careful.parse [0x78, 0x3B, 0x0A, 0x28, 0x31, 0x5F]).2 = 6 ∧
    ∀ k ≤ 6, placeAt [0x78, 0x3B, 0x0A, 0x28, 0x31, 0x5F] k = (2, 3) ↔ k = 5 := by
  have failed : parse [0x78, 0x3B, 0x0A, 0x28, 0x31, 0x5F] =
      .error ⟨5, 2, 3, .trailingUnderscore, true⟩ := rfl
  have turned : .turn .sequence 0 2 ∈
      (Careful.parse [0x78, 0x3B, 0x0A, 0x28, 0x31, 0x5F]).2 := by decide +kernel
  obtain ⟨same, proper, error⟩ := cursor_safe_and_forward [0x78, 0x3B, 0x0A, 0x28, 0x31, 0x5F]
  obtain ⟨-, -, place, ended⟩ := error _ failed
  exact ⟨failed, by rw [same, failed]; rfl, turned, proper _ turned, ended rfl, place⟩

end BoxScript.Source
