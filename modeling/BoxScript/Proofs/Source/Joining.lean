import BoxScript.Proofs.Source.Continuation
import BoxScript.Proofs.Machine.Succession
import BoxScript.Proofs.Safety.Session

/-!
# Sources joined by a semicolon

A source can be cut at any semicolon of its top level. The reader behind the
semicolon remembers nothing of what stands before it but the expressions already
read, so it reads the second part as it would on its own: it finds the same
expressions, or the same fault at the same distance from the end. And what one
part has computed reaches the next only through the heap and the world, so that
evaluating both parts at once or one after the other makes no difference.
-/

set_option autoImplicit false

namespace BoxScript.Source

open Grammar

/-! ## Reading the second part -/

/-- The expressions already read only stand in front of those to come. -/
theorem sequence_seen (top : Bool) (seen : List Expr) (n : Nat) (s : Bytes) :
    sequence top seen n s =
      (sequence top [] n s).map fun (es, rest) => (seen.reverse ++ es, rest) := by
  induction n generalizing seen s with
  | zero => simp only [sequence, Except.map]
  | succ n ih =>
    simp only [sequence]
    split
    · simp [Except.map]
    · split
      · exact ih seen _
      · cases expr n (skipSpace s) with
        | error fault => rfl
        | ok result =>
          obtain ⟨e, rest⟩ := result
          simp only
          split
          · simp [Except.map]
          · split
            · rw [ih (e :: seen), ih [e]]
              cases sequence top [] n (skipSpace rest).tail with
              | error fault => rfl
              | ok result => simp [Except.map]
            · rfl

/-- With enough allowance more of it changes nothing. -/
theorem sequence_of_enough {top : Bool} {seen : List Expr} {s : Bytes} {n k : Nat}
    (enough : 4 * room s + 3 ≤ n) (more : n ≤ k) :
    sequence top seen k s = sequence top seen n s := by
  obtain ⟨j, rfl⟩ := Nat.exists_eq_add_of_le' more
  have extends' : Extends [] (sequence top seen n s) (sequence top seen (j + n) (s ++ [])) :=
    (extended n).sequence
  rw [List.append_nil] at extends'
  cases found : sequence top seen n s with
  | ok result =>
    have kept := extends'.of_ok found fun _ => rfl
    rwa [List.append_nil] at kept
  | error fault =>
    have final : fault.Final [] := ⟨((placed n).sequence enough found).cause, .inl rfl⟩
    have kept := extends'.of_error found final
    rwa [Fault.extend_nil] at kept

theorem atClose_semicolon (top : Bool) (after : Bytes) :
    atClose top (semicolon :: after) = false := by
  cases top <;> rfl

/-- A sequence in front of a semicolon is read, and the reader goes on behind it. -/
theorem sequence_through (top : Bool) : ∀ (t : Sequence) (n : Nat) (seen : List Expr)
    {es : List Expr} {s rest after : Bytes}, t.meaning? = some es → Reads s t.tokens rest →
    skipSpace rest = semicolon :: after → 4 * room s + 3 ≤ n + 1 →
    ∃ k, 4 * room after + 3 ≤ k ∧
      sequence top seen (n + 1) s = sequence top (es.reverse ++ seen) k after
  | .none, n, seen, es, s, rest, after, meaning, reads, start, enough => by
    cases meaning
    have blank : skipSpace s = semicolon :: after := .trans reads start
    have less := room_cons blank
    refine ⟨n, by omega, ?_⟩
    rw [sequence]
    simp [blank, atClose_semicolon]
  | .skip others, n, seen, es, s, rest, after, meaning, reads, start, enough => by
    rw [Sequence.tokens] at reads
    obtain ⟨between, start', reads⟩ := (Reads.mark_iff (by decide)).mp reads
    have less := room_cons start'
    obtain ⟨n, rfl⟩ : ∃ m, n = m + 1 := ⟨n - 1, by omega⟩
    obtain ⟨k, left, goes⟩ := sequence_through top others n seen meaning reads start (by omega)
    refine ⟨k, left, ?_⟩
    rw [← goes, sequence]
    simp [start', atClose_semicolon]
  | .last e, n, seen, es, s, rest, after, meaning, reads, start, enough => by
    rw [Sequence.tokens] at reads
    obtain ⟨value, denotes, rfl⟩ := Option.map_eq_some_iff.mp meaning
    have less := room_cons start
    have less' := reads.room
    refine ⟨n, by omega, ?_⟩
    rw [sequence_expr (complete n) denotes reads (.of_start start (by decide)) (by omega), start,
      atClose_semicolon]
    simp
  | .next e others, n, seen, es, s, rest, after, meaning, reads, start, enough => by
    rw [Sequence.tokens] at reads
    obtain ⟨value, denotes, meaning⟩ := Option.bind_eq_some_iff.mp meaning
    obtain ⟨es, denote, rfl⟩ := Option.map_eq_some_iff.mp meaning
    obtain ⟨middle, front, back⟩ := Reads.append_iff.mp reads
    obtain ⟨between, start', back⟩ := (Reads.mark_iff (by decide)).mp back
    have less := room_cons start'
    have less' := front.room
    obtain ⟨n, rfl⟩ : ∃ m, n = m + 1 := ⟨n - 1, by omega⟩
    obtain ⟨k, left, goes⟩ :=
      sequence_through top others n (value :: seen) denote back start (by omega)
    refine ⟨k, left, ?_⟩
    rw [sequence_expr (complete _) denotes front (.of_start start' (by decide)) (by omega), start',
      atClose_semicolon]
    simp [goes]

theorem separate_semicolon (s : Bytes) : Separate (semicolon :: s) := .of_head rfl (by decide)

/-- The second part of a source is read as it is on its own. -/
theorem parseFault_join {s₁ s₂ : Bytes} {es : List Expr} (parsed : parse s₁ = .ok es) :
    parseFault (s₁ ++ semicolon :: s₂) = (parseFault s₂).map (es ++ ·) := by
  obtain ⟨t, spells, meaning⟩ := derives_of_parse parsed
  have reads := (spells_iff_reads.mp spells).append (separate_semicolon s₂)
  obtain ⟨k, left, goes⟩ := sequence_through true t _ [] meaning reads
    (skipSpace_eq_self (by decide)) (room_le_allowance (s₁ ++ semicolon :: s₂))
  -- The allowance left behind the semicolon is not that of the second part, but it is enough.
  have same : sequence true (es.reverse ++ []) k s₂ =
      sequence true (es.reverse ++ []) (allowance s₂) s₂ := by
    rcases Nat.le_total k (allowance s₂) with le | le
    · exact (sequence_of_enough left le).symm
    · exact sequence_of_enough (room_le_allowance s₂) le
  rw [parseFault, allowance, goes, same, sequence_seen, parseFault]
  cases sequence true [] (allowance s₂) s₂ with
  | error fault => rfl
  | ok result =>
    obtain ⟨found, rest⟩ := result
    cases rest <;> simp [Except.map]

theorem parse_join {s₁ s₂ : Bytes} {es₁ es₂ : List Expr} (parsed₁ : parse s₁ = .ok es₁)
    (parsed₂ : parse s₂ = .ok es₂) : parse (s₁ ++ semicolon :: s₂) = .ok (es₁ ++ es₂) := by
  have found : parseFault s₂ = .ok es₂ := by
    rw [parse] at parsed₂
    split at parsed₂
    · next found =>
      cases parsed₂
      exact found
    · cases parsed₂
  rw [parse, parseFault_join parsed₁, found]
  rfl

/-- The error of the second part is that of the whole, as much further on as the
second part starts. -/
theorem parse_join_error {s₁ s₂ : Bytes} {es : List Expr} {e : ParseError}
    (parsed : parse s₁ = .ok es) (failed : parse s₂ = .error e) :
    ∃ e', parse (s₁ ++ semicolon :: s₂) = .error e' ∧ e'.cause = e.cause ∧
      e'.incomplete = e.incomplete ∧ e'.offset = e.offset + (s₁.length + 1) := by
  obtain ⟨fault, found, rfl⟩ := parse_error failed
  have joined : parseFault (s₁ ++ semicolon :: s₂) = .error fault := by
    rw [parseFault_join parsed, found]
    rfl
  refine ⟨_, parse_of_fault joined, rfl, rfl, ?_⟩
  have within := (parseFault_within found).place
  simp only [Fault.locate, List.length_append, List.length_cons]
  omega

/-! ## Evaluating both parts -/

/-- Evaluates a source against a target. -/
def doSource {σ : Type} (host : Host σ) (fuel : Nat) (s : Store σ) (target : Ref)
    (source : Bytes) : Except ParseError (Result σ) :=
  (parseProgram source).map (evaluate host fuel s.heap s.world (some target))

/-- A source has been evaluated to its end, with this result. -/
def Does {σ : Type} (host : Host σ) (target : Ref) (source : Bytes) (s : Store σ)
    (r : Result σ) : Prop :=
  ∃ fuel, doSource host fuel s target source = .ok r ∧ r.outcome ≠ .unfinished

theorem does_iff {σ : Type} {host : Host σ} (patient : ∀ w, host.done w = false) {target : Ref}
    {source : Bytes} {es : List Expr} (parsed : parse source = .ok es) {e : Expr}
    (folded : Expr.ofList es = some e) {s : Store σ} {r : Result σ} :
    Does host target source s r ↔
      ∃ result, Recursive.Ends host target e s result ∧ r = .ofRecursion result := by
  have program : parseProgram source = .ok (some e) := by
    rw [parseProgram, parsed]
    exact congrArg Except.ok folded
  have complete := (program_runnable program s.heap e rfl).2
  rw [← evaluates_iff patient fun r => Result.reported_of_complete complete r]
  simp only [Does, doSource, program, Except.map, Except.ok.injEq]
  rfl

theorem ofList_ne_nil {es : List Expr} (some' : es ≠ []) : ∃ e, Expr.ofList es = some e := by
  match es with
  | [] => exact absurd rfl some'
  | [e] => exact ⟨e, rfl⟩
  | e :: f :: es => exact ⟨.sequence (e :: f :: es), rfl⟩

theorem ofRecursion_error {σ : Type} (error : Halted σ × Expr) (v : Ref) :
    (Result.ofRecursion (.error error)).outcome ≠ .value v := by
  rcases Machine.stopped_outcome error.1 error.2 with ⟨_, failed⟩ | fatal
  · simp [Result.ofRecursion, failed]
  · simp [Result.ofRecursion, fatal]

theorem does_join {σ : Type} {host : Host σ} (patient : ∀ w, host.done w = false) {target : Ref}
    {s₁ s₂ : Bytes} {es₁ es₂ : List Expr} (parsed₁ : parse s₁ = .ok es₁)
    (parsed₂ : parse s₂ = .ok es₂) (some₁ : es₁ ≠ []) (some₂ : es₂ ≠ []) {s : Store σ}
    {r : Result σ} :
    Does host target (s₁ ++ semicolon :: s₂) s r ↔
      (∃ v s', Does host target s₁ s ⟨.value v, s'.heap, s'.world⟩ ∧ Does host target s₂ s' r) ∨
        Does host target s₁ s r ∧ ∀ v, r.outcome ≠ .value v := by
  obtain ⟨e₁, folded₁⟩ := ofList_ne_nil some₁
  obtain ⟨e₂, folded₂⟩ := ofList_ne_nil some₂
  obtain ⟨e, folded⟩ := ofList_ne_nil (by simp [some₁] : es₁ ++ es₂ ≠ [])
  simp only [does_iff patient (parse_join parsed₁ parsed₂) folded, does_iff patient parsed₁ folded₁,
    does_iff patient parsed₂ folded₂, Recursive.ends_append folded₁ folded₂ folded]
  constructor
  · rintro ⟨result, ⟨v, s', first, second⟩ | ⟨error, first, rfl⟩, rfl⟩
    · exact .inl ⟨v, s', ⟨_, first, rfl⟩, result, second, rfl⟩
    · exact .inr ⟨⟨_, first, rfl⟩, ofRecursion_error error⟩
  · rintro (⟨v, s', ⟨result', first, same⟩, result, second, rfl⟩ | ⟨⟨result, first, rfl⟩, other⟩)
    · refine ⟨result, .inl ⟨v, s', ?_, second⟩, rfl⟩
      cases result' with
      | ok value =>
        obtain ⟨v', heap, world⟩ := value
        cases same
        exact first
      | error error => exact absurd (congrArg Result.outcome same).symm (ofRecursion_error error v)
    · cases result with
      | ok value => exact absurd rfl (other value.1)
      | error error => exact ⟨_, .inr ⟨error, first, rfl⟩, rfl⟩

/-- A program can be cut at a semicolon. The whole has the expressions of both
parts, or the error of the second part as much further on as that starts. If both
parts have expressions, then evaluating the whole against a target ends exactly
as evaluating the second part does after the first has ended with a value, or as
the first part does if it fails, and it leaves the same heap and world. -/
theorem sources_join (s₁ s₂ : Bytes) (es₁ : List Expr) (parsed₁ : parse s₁ = .ok es₁) :
    (∀ es₂, parse s₂ = .ok es₂ → parse (s₁ ++ semicolon :: s₂) = .ok (es₁ ++ es₂)) ∧
    (∀ e, parse s₂ = .error e → ∃ e', parse (s₁ ++ semicolon :: s₂) = .error e' ∧
      e'.cause = e.cause ∧ e'.incomplete = e.incomplete ∧
      e'.offset = e.offset + (s₁.length + 1)) ∧
    ∀ es₂, parse s₂ = .ok es₂ → es₁ ≠ [] → es₂ ≠ [] →
      ∀ {σ : Type} (host : Host σ) (target : Ref) (s : Store σ) (r : Result σ),
        Does host.patient target (s₁ ++ semicolon :: s₂) s r ↔
          (∃ v s', Does host.patient target s₁ s ⟨.value v, s'.heap, s'.world⟩ ∧
            Does host.patient target s₂ s' r) ∨
          Does host.patient target s₁ s r ∧ ∀ v, r.outcome ≠ .value v := by
  refine ⟨fun es₂ parsed₂ => parse_join parsed₁ parsed₂, fun e failed => ?_, ?_⟩
  · exact parse_join_error parsed₁ failed
  · intro es₂ parsed₂ some₁ some₂ σ host target s r
    exact does_join (fun _ => rfl) parsed₁ parsed₂ some₁ some₂

/-- The source `a=1;a` is cut into `a=1` and `a`, and `a=1;(a` fails at its end. -/
theorem sources_join_assign :
    parse ([0x61, 0x3D, 0x31] ++ semicolon :: [0x61]) = .ok [.assign "a" (.integer 1), .name "a"] ∧
    (∃ e', parse ([0x61, 0x3D, 0x31] ++ semicolon :: [0x28, 0x61]) = .error e' ∧ e'.offset = 6) ∧
    ∀ (s t : Store Unit) (v : Ref),
      Does Host.plain.patient Canon.globals ([0x61, 0x3D, 0x31] ++ semicolon :: [0x61]) s
          ⟨.value v, t.heap, t.world⟩ →
        ∃ v' s', Does Host.plain.patient Canon.globals [0x61, 0x3D, 0x31] s
            ⟨.value v', s'.heap, s'.world⟩ ∧
          Does Host.plain.patient Canon.globals [0x61] s' ⟨.value v, t.heap, t.world⟩ := by
  have first : parse [0x61, 0x3D, 0x31] = .ok [.assign "a" (.integer 1)] := rfl
  have second : parse [0x61] = .ok [.name "a"] := rfl
  refine ⟨(sources_join _ _ _ first).1 _ second, ?_, ?_⟩
  · obtain ⟨e', failed, -, -, offset⟩ := (sources_join _ [0x28, 0x61] _ first).2.1 _ rfl
    exact ⟨e', failed, offset⟩
  · intro s t v does
    rcases ((sources_join _ _ _ first).2.2 _ second (by simp) (by simp) _ _ _ _).mp does with
      both | ⟨-, other⟩
    · exact both
    · exact absurd rfl (other v)

end BoxScript.Source
