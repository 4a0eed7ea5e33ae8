import BoxScript.Proofs.Source.Cursor
import BoxScript.Proofs.Source.Token

/-!
# Careful steps follow the reader

The cursor stands in front of what is left of the source. From there a careful
step comes to what the reader's function returns on what is left: the same
result with the cursor in front of the new rest, or the same error. Steps that
follow the reader can be put behind each other, and only moving the cursor and
recording have to look at the record. This is said here of the steps of the
cursor and of names, texts and numbers.
-/

set_option autoImplicit false

namespace BoxScript.Source.Careful

/-- The index of what is left of a source. -/
def offset (source s : Bytes) : Int := (source.length : Int) - s.length

/-- The cursor stands in front of `s`, and all that it did was proper. -/
structure Stands (source s : Bytes) (history : List Event) : Prop where
  inside : s <:+ source
  place : Careful.place history = offset source s
  proper : ∀ event ∈ history, event.Proper source.length

/-- What careful reading comes to, for what the reader returns. A reader whose
allowance is used up tells nothing. -/
inductive Gives (source : Bytes) {α : Type} :
    Except Stop α × List Event → Except Fault (α × Bytes) → Prop where
  | ok {a : α} {rest : Bytes} {history : List Event} (stands : Stands source rest history) :
      Gives source (.ok a, history) (.ok (a, rest))
  | fault {fault : Fault} {rest : Bytes} {history : List Event} (stands : Stands source rest history)
      (ended : fault.incomplete = true → rest = []) :
      Gives source (.error (.fault (fault.locate source)), history) (.error fault)
  | spent {outcome : Except Stop α × List Event} {fault : Fault} (spent : fault.cause = .outOfFuel) :
      Gives source outcome (.error fault)

/-- In front of `s` the step does what the reader does to `s`. -/
def Follows {α : Type} (source : Bytes) (m : Careful α) (s : Bytes)
    (result : Except Fault (α × Bytes)) : Prop :=
  ∀ history, Stands source s history → Gives source (m.run source history) result

section Follows

variable {α β : Type} {source s rest : Bytes}

theorem run_bind (m : Careful α) (f : α → Careful β) (history : List Event) :
    (m >>= f).run source history = match m.run source history with
      | (.ok a, after) => (f a).run source after
      | (.error stop, after) => (.error stop, after) := by
  change (match m.run source history with
    | (r, after) => ExceptT.bindCont (fun a => f a source) r after) = _
  rcases m.run source history with ⟨_ | _, _⟩ <;> rfl

theorem Follows.bind {m : Careful α} {f : α → Careful β} {a : α} {middle : Bytes}
    {result : Except Fault (β × Bytes)} (first : Follows source m s (.ok (a, middle)))
    (second : Follows source (f a) middle result) : Follows source (m >>= f) s result := by
  intro history stands
  rw [run_bind]
  have given := first history stands
  generalize m.run source history = outcome at given
  cases given with
  | ok stands' => exact second _ stands'

theorem Follows.bind_error {m : Careful α} {f : α → Careful β} {fault : Fault}
    (first : Follows source m s (.error fault)) : Follows source (m >>= f) s (.error fault) := by
  intro history stands
  rw [run_bind]
  have given := first history stands
  generalize m.run source history = outcome at given
  cases given with
  | fault stands' ended => exact .fault stands' ended
  | spent spent => exact .spent spent

theorem Follows.pure (a : α) : Follows source (pure a) s (.ok (a, s)) := fun _ stands => .ok stands

/-- A step whose result the reader looks at in the same way. -/
theorem Follows.bind_cases {m : Careful α} {f : α → Careful β} {found : Except Fault (α × Bytes)}
    {result : Except Fault (β × Bytes)} (first : Follows source m s found)
    (error : ∀ fault, found = .error fault → result = .error fault)
    (ok : ∀ a rest, found = .ok (a, rest) → Follows source (f a) rest result) :
    Follows source (m >>= f) s result := by
  cases found with
  | error fault =>
    rw [error fault rfl]
    exact first.bind_error
  | ok value => exact first.bind (ok value.1 value.2 rfl)

theorem Follows.ite {p q : Prop} [Decidable p] [Decidable q] {yes no : Careful α}
    {result result' : Except Fault (α × Bytes)} (same : p ↔ q)
    (pos : q → Follows source yes s result) (neg : ¬ q → Follows source no s result') :
    Follows source (if p then yes else no) s (if q then result else result') := by
  by_cases holds : q
  · rw [if_pos holds, if_pos (same.mpr holds)]
    exact pos holds
  · rw [if_neg holds, if_neg (mt same.mp holds)]
    exact neg holds

/-- The cursor is known to be inside the source. -/
theorem Follows.of_inside {m : Careful α} {result : Except Fault (α × Bytes)}
    (follows : s <:+ source → Follows source m s result) : Follows source m s result :=
  fun history stands => follows stands.inside history stands

theorem offset_bounds (inside : s <:+ source) :
    0 ≤ offset source s ∧ offset source s ≤ source.length := by
  have := inside.length_le
  rw [offset]
  omega

theorem offset_cons (b : UInt8) : offset source (b :: s) + 1 = offset source s := by
  simp only [offset, List.length_cons]
  omega

theorem offset_append (front : Bytes) :
    offset source (front ++ s) + front.length = offset source s := by
  simp only [offset, List.length_append]
  omega

/-! ## Steps of the cursor -/

theorem follows_cursor : Follows source cursor s (.ok (offset source s, s)) := by
  intro history stands
  rw [← stands.place]
  exact .ok stands

theorem follows_moveTo (back : rest <:+ s) :
    Follows source (moveTo (offset source rest)) s (.ok ((), rest)) := by
  intro history stands
  have inside := back.trans stands.inside
  refine .ok ⟨inside, rfl, ?_⟩
  intro event member
  rcases List.mem_cons.mp member with rfl | member
  · have := offset_bounds stands.inside
    have := offset_bounds inside
    have := back.length_le
    have := stands.place
    simp only [offset, Event.Proper] at *
    omega
  · exact stands.proper event member

theorem follows_advance {b : UInt8} : Follows source advance (b :: s) (.ok ((), s)) := by
  refine follows_cursor.bind ?_
  rw [offset_cons]
  exact follows_moveTo (List.suffix_cons b s)

theorem follows_advance_head {b : UInt8} (head : s.head? = some b) :
    Follows source advance s (.ok ((), s.tail)) := by
  obtain ⟨t, rfl⟩ := List.head?_eq_some_iff.mp head
  exact follows_advance

/-- Calls and turns leave the cursor where it is. -/
theorem follows_record {event : Event} (still : ∀ history, place (event :: history) = place history)
    (proper : event.Proper source.length) : Follows source (record event) s (.ok ((), s)) := by
  intro history stands
  refine .ok ⟨stands.inside, (still history).trans stands.place, ?_⟩
  intro other member
  rcases List.mem_cons.mp member with rfl | member
  · exact proper
  · exact stands.proper other member

theorem offset_lt (inside : s <:+ source) (inside' : rest <:+ source)
    (less : rest.length < s.length) :
    0 ≤ offset source s ∧ offset source s < offset source rest ∧
      offset source rest ≤ source.length := by
  have := offset_bounds inside
  have := offset_bounds inside'
  simp only [offset] at *
  omega

theorem Follows.call {rule : Rule} {m : Careful α} {result : Except Fault (α × Bytes)}
    (follows : Follows source m s result)
    (consumes : ∀ a rest, result = .ok (a, rest) → rest.length < s.length) :
    Follows source (call rule m) s result := by
  refine .of_inside fun inside => ?_
  cases result with
  | error fault => exact follows_cursor.bind follows.bind_error
  | ok value =>
    obtain ⟨a, rest⟩ := value
    refine follows_cursor.bind (follows.bind (follows_cursor.bind ?_))
    refine .of_inside fun inside' => ?_
    have recorded : Follows source
        (record (.call rule (offset source s) (offset source rest))) rest (.ok ((), rest)) :=
      follows_record (fun _ => rfl) (offset_lt inside inside' (consumes a rest rfl))
    exact recorded.bind (.pure a)

theorem follows_turn {loop : Loop} (inside : s <:+ source) (less : rest.length < s.length) :
    Follows source (turn loop (offset source s)) rest (.ok ((), rest)) := by
  refine .of_inside fun inside' => follows_cursor.bind ?_
  exact follows_record (fun _ => rfl) (offset_lt inside inside' less)

/-! ## Looking at the source -/

theorem follows_read : Follows source read s (.ok (source, s)) := fun _ stands => .ok stands

theorem follows_byteAt {b : UInt8} {t : Bytes} (inside : b :: t <:+ source) :
    Follows source (byteAt (offset source (b :: t))) s (.ok (b, s)) := by
  intro history stands
  obtain ⟨before, rfl⟩ := inside
  have index : offset (before ++ b :: t) (b :: t) = before.length := by
    simp only [offset, List.length_append]
    omega
  have access : (if offset (before ++ b :: t) (b :: t) < 0 then none
      else (before ++ b :: t)[(offset (before ++ b :: t) (b :: t)).toNat]?) = some b := by
    rw [index, if_neg (by omega), Int.toNat_natCast, List.getElem?_append_right (Nat.le_refl _),
      Nat.sub_self, List.getElem?_cons_zero]
  change Gives _ ((present (if offset (before ++ b :: t) (b :: t) < 0 then none
      else (before ++ b :: t)[(offset (before ++ b :: t) (b :: t)).toNat]?)).run _ history) _
  rw [access]
  exact .ok stands

/-- The byte behind the cursor can be looked at once there is one. -/
theorem follows_byteBefore {last : UInt8} (inside : last :: s <:+ source) :
    Follows source (byteAt (offset source s - 1)) s (.ok (last, s)) := by
  have back : offset source s - 1 = offset source (last :: s) := by
    rw [← offset_cons last]
    omega
  rw [back]
  exact follows_byteAt inside

theorem follows_slice {t r : Bytes} (inside : t ++ r <:+ source) :
    Follows source (slice (offset source (t ++ r)) (offset source r)) s (.ok (t, s)) := by
  intro history stands
  obtain ⟨before, rfl⟩ := inside
  have start : offset (before ++ (t ++ r)) (t ++ r) = before.length := by
    simp only [offset, List.length_append]
    omega
  have stop : offset (before ++ (t ++ r)) r = (before ++ t).length := by
    simp only [offset, List.length_append]
    omega
  have inside : 0 ≤ (before.length : Int) ∧ (before.length : Int) ≤ (before ++ t).length ∧
      ((before ++ t).length : Int) ≤ (before ++ (t ++ r)).length := by
    simp only [List.length_append]
    omega
  have part : ((before ++ (t ++ r)).take (before ++ t).length).drop before.length = t := by
    rw [← List.append_assoc, List.take_left, List.drop_left]
  change Gives _ ((present (if 0 ≤ offset (before ++ (t ++ r)) (t ++ r) ∧ _ ∧ _ then _
      else none)).run _ history) _
  rw [start, stop, if_pos inside, Int.toNat_natCast, Int.toNat_natCast, part]
  exact .ok stands

theorem follows_eof : Follows source eof s (.ok (s.isEmpty, s)) := by
  intro history stands
  have ended : decide ((source.length : Int) ≤ place history) = s.isEmpty := by
    rw [stands.place, offset]
    cases s with
    | nil => exact decide_eq_true (by rw [List.length_nil]; omega)
    | cons b s => exact decide_eq_false (by rw [List.length_cons]; omega)
  rw [← ended]
  exact .ok stands

theorem follows_peek : Follows source peek s (.ok (s.headD 0, s)) := by
  refine .of_inside fun inside => follows_eof.bind ?_
  cases s with
  | nil => exact .pure 0
  | cons b s => exact follows_cursor.bind (follows_byteAt inside)

theorem follows_peek_nil : Follows source peek [] (.ok (0, [])) := follows_peek

theorem follows_peek_cons {b : UInt8} : Follows source peek (b :: s) (.ok (b, b :: s)) :=
  follows_peek

/-- No byte that is looked for is a zero byte, which stands for the end. -/
theorem headD_eq_iff {b : UInt8} (solid : b ≠ 0) : s.headD 0 = b ↔ s.head? = some b := by
  cases s with
  | nil => simp [solid.symm]
  | cons c s => simp

theorem follows_found : Follows source found s (.ok (s.head?, s)) := by
  refine .of_inside fun inside => follows_eof.bind ?_
  cases s with
  | nil => exact .pure none
  | cons b s => exact follows_cursor.bind ((follows_byteAt inside).bind (.pure (some b)))

/-! ## Errors -/

theorem idxOf?_append_cons {b : UInt8} {front : Bytes} (first : b ∉ front) (back : Bytes) :
    (front ++ b :: back).idxOf? b = some front.length := by
  induction front with
  | nil => simp [List.idxOf?_cons]
  | cons c front ih =>
    rw [List.mem_cons, not_or] at first
    have other : (c == b) = false := by simpa using Ne.symm first.1
    rw [List.cons_append, List.idxOf?_cons, other, if_neg (by simp), ih first.2]
    rfl

theorem takeWhile_ne {b : UInt8} {front back : Bytes} (first : b ∉ front)
    (stops : ∀ c ∈ back.head?, c = b) : (front ++ back).takeWhile (· != b) = front := by
  have others : ∀ c ∈ front, (c != b) = true := by
    intro c inside
    simp only [bne_iff_ne]
    rintro rfl
    exact first inside
  have cut := span_append others (by simpa using stops)
  rw [List.span_eq_takeWhile_dropWhile] at cut
  exact (Prod.mk.inj cut).1

/-- The bytes of the last line, counted back from its end. -/
theorem column_eq (b : UInt8) (s : Bytes) :
    (match lastIndex? b s with
      | some k => s.length - k
      | none => s.length + 1) = (s.reverse.takeWhile (· != b)).length + 1 := by
  by_cases member : b ∈ s.reverse
  · obtain ⟨front, back, split, first⟩ := List.eq_append_cons_of_mem member
    have size : s.length = front.length + back.length + 1 := by
      rw [← List.length_reverse, split, List.length_append, List.length_cons]
      omega
    have line : (front ++ b :: back).takeWhile (· != b) = front := takeWhile_ne first (by simp)
    rw [lastIndex?, split, idxOf?_append_cons first, line, Option.map_some]
    simp only
    omega
  · have line : (s.reverse ++ []).takeWhile (· != b) = s.reverse := takeWhile_ne member (by simp)
    rw [List.append_nil] at line
    rw [lastIndex?, List.idxOf?_eq_none_iff.mpr member, line, Option.map_none, List.length_reverse]

theorem follows_errorAt {start : Bytes} (inside : start <:+ source) (cause : Cause) :
    Follows source (errorAt (offset source start) cause) s
      (.ok ((Fault.since start s cause).locate source, s)) := by
  obtain ⟨before, rfl⟩ := inside
  have whole := follows_slice (s := s) (List.suffix_refl (before ++ start))
  have first : offset (before ++ start) (before ++ start) = 0 := Int.sub_self _
  have index : (offset (before ++ start) start).toNat = before.length := by
    simp only [offset, List.length_append]
    omega
  have place : (before ++ start).length - start.length = before.length := by
    rw [List.length_append, Nat.add_sub_cancel]
  rw [first] at whole
  refine whole.bind (follows_eof.bind ?_)
  simp only [Fault.locate, Fault.since, index, place, List.take_left, ← column_eq, Nat.add_comm 1]
  exact .pure _

theorem follows_failAt {start : Bytes} (inside : start <:+ source) (cause : Cause) :
    Follows source (failAt (offset source start) cause : Careful α) s
      (.error (.since start s cause)) := by
  refine (follows_errorAt inside cause).bind fun history stands => .fault stands ?_
  exact List.isEmpty_iff.mp

theorem follows_fail (cause : Cause) :
    Follows source (fail cause : Careful α) s (.error (.at s cause)) :=
  .of_inside fun inside => follows_cursor.bind (follows_failAt inside cause)

/-! ## Lexemes -/

theorem follows_skipWhile (p : UInt8 → Bool) {n : Nat} (enough : s.length < n) :
    Follows source (skipWhile p n) s (.ok ((), s.dropWhile p)) := by
  induction n generalizing s with
  | zero => omega
  | succ n ih =>
    refine .of_inside fun inside => ?_
    cases s with
    | nil => exact follows_eof.bind (.pure ())
    | cons b s =>
      refine follows_eof.bind (follows_cursor.bind ((follows_byteAt inside).bind ?_))
      rw [List.dropWhile_cons]
      split
      · exact follows_advance.bind (ih (Nat.lt_of_succ_lt_succ enough))
      · exact .pure ()

theorem follows_skipSpace : Follows source skipSpace s (.ok ((), Source.skipSpace s)) :=
  .of_inside fun inside =>
    follows_read.bind (follows_skipWhile isSpace (Nat.lt_succ_of_le inside.length_le))

theorem follows_name : Follows source name s (Source.name s) := by
  refine .of_inside fun inside => ?_
  cases s with
  | nil =>
    refine follows_peek_nil.bind ?_
    rw [if_neg (by decide)]
    exact follows_found.bind (follows_fail _)
  | cons b s =>
    rw [Source.name, List.span_eq_takeWhile_dropWhile]
    refine follows_peek_cons.bind (.ite Iff.rfl (fun starts => ?_) fun _ => ?_)
    · have continues : continuesName b = true := by simp [continuesName, starts]
      have enough := Nat.lt_succ_of_le ((List.suffix_cons b s).trans inside).length_le
      have whole : b :: s.takeWhile continuesName ++ s.dropWhile continuesName = b :: s := by
        rw [List.cons_append, List.takeWhile_append_dropWhile]
      rw [← whole] at inside
      have letters := follows_slice (s := s.dropWhile continuesName) inside
      rw [whole] at letters
      rw [List.takeWhile_cons_of_pos continues, List.dropWhile_cons_of_pos continues]
      exact follows_cursor.bind (follows_advance.bind (follows_read.bind
        ((follows_skipWhile _ enough).bind (follows_cursor.bind (letters.bind (.pure _))))))
    · exact follows_found.bind (follows_fail _)

theorem quotedText_of_absent {quote : UInt8} (absent : quote ∉ s) :
    Source.quotedText quote s = .error ⟨s.length + 1, true, .unclosedText⟩ := by
  cases read : Source.quotedText quote s with
  | ok found =>
    obtain ⟨rfl, -⟩ := quotedText_iff.mp read
    simp at absent
  | error fault =>
    simp only [Source.quotedText] at read
    split at read
    · cases read
    · cases read
      rfl

theorem follows_quotedText {quote : UInt8} (isQuote : isQuote quote = true) :
    Follows source quotedText (quote :: s) (Source.quotedText quote s) := by
  refine .of_inside fun inside => ?_
  have size : (source.length : Int) = offset source [] := (Int.sub_zero _).symm
  have inside' : s ++ [] <:+ source := by
    rw [List.append_nil]
    exact (List.suffix_cons quote s).trans inside
  have after := follows_slice (s := quote :: s) inside'
  rw [List.append_nil, ← offset_cons quote, ← size] at after
  refine follows_eof.bind (follows_cursor.bind ((follows_byteAt inside).bind ?_))
  rw [if_pos isQuote]
  refine follows_read.bind (after.bind ?_)
  by_cases closed : quote ∈ s
  · obtain ⟨contents, rest, rfl, absent⟩ := List.eq_append_cons_of_mem closed
    have next : offset source (quote :: (contents ++ quote :: rest)) + 1 + contents.length =
        offset source (quote :: rest) := by
      rw [offset_cons, offset_append]
    have contained := follows_slice (s := rest) ((List.suffix_cons quote _).trans inside)
    rw [idxOf?_append_cons absent, quotedText_iff.mpr ⟨rfl, absent⟩]
    simp only [next]
    rw [offset_cons]
    refine (follows_moveTo ?_).bind ?_
    · exact ⟨quote :: contents ++ [quote], by simp⟩
    · rw [offset_cons]
      exact contained
  · rw [List.idxOf?_eq_none_iff.mpr closed, quotedText_of_absent closed]
    simp only [size]
    refine (follows_moveTo List.nil_suffix).bind (follows_failAt inside _)

/-- A number with some of its bytes, here its sign, in front of the others. -/
def numberBehind (front : Bytes) (result : Except Fault (Bytes × Bytes)) :
    Except Fault (Bytes × Bytes) :=
  result.map (Prod.map (front ++ ·) id)

theorem follows_numberEnd {front seen : Bytes} {last : UInt8}
    (inside : front ++ (last :: seen).reverse ++ s <:+ source) (inside' : last :: s <:+ source) :
    Follows source (numberEnd (offset source (front ++ (last :: seen).reverse ++ s))) s
      (numberBehind front (Source.numberEnd (last :: seen) last s)) := by
  have back : offset source s - 1 = offset source (last :: s) := by
    rw [← offset_cons last]
    omega
  refine follows_cursor.bind ((follows_byteBefore inside').bind ?_)
  by_cases trailing : (last == underscore) = true
  · simp only [Source.numberEnd, if_pos trailing]
    refine follows_cursor.bind ?_
    rw [back]
    exact follows_failAt inside' _
  · simp only [Source.numberEnd, if_neg trailing]
    exact follows_cursor.bind (follows_slice inside)

theorem follows_numberTail {whole front seen : Bytes} {last : UInt8} {n : Nat}
    (inside : whole <:+ source) (split : whole = front ++ (last :: seen).reverse ++ s)
    (enough : s.length < n) :
    Follows source (numberTail (offset source whole) n) s
      (numberBehind front (Source.numberTail (last :: seen) last s)) := by
  induction n generalizing s seen last with
  | zero => omega
  | succ n ih =>
    refine .of_inside fun inside' => ?_
    have before : last :: s <:+ source := by
      refine List.IsSuffix.trans ⟨front ++ seen.reverse, ?_⟩ inside
      simp [split]
    have ends := follows_numberEnd (split ▸ inside) before
    rw [← split] at ends
    cases s with
    | nil => exact follows_eof.bind ends
    | cons b s =>
      have more : Follows source (numberTail (offset source whole) n) s
          (numberBehind front (Source.numberTail (b :: last :: seen) b s)) :=
        ih (by simp [split]) (Nat.lt_of_succ_lt_succ enough)
      refine follows_eof.bind (follows_cursor.bind ((follows_byteAt inside').bind ?_))
      rw [Source.numberTail]
      by_cases digit : isDigit b = true
      · rw [if_pos digit, if_pos digit]
        exact follows_advance.bind more
      · rw [if_neg digit, if_neg digit]
        by_cases separator : isSeparator b = true
        · rw [if_pos separator, if_pos separator]
          refine follows_cursor.bind ((follows_byteBefore before).bind ?_)
          by_cases behind : isDigit last = true
          · rw [if_pos behind, if_pos behind]
            exact follows_advance.bind more
          · rw [if_neg behind, if_neg behind]
            exact follows_fail _
        · rw [if_neg separator, if_neg separator]
          exact ends

theorem follows_unsignedNumber (front : Bytes) (inside : front ++ s <:+ source) :
    Follows source (unsignedNumber (offset source (front ++ s))) s
      (numberBehind front (Source.unsignedNumber s)) := by
  cases s with
  | nil =>
    refine follows_peek_nil.bind ?_
    rw [if_neg (by decide)]
    exact follows_found.bind (follows_fail _)
  | cons b s =>
    refine follows_peek_cons.bind ?_
    rw [Source.unsignedNumber]
    by_cases digit : isDigit b = true
    · rw [if_pos digit, if_pos digit]
      have behind : s <:+ source :=
        (List.suffix_cons b s).trans ((List.suffix_append front _).trans inside)
      have enough := Nat.lt_succ_of_le behind.length_le
      exact follows_advance.bind (follows_read.bind (follows_numberTail inside (by simp) enough))
    · rw [if_neg digit, if_neg digit]
      exact follows_found.bind (follows_fail _)

theorem follows_numberLexeme : Follows source numberLexeme s (Source.numberLexeme s) := by
  have plain (result : Except Fault (Bytes × Bytes)) : numberBehind [] result = result := by
    cases result <;> rfl
  have unsigned (inside : s <:+ source) :
      Follows source (unsignedNumber (offset source s)) s (Source.unsignedNumber s) := by
    rw [← plain (Source.unsignedNumber s)]
    exact follows_unsignedNumber [] inside
  refine .of_inside fun inside => follows_cursor.bind ?_
  cases s with
  | nil =>
    refine follows_peek_nil.bind ?_
    rw [if_neg (by decide)]
    exact unsigned inside
  | cons b s =>
    refine follows_peek_cons.bind (.ite Iff.rfl (fun _ => ?_) fun _ => unsigned inside)
    have signed : Follows source (unsignedNumber (offset source (b :: s))) s
        (numberBehind [b] (Source.unsignedNumber s)) := follows_unsignedNumber [b] inside
    refine follows_advance.bind ?_
    cases read : Source.unsignedNumber s with
    | ok found =>
      rw [read] at signed
      exact signed
    | error fault =>
      rw [read] at signed
      exact signed

theorem follows_number : Follows source number s (Source.number s) := by
  refine .of_inside fun inside => follows_cursor.bind ?_
  rw [Source.number]
  refine follows_numberLexeme.bind_cases (fun fault read => by rw [read]) fun literal rest read => ?_
  rw [read]
  cases value : numberValue literal with
  | ok e =>
    simp only [value]
    exact .pure e
  | error why =>
    simp only [value]
    refine (follows_errorAt inside _).bind fun history stands => ?_
    exact @Gives.fault source Expr ⟨s.length, false, .malformedNumber literal why⟩ rest history
      stands nofun

end Follows

end BoxScript.Source.Careful
