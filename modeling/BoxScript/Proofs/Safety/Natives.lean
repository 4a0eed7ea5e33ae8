import BoxScript.Proofs.Safety.Heap

/-!
# Native routines on sound heaps

On a sound heap, and with arguments that are there, a routine of the language
answers with a box that was made or with a new payload, or it fails for an
ordinary cause. It never needs a payload that is missing.
-/

set_option autoImplicit false

namespace BoxScript

/-- The kinds of failures that a parsed program can bring about. -/
def ordinaryKinds : List CauseKind :=
  [.undefined, .tooManyArguments, .missingArgument, .index, .type, .sealed, .divideByZero]

def Failure.Ordinary : Failure → Prop
  | .cause c => c.kind ∈ ordinaryKinds
  | .fatal => False

namespace Native

variable {α β : Type}

/-- A computation that fails for ordinary causes only. -/
def Fine (P : α → Prop) : Except Failure α → Prop
  | .ok a => P a
  | .error failure => failure.Ordinary

theorem Fine.bind {P : α → Prop} {Q : β → Prop} {x : Except Failure α} {f : α → Except Failure β}
    (first : Fine P x) (second : ∀ a, P a → Fine Q (f a)) : Fine Q (x >>= f) := by
  cases x with
  | error failure => exact first
  | ok a => exact second a first

/-- An argument that is there. -/
def Present (h : Heap) (x : Option Ref) : Prop := ∃ v, x = some v ∧ v < h.size

variable {h : Heap} {args : List (Option Ref)} {routine : String}

theorem fine_argumentCount (n : Int) (got : Nat) :
    (Failure.cause (.argumentCount routine n got)).Ordinary := by
  simp only [Failure.Ordinary, Cause.kind]
  split <;> decide

section Arguments

variable (all : ∀ x ∈ args, Present h x)

include all

theorem fine_one : Fine (Present h) (one routine args) := by
  match args with
  | [x] => exact all x (by simp)
  | [] | _ :: _ :: _ => exact fine_argumentCount 1 _

theorem fine_two : Fine (fun p => Present h p.1 ∧ Present h p.2) (two routine args) := by
  match args with
  | [x, y] => exact ⟨all x (by simp), all y (by simp)⟩
  | [] | [_] | _ :: _ :: _ :: _ => exact fine_argumentCount 2 _

theorem fine_three :
    Fine (fun p => Present h p.1 ∧ Present h p.2.1 ∧ Present h p.2.2) (three routine args) := by
  match args with
  | [x, y, z] => exact ⟨all x (by simp), all y (by simp), all z (by simp)⟩
  | [] | [_] | [_, _] | _ :: _ :: _ :: _ :: _ => exact fine_argumentCount 3 _

end Arguments

/-- The payload of a box that was made, whose items are there too. -/
theorem fine_payload (sound : h.Sound) {x : Option Ref} (present : Present h x) :
    Fine (fun p => ∀ items, p = .list items → ∀ x ∈ items, Present h x) (payload h x) := by
  obtain ⟨v, rfl, -⟩ := present
  intro items isList
  exact (sound.box v).items items isList

theorem fine_argumentType {P : α → Prop} (position : Nat) (wanted : String) :
    Fine P (fails (.argumentType routine position wanted)) :=
  (by decide : CauseKind.type ∈ ordinaryKinds)

section Payloads

variable (sound : h.Sound) {x : Option Ref} (present : Present h x) (position : Nat)

include sound present

theorem fine_integerAt : Fine (fun _ => True) (integerAt h routine position x) := by
  refine (fine_payload sound present).bind fun p _ => ?_
  cases p with
  | integer => exact trivial
  | _ => exact fine_argumentType position _

theorem fine_textAt : Fine (fun _ => True) (textAt h routine position x) := by
  refine (fine_payload sound present).bind fun p _ => ?_
  cases p with
  | text => exact trivial
  | _ => exact fine_argumentType position _

theorem fine_numberAt : Fine (fun _ => True) (numberAt h routine position x) := by
  refine (fine_payload sound present).bind fun p _ => ?_
  cases p with
  | integer | real => exact trivial
  | _ => exact fine_argumentType position _

theorem fine_listAt :
    Fine (fun items => ∀ x ∈ items, Present h x) (listAt h routine position x) := by
  refine (fine_payload sound present).bind fun p all => ?_
  cases p with
  | list items => exact all items rfl
  | _ => exact fine_argumentType position _

end Payloads

theorem fine_textsFrom (sound : h.Sound) (position : Nat) (all : ∀ x ∈ args, Present h x) :
    Fine (fun _ => True) (textsFrom h routine position args) := by
  induction args generalizing position with
  | nil => exact trivial
  | cons x rest ih =>
    have first : Fine (fun _ => True) (textAt h routine position x) :=
      fine_textAt sound (all x (by simp)) position
    have others := ih (position + 1) fun x member => all x (by simp [member])
    rw [textsFrom]
    cases text : textAt h routine position x with
    | error failure =>
      rw [text] at first
      exact first
    | ok bytes =>
      cases texts : textsFrom h routine (position + 1) rest with
      | error failure =>
        rw [texts] at others
        exact others
      | ok texts => exact trivial

/-! ## The answers of the routines -/

/-- An answer names a box that was made. -/
def Answer.Sound (h : Heap) : Answer → Prop
  | .box r => r < h.size
  | _ => True

theorem Answer.sound_passed {x : Option Ref} (inside : ∀ v ∈ x, v < h.size) :
    (Answer.passed x).Sound h := by
  cases x with
  | none => exact trivial
  | some v => exact inside v rfl

theorem Present.inside {x : Option Ref} (present : Present h x) : ∀ v ∈ x, v < h.size := by
  obtain ⟨v, rfl, inside⟩ := present
  rintro w ⟨⟩
  exact inside

theorem Answer.sound_bool (canon : Canon.globals < h.size) (b : Bool) :
    (Answer.bool b).Sound h := by
  cases b
  · exact Nat.lt_trans (by decide) canon
  · exact Nat.lt_trans (by decide) canon

section Answers

variable (sound : h.Sound) (all : ∀ x ∈ args, Present h x)

include sound all

theorem fine_operands : Fine (fun _ => True) (operands h routine args) := by
  refine (fine_two all).bind ?_
  rintro ⟨x, y⟩ ⟨presentX, presentY⟩
  refine (fine_numberAt sound presentX 0).bind fun _ _ => ?_
  exact (fine_numberAt sound presentY 1).bind fun _ _ => trivial

theorem fine_arithmetic {onIntegers : Int64 → Int64 → Except Failure Int64}
    {onReals : Float → Float → Float}
    (fine : ∀ x y, Fine (fun _ => True) (onIntegers x y)) :
    Fine (Answer.Sound h) (arithmetic routine onIntegers onReals h args) := by
  refine (fine_operands sound all).bind ?_
  rintro (⟨x, y⟩ | ⟨x, y⟩) -
  · exact (fine x y).bind fun _ _ => trivial
  · exact trivial

theorem fine_div : Fine (Answer.Sound h) (div h args) := by
  refine fine_arithmetic sound all ?_
  intro x y
  split
  · exact (by decide : CauseKind.divideByZero ∈ ordinaryKinds)
  · exact trivial

theorem fine_less (canon : Canon.globals < h.size) : Fine (Answer.Sound h) (less h args) := by
  refine (fine_operands sound all).bind ?_
  rintro (⟨x, y⟩ | ⟨x, y⟩) -
  · exact Answer.sound_bool canon _
  · exact Answer.sound_bool canon _

omit sound in
theorem fine_equal (canon : Canon.globals < h.size) : Fine (Answer.Sound h) (equal h args) := by
  refine (fine_two all).bind ?_
  rintro ⟨x, y⟩ ⟨⟨v, rfl, -⟩, ⟨w, rfl, -⟩⟩
  exact Answer.sound_bool canon _

omit sound in
theorem fine_select : Fine (Answer.Sound h) (select h args) := by
  refine (fine_three all).bind ?_
  rintro ⟨condition, yes, no⟩ ⟨⟨v, rfl, -⟩, presentYes, presentNo⟩
  by_cases truthy : h.isTruthy v
  · simp only [truthy, if_true]
    exact Answer.sound_passed presentYes.inside
  · simp only [truthy, Bool.false_eq_true, if_false]
    exact Answer.sound_passed presentNo.inside

theorem fine_concat : Fine (Answer.Sound h) (concat h args) :=
  (fine_textsFrom sound 0 all).bind fun _ _ => trivial

theorem fine_length : Fine (Answer.Sound h) (length h args) := by
  refine (fine_one all).bind fun x present => ?_
  refine (fine_payload sound present).bind fun p _ => ?_
  cases p with
  | text | list => exact trivial
  | _ => exact fine_argumentType 0 _

theorem fine_join : Fine (Answer.Sound h) (join h args) := by
  refine (fine_two all).bind ?_
  rintro ⟨list, separator⟩ ⟨presentList, presentSeparator⟩
  refine (fine_listAt sound presentList 0).bind fun items present => ?_
  refine (fine_textAt sound presentSeparator 1).bind fun _ _ => ?_
  exact (fine_textsFrom sound 0 present).bind fun _ _ => trivial

theorem fine_upper : Fine (Answer.Sound h) (upper h args) := by
  refine (fine_one all).bind fun x present => ?_
  exact (fine_textAt sound present 0).bind fun _ _ => trivial

theorem fine_lower : Fine (Answer.Sound h) (lower h args) := by
  refine (fine_one all).bind fun x present => ?_
  exact (fine_textAt sound present 0).bind fun _ _ => trivial

/-- The getter of a list finds a list. -/
theorem fine_item {list : Ref} {items : List (Option Ref)}
    (isList : (h.box list).payload = .list items) : Fine (Answer.Sound h) (item h list args) := by
  refine (fine_one all).bind fun x present => ?_
  refine (fine_integerAt sound present 0).bind fun k _ => ?_
  simp only [isList]
  split
  · next x found =>
    split at found
    · have present : Present h x :=
        (sound.box list).items items isList x (List.mem_of_getElem? found)
      exact Answer.sound_passed present.inside
    · cases found
  · exact (by decide : CauseKind.index ∈ ordinaryKinds)

omit sound all in
theorem mem_of_find? {entries : List (Ref × Option Ref)} {key : Ref} {value : Option Ref}
    (found : find? h entries key = some value) :
    ∃ key', (key', value) ∈ entries ∧ h.equal key' key = true := by
  rw [find?] at found
  split at found
  · next same =>
    cases found
    obtain ⟨front, back, whole, -⟩ := List.lookup_eq_some_iff.mp same
    exact ⟨key, by rw [whole]; simp, by simp [Heap.equal]⟩
  · obtain ⟨p, isEntry, rfl⟩ := Option.map_eq_some_iff.mp found
    have equal := List.find?_some isEntry
    exact ⟨p.1, List.mem_of_find?_eq_some isEntry, equal⟩

/-- The getter of a dictionary finds a dictionary. -/
theorem fine_entry {dictionary : Ref} {entries : List (Ref × Option Ref)}
    (isDictionary : (h.box dictionary).payload = .dictionary entries) :
    Fine (Answer.Sound h) (entry h dictionary args) := by
  refine (fine_one all).bind ?_
  rintro x ⟨key, rfl, -⟩
  simp only [isDictionary]
  split
  · next value found =>
    obtain ⟨key', member, -⟩ := mem_of_find? found
    exact Answer.sound_passed ((sound.box dictionary).entries entries isDictionary _ member).2
  · exact (by decide : CauseKind.index ∈ ordinaryKinds)

end Answers

end Native

/-! ## Running a routine -/

/-- A routine of the language whose box, if it is a getter, has the payload
that it takes. -/
def Routine.Safe (h : Heap) : Routine → Prop
  | .item list => ∃ items, (h.box list).payload = .list items
  | .entry dictionary => ∃ entries, (h.box dictionary).payload = .dictionary entries
  | .host _ => False
  | _ => True

namespace Routine

variable {h : Heap} {routine : Routine}

theorem safe_shipped {x : String} (found : shippedRoutines.lookup x = some routine) :
    routine.Safe h := by
  have all : ∀ p ∈ shippedRoutines, p.2.Safe h := by
    simp [shippedRoutines, Safe]
  obtain ⟨front, back, whole, -⟩ := List.lookup_eq_some_iff.mp found
  exact all (x, routine) (by rw [whole]; simp)

theorem fine_answer (safe : routine.Safe h) (sound : h.Sound) (canon : Canon.globals < h.size)
    {args : List (Option Ref)} (all : ∀ x ∈ args, Native.Present h x) :
    Native.Fine (Native.Answer.Sound h) (routine.answer h args) := by
  cases routine with
  | add => exact Native.fine_arithmetic sound all fun _ _ => trivial
  | sub => exact Native.fine_arithmetic sound all fun _ _ => trivial
  | mul => exact Native.fine_arithmetic sound all fun _ _ => trivial
  | div => exact Native.fine_div sound all
  | less => exact Native.fine_less sound all canon
  | equal => exact Native.fine_equal all canon
  | select => exact Native.fine_select all
  | concat => exact Native.fine_concat sound all
  | length => exact Native.fine_length sound all
  | upper => exact Native.fine_upper sound all
  | lower => exact Native.fine_lower sound all
  | join => exact Native.fine_join sound all
  | item list =>
    obtain ⟨items, isList⟩ := safe
    exact Native.fine_item sound all isList
  | entry dictionary =>
    obtain ⟨entries, isDictionary⟩ := safe
    exact Native.fine_entry sound all isDictionary
  | host key => exact safe.elim

/-- What the answer of a routine leaves behind. -/
theorem sound_realize (sound : h.Sound) {answer : Native.Answer} (proper : answer.Sound h) :
    h.Keeps (answer.realize h).1 ∧ (answer.realize h).1.Sound ∧
      ∀ v ∈ (answer.realize h).2, v < (answer.realize h).1.size := by
  have made : ∀ {new : Heap × Ref}, h.Made new →
      h.Keeps new.1 ∧ new.1.Sound ∧ ∀ v ∈ some new.2, v < new.1.size := by
    intro new made
    refine ⟨made.keeps, made.sound, ?_⟩
    rintro v ⟨⟩
    exact made.inside
  cases answer with
  | box r =>
    refine ⟨.refl h, sound, ?_⟩
    rintro v ⟨⟩
    exact proper
  | nothing => exact ⟨.refl h, sound, nofun⟩
  | integer n => exact made (Heap.made_newInteger sound n)
  | real x => exact made (Heap.made_newReal sound x)
  | text bytes => exact made (Heap.made_newText sound bytes)

/-- A safe routine fails for an ordinary cause and leaves the heap alone, or
answers with a box of a sound heap in which no box has changed. -/
theorem run_safe {σ : Type} (host : Host σ) (safe : routine.Safe h) (sound : h.Sound)
    (canon : Canon.globals < h.size) {args : List (Option Ref)}
    (all : ∀ x ∈ args, Native.Present h x) (world : σ) :
    (∃ failure, routine.run host args h world = ⟨.error failure, h, world⟩ ∧ failure.Ordinary) ∨
    ∃ h' r, routine.run host args h world = ⟨.ok r, h', world⟩ ∧
      h.Keeps h' ∧ h'.Sound ∧ ∀ v ∈ r, v < h'.size := by
  have fine := fine_answer safe sound canon all
  have failed : ∀ failure, routine.answer h args = .error failure →
      routine.run host args h world = ⟨.error failure, h, world⟩ := by
    intro failure reply
    cases routine <;> simp only [run, reply]
    exact safe.elim
  have replied : ∀ answer, routine.answer h args = .ok answer →
      routine.run host args h world = ⟨.ok (answer.realize h).2, (answer.realize h).1, world⟩ := by
    intro answer reply
    cases routine <;> simp only [run, reply]
    exact safe.elim
  cases reply : routine.answer h args with
  | error failure =>
    rw [reply] at fine
    exact .inl ⟨failure, failed failure reply, fine⟩
  | ok answer =>
    rw [reply] at fine
    exact .inr ⟨_, _, replied answer reply, sound_realize sound fine⟩

end Routine

end BoxScript
