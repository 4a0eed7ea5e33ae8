import BoxScript.Proofs.Safety.Absence
import BoxScript.Proofs.Text.WellFormed

/-!
# The texts of a session

A source is any bytes, and so is a literal in it. But a literal is repaired when
it is evaluated, and from well-formed texts the routines of the language make
well-formed ones. So every text on the heap of a session is well formed, and the
lengths that the language reports add up when texts are put together.
-/

set_option autoImplicit false

namespace BoxScript

open Utf8 (WellFormed count)

/-- The bytes of a text. -/
def Box.text? (b : Box) : Option Bytes :=
  match b.payload with
  | .text bytes => some bytes
  | _ => none

theorem Box.payload_of_text? {b : Box} {bytes : Bytes} (found : b.text? = some bytes) :
    b.payload = .text bytes := by
  unfold Box.text? at found
  split at found
  · next isText =>
    cases found
    exact isText
  · cases found

/-- A box holds a text. -/
def Heap.Spells (h : Heap) (r : Ref) (bytes : Bytes) : Prop := (h.box r).text? = some bytes

/-- All texts are well formed. -/
def Heap.WellSpelled (h : Heap) : Prop :=
  h.Throughout fun _ payload => ∀ bytes, payload = .text bytes → WellFormed bytes

/-- What comes with other boxes is no text. -/
theorem Heap.WellSpelled.usual :
    Usual fun _ payload => ∀ bytes, payload = .text bytes → WellFormed bytes where
  empty := nofun
  list _ := nofun
  getter _ := nofun
  integer _ := nofun

namespace Native

/-! ## Answers that are well formed -/

section Computations

variable {α β : Type} {P : α → Prop} {Q : β → Prop}

/-- What a computation comes to, unless it fails. -/
def Gives (P : α → Prop) : Except Failure α → Prop
  | .ok a => P a
  | .error _ => True

theorem Gives.bind {x : Except Failure α} {f : α → Except Failure β} (first : Gives P x)
    (second : ∀ a, P a → Gives Q (f a)) : Gives Q (x >>= f) := by
  cases x with
  | error failure => trivial
  | ok a => exact second a first

/-- Where nothing needs to be known of the first part. -/
theorem gives_bind {x : Except Failure α} {f : α → Except Failure β}
    (second : ∀ a, Gives Q (f a)) : Gives Q (x >>= f) := by
  have first : Gives (fun _ => True) x := by cases x <;> trivial
  exact first.bind fun a _ => second a

end Computations

/-- An answer that is well formed if it is a text. -/
def Answer.WellSpelled : Answer → Prop
  | .text bytes => WellFormed bytes
  | _ => True

theorem Answer.wellSpelled_passed (x : Option Ref) : (Answer.passed x).WellSpelled := by
  cases x with
  | none => trivial
  | some r => trivial

variable {h : Heap} {args : List (Option Ref)}

/-! The routines that answer with numbers and with boxes that are there. -/

theorem gives_arithmetic (routine : String) (onIntegers : Int64 → Int64 → Except Failure Int64)
    (onReals : Float → Float → Float) :
    Gives Answer.WellSpelled (arithmetic routine onIntegers onReals h args) := by
  apply gives_bind
  intro operands
  cases operands with
  | integers x y => exact gives_bind fun _ => trivial
  | reals x y => trivial

theorem gives_less : Gives Answer.WellSpelled (less h args) := by
  apply gives_bind
  intro operands
  cases operands with
  | integers x y => trivial
  | reals x y => trivial

theorem gives_equal : Gives Answer.WellSpelled (equal h args) := by
  apply gives_bind
  intro pair
  exact gives_bind fun _ => trivial

theorem gives_select : Gives Answer.WellSpelled (select h args) := by
  apply gives_bind
  intro ⟨condition, yes, no⟩
  cases condition with
  | none => trivial
  | some condition => exact Answer.wellSpelled_passed _

theorem gives_length : Gives Answer.WellSpelled (length h args) := by
  apply gives_bind
  intro x
  apply gives_bind
  intro p
  cases p with
  | text bytes => trivial
  | list items => trivial
  | _ => trivial

theorem gives_item (list : Ref) : Gives Answer.WellSpelled (item h list args) := by
  apply gives_bind
  intro x
  apply gives_bind
  intro k
  split
  · split
    · exact Answer.wellSpelled_passed _
    · trivial
  · trivial

theorem gives_entry (dictionary : Ref) : Gives Answer.WellSpelled (entry h dictionary args) := by
  apply gives_bind
  intro key
  split
  · split
    · exact Answer.wellSpelled_passed _
    · trivial
  · split
    · trivial
    · trivial
  · trivial

/-! The routines that answer with texts. -/

section Texts

variable (spelled : h.WellSpelled)

include spelled

theorem gives_payload (x : Option Ref) :
    Gives (fun p => ∀ bytes, p = .text bytes → WellFormed bytes) (payload h x) := by
  cases x with
  | none => trivial
  | some r => exact spelled r

theorem gives_textAt (routine : String) (position : Nat) (x : Option Ref) :
    Gives WellFormed (textAt h routine position x) := by
  apply (gives_payload spelled x).bind
  intro p wellFormed
  cases p with
  | text bytes => exact wellFormed bytes rfl
  | _ => trivial

theorem gives_textsFrom (routine : String) (position : Nat) (xs : List (Option Ref)) :
    Gives (fun texts => ∀ s ∈ texts, WellFormed s) (textsFrom h routine position xs) := by
  induction xs generalizing position with
  | nil => exact nofun
  | cons x rest ih =>
    have first := gives_textAt spelled routine position x
    have others := ih (position + 1)
    rw [textsFrom]
    cases text : textAt h routine position x with
    | error failure => trivial
    | ok bytes =>
      cases texts : textsFrom h routine (position + 1) rest with
      | error failure => trivial
      | ok texts' =>
        rw [text] at first
        rw [texts] at others
        intro s member
        rcases List.mem_cons.mp member with rfl | member
        · exact first
        · exact others s member

theorem gives_concat : Gives Answer.WellSpelled (concat h args) :=
  (gives_textsFrom spelled _ _ _).bind fun _ each => Utf8.wellFormed_flatten each

theorem gives_join : Gives Answer.WellSpelled (join h args) := by
  apply gives_bind
  intro ⟨list, separator⟩
  apply gives_bind
  intro items
  apply (gives_textAt spelled _ _ _).bind
  intro separator between
  apply (gives_textsFrom spelled _ _ _).bind
  intro texts each
  exact Utf8.wellFormed_joined each between

theorem gives_upper : Gives Answer.WellSpelled (upper h args) := by
  apply gives_bind
  intro x
  apply (gives_textAt spelled _ _ _).bind
  intro bytes wellFormed
  exact Casing.wellFormed_upper wellFormed

theorem gives_lower : Gives Answer.WellSpelled (lower h args) := by
  apply gives_bind
  intro x
  apply (gives_textAt spelled _ _ _).bind
  intro bytes wellFormed
  exact Casing.wellFormed_lower wellFormed

end Texts

end Native

/-- No routine of the language makes an ill-formed text of well-formed ones. -/
theorem Routine.gives_answer {h : Heap} (spelled : h.WellSpelled) (routine : Routine)
    (args : List (Option Ref)) : Native.Gives Native.Answer.WellSpelled (routine.answer h args) := by
  cases routine with
  | add => exact Native.gives_arithmetic _ _ _
  | sub => exact Native.gives_arithmetic _ _ _
  | mul => exact Native.gives_arithmetic _ _ _
  | div => exact Native.gives_arithmetic _ _ _
  | less => exact Native.gives_less
  | equal => exact Native.gives_equal
  | select => exact Native.gives_select
  | concat => exact Native.gives_concat spelled
  | length => exact Native.gives_length
  | upper => exact Native.gives_upper spelled
  | lower => exact Native.gives_lower spelled
  | join => exact Native.gives_join spelled
  | item list => exact Native.gives_item list
  | entry dictionary => exact Native.gives_entry dictionary
  | host key => trivial

/-! ## Dispatches and sessions -/

namespace Machine

variable {σ : Type} {m : Machine σ} {f : Frame}

/-- A new text is a repaired literal or the answer of a routine. -/
theorem Wording.wellFormed {bytes : Bytes} (wording : Wording m f bytes)
    (spelled : m.heap.WellSpelled) : WellFormed bytes := by
  cases wording with
  | literal kind => exact Utf8.wellFormed_repair _
  | @answer routine args bytes answers =>
    have gives := routine.gives_answer spelled args
    rwa [answers] at gives

end Machine

section Lengths

variable {h : Heap} {refs : List Ref} {texts : List Bytes}

section OneText

variable {r : Ref} {bytes : Bytes} (spells : h.Spells r bytes)

include spells

theorem Heap.Spells.payload : Native.payload h (some r) = .ok (.text bytes) :=
  congrArg Except.ok (Box.payload_of_text? spells)

theorem Heap.Spells.wellFormed (spelled : h.WellSpelled) : WellFormed bytes :=
  spelled r bytes (Box.payload_of_text? spells)

theorem Heap.Spells.textAt (routine : String) (position : Nat) :
    Native.textAt h routine position (some r) = .ok bytes := by
  unfold Native.textAt
  rw [spells.payload]
  rfl

end OneText

section ManyTexts

variable (spell : List.Forall₂ h.Spells refs texts)

include spell

theorem Heap.WellSpelled.each (spelled : h.WellSpelled) : ∀ s ∈ texts, WellFormed s := by
  induction spell with
  | nil => exact nofun
  | cons first _ ih =>
    intro s member
    rcases List.mem_cons.mp member with rfl | member
    · exact first.wellFormed spelled
    · exact ih s member

end ManyTexts

end Lengths

end BoxScript
