import BoxScript.Proofs.Source.Grammar

/-!
# The shape of parsed expressions

Of the sixteen kinds of expressions a source yields eleven, and these not in
all combinations: calls have lists as arguments, names are names of the
language, and several expressions in order stand only in the body of a box or
method, where there are at least two of them.
-/

set_option autoImplicit false

namespace BoxScript.Source

/-- A name as it can be written in a source. -/
def IsIdentifier (x : String) : Prop := ∃ letters, IsName letters ∧ x = Utf8.ascii letters

/-- The expressions that sources yield. -/
inductive Parsed : Expr → Prop where
  | name {x : String} (proper : IsIdentifier x) : Parsed (.name x)
  | member {target : Expr} {x : String} (parsed : Parsed target) (proper : IsIdentifier x) :
      Parsed (.member target x)
  | assign {x : String} {value : Expr} (proper : IsIdentifier x) (parsed : Parsed value) :
      Parsed (.assign x value)
  | assignMember {target value : Expr} {x : String} (parsedTarget : Parsed target)
      (proper : IsIdentifier x) (parsedValue : Parsed value) : Parsed (.assignMember target x value)
  | call {target : Expr} {items : List Expr} (parsed : Parsed target)
      (all : ∀ e ∈ items, Parsed e) : Parsed (.call target (.list items))
  | box {body : Option Expr} {es : List Expr} (folded : body = Expr.ofList es)
      (all : ∀ e ∈ es, Parsed e) : Parsed (.box body)
  | method {params : List String} {body : Option Expr} {es : List Expr}
      (proper : ∀ x ∈ params, IsIdentifier x) (folded : body = Expr.ofList es)
      (all : ∀ e ∈ es, Parsed e) : Parsed (.method params body)
  | text (bytes : Bytes) : Parsed (.text bytes)
  | integer (n : Int64) : Parsed (.integer n)
  | real (x : Float) : Parsed (.real x)
  | list {items : List Expr} (all : ∀ e ∈ items, Parsed e) : Parsed (.list items)

namespace Grammar

theorem parsed_number {literal : Bytes} {e : Expr} (value : number? literal = some e) :
    Parsed e := by
  simp only [number?] at value
  split at value
  · obtain ⟨x, -, rfl⟩ := Option.map_eq_some_iff.mp value
    exact .real x
  · obtain ⟨n, -, rfl⟩ := Option.map_eq_some_iff.mp value
    exact .integer n

theorem parsed_assignment {target value e : Expr} (parsedTarget : Parsed target)
    (parsedValue : Parsed value) (assigned : assignment? target value = some e) : Parsed e := by
  cases parsedTarget with
  | name proper =>
    cases assigned
    exact .assign proper parsedValue
  | member parsed proper =>
    cases assigned
    exact .assignMember parsed proper parsedValue
  | _ => cases assigned

theorem identifiers_of_names {items : List Expr} {names : List String}
    (parsed : ∀ e ∈ items, Parsed e) (bare : names? items = some names) :
    ∀ x ∈ names, IsIdentifier x := by
  induction items generalizing names with
  | nil =>
    cases bare
    nofun
  | cons e items ih =>
    cases e with
    | name x =>
      obtain ⟨others, found, rfl⟩ := Option.map_eq_some_iff.mp bare
      cases parsed (.name x) (by simp) with
      | name proper =>
        intro y member
        rcases List.mem_cons.mp member with rfl | member
        · exact proper
        · exact ih (fun e member => parsed e (by simp [member])) found y member
    | _ => cases bare

/-- All tokens are well-formed. -/
def Proper (ts : List Token) : Prop := ∀ t ∈ ts, t.WellFormed

theorem Proper.left {ts us : List Token} (proper : Proper (ts ++ us)) : Proper ts :=
  fun t member => proper t (List.mem_append_left us member)

theorem Proper.right {ts us : List Token} (proper : Proper (ts ++ us)) : Proper us :=
  fun t member => proper t (List.mem_append_right ts member)

theorem Proper.tail {t : Token} {ts : List Token} (proper : Proper (t :: ts)) : Proper ts :=
  fun u member => proper u (List.mem_cons_of_mem t member)

mutual

/-- What a derivation of proper tokens denotes is parsed, by induction on the
derivation. -/
theorem Sequence.parsed : ∀ (t : Sequence) (es : List Expr), Proper t.tokens →
    t.meaning? = some es → ∀ e ∈ es, Parsed e
  | .none, es, _, meaning => by
    cases meaning
    nofun
  | .skip rest, es, proper, meaning => by
    rw [Sequence.tokens] at proper
    exact Sequence.parsed rest es proper.tail meaning
  | .last e, es, proper, meaning => by
    rw [Sequence.tokens] at proper
    rw [Sequence.meaning?] at meaning
    obtain ⟨e', denotes, rfl⟩ := Option.map_eq_some_iff.mp meaning
    intro f member
    rw [List.mem_singleton.mp member]
    exact Expression.parsed e e' proper denotes
  | .next e rest, es, proper, meaning => by
    rw [Sequence.tokens] at proper
    rw [Sequence.meaning?] at meaning
    obtain ⟨e', denotes, meaning⟩ := Option.bind_eq_some_iff.mp meaning
    obtain ⟨others, denote, rfl⟩ := Option.map_eq_some_iff.mp meaning
    intro f member
    rcases List.mem_cons.mp member with rfl | member
    · exact Expression.parsed e f proper.left denotes
    · exact Sequence.parsed rest others proper.right.tail denote f member

theorem Expression.parsed : ∀ (t : Expression) (e : Expr), Proper t.tokens →
    t.meaning? = some e → Parsed e
  | .plain t, e, proper, meaning => by
    rw [Expression.tokens] at proper
    exact Postfix.parsed t e proper meaning
  | .assign t value, e, proper, meaning => by
    rw [Expression.tokens] at proper
    rw [Expression.meaning?] at meaning
    obtain ⟨target, denotes, meaning⟩ := Option.bind_eq_some_iff.mp meaning
    obtain ⟨value', denotes', assigned⟩ := Option.bind_eq_some_iff.mp meaning
    exact parsed_assignment (Postfix.parsed t target proper.left denotes)
      (Expression.parsed value value' proper.right.tail denotes') assigned

theorem Postfix.parsed : ∀ (t : Postfix) (e : Expr), Proper t.tokens →
    t.meaning? = some e → Parsed e
  | .mk head suffixes, e, proper, meaning => by
    rw [Postfix.tokens] at proper
    rw [Postfix.meaning?] at meaning
    obtain ⟨front, denotes, meaning⟩ := Option.bind_eq_some_iff.mp meaning
    exact Suffixes.parsed suffixes front e proper.right
      (Primary.parsed head front proper.left denotes) meaning

theorem Suffixes.parsed : ∀ (t : Suffixes) (front e : Expr), Proper t.tokens → Parsed front →
    t.meaning? front = some e → Parsed e
  | .none, front, e, _, parsed, meaning => by
    cases meaning
    exact parsed
  | .member letters rest, front, e, proper, parsed, meaning => by
    rw [Suffixes.tokens] at proper
    have isName : IsName letters := proper (.name letters) (by simp)
    exact Suffixes.parsed rest _ e proper.tail.tail (.member parsed ⟨letters, isName, rfl⟩) meaning
  | .call arguments rest, front, e, proper, parsed, meaning => by
    rw [Suffixes.tokens] at proper
    rw [Suffixes.meaning?] at meaning
    obtain ⟨items, denote, meaning⟩ := Option.bind_eq_some_iff.mp meaning
    exact Suffixes.parsed rest _ e proper.right
      (.call parsed (Tuple.parsed arguments items proper.left denote)) meaning

theorem Primary.parsed : ∀ (t : Primary) (e : Expr), Proper t.tokens →
    t.meaning? = some e → Parsed e
  | .text _ contents, e, _, meaning => by
    cases meaning
    exact .text contents
  | .number literal, e, _, meaning => parsed_number meaning
  | .name letters, e, proper, meaning => by
    cases meaning
    rw [Primary.tokens] at proper
    exact .name ⟨letters, proper (.name letters) (by simp), rfl⟩
  | .box body, e, proper, meaning => by
    rw [Primary.tokens] at proper
    rw [Primary.meaning?] at meaning
    obtain ⟨es, denote, rfl⟩ := Option.map_eq_some_iff.mp meaning
    exact .box rfl (Sequence.parsed body es proper.tail.left denote)
  | .list items, e, proper, meaning => by
    rw [Primary.tokens] at proper
    rw [Primary.meaning?] at meaning
    obtain ⟨es, denote, rfl⟩ := Option.map_eq_some_iff.mp meaning
    exact .list (Tuple.parsed items es proper denote)
  | .method params body, e, proper, meaning => by
    rw [Primary.tokens] at proper
    rw [Primary.meaning?] at meaning
    obtain ⟨names, bare, meaning⟩ := Option.bind_eq_some_iff.mp meaning
    obtain ⟨items, denote, bare⟩ := Option.bind_eq_some_iff.mp bare
    obtain ⟨es, denote', rfl⟩ := Option.map_eq_some_iff.mp meaning
    exact .method (identifiers_of_names (Tuple.parsed params items proper.left denote) bare) rfl
      (Sequence.parsed body es proper.right.tail.left denote')

theorem Tuple.parsed : ∀ (t : Tuple) (es : List Expr), Proper t.tokens →
    t.meaning? = some es → ∀ e ∈ es, Parsed e
  | .empty, es, _, meaning => by
    cases meaning
    nofun
  | .items items, es, proper, meaning => by
    rw [Tuple.tokens] at proper
    exact Items.parsed items es proper.tail.left meaning

theorem Items.parsed : ∀ (t : Items) (es : List Expr), Proper t.tokens →
    t.meaning? = some es → ∀ e ∈ es, Parsed e
  | .one e, es, proper, meaning => by
    rw [Items.tokens] at proper
    rw [Items.meaning?] at meaning
    obtain ⟨e', denotes, rfl⟩ := Option.map_eq_some_iff.mp meaning
    intro f member
    rw [List.mem_singleton.mp member]
    exact Expression.parsed e e' proper denotes
  | .more e rest, es, proper, meaning => by
    rw [Items.tokens] at proper
    rw [Items.meaning?] at meaning
    obtain ⟨e', denotes, meaning⟩ := Option.bind_eq_some_iff.mp meaning
    obtain ⟨others, denote, rfl⟩ := Option.map_eq_some_iff.mp meaning
    intro f member
    rcases List.mem_cons.mp member with rfl | member
    · exact Expression.parsed e f proper.left denotes
    · exact Items.parsed rest others proper.right.tail denote f member

end

end Grammar

end BoxScript.Source
