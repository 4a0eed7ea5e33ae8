import BoxScript.Proofs.Source.Token

/-!
# The grammar

    sequence := { [expr] ';' } [expr]
    expr     := postfix [ '=' expr ]
    postfix  := primary { '.' name | tuple }
    primary  := text | number | name | '{' sequence '}' | tuple [ '{' sequence '}' ]
    tuple    := '(' [ expr { ',' expr } ] ')'

A derivation is a tree with a constructor for each choice of these rules. It
determines the tokens that it derives and, unless it assigns to something that
is no variable, declares a parameter that is no name or has a number without a
value, the expressions that it denotes. No two derivations derive the same
tokens.
-/

set_option autoImplicit false

namespace BoxScript.Source.Grammar

mutual

inductive Sequence where
  | none
  /-- An empty statement. -/
  | skip (rest : Sequence)
  | last (e : Expression)
  | next (e : Expression) (rest : Sequence)

inductive Expression where
  | plain (e : Postfix)
  | assign (e : Postfix) (value : Expression)

inductive Postfix where
  | mk (head : Primary) (suffixes : Suffixes)

inductive Suffixes where
  | none
  | member (letters : Bytes) (rest : Suffixes)
  | call (arguments : Tuple) (rest : Suffixes)

inductive Primary where
  | text (quote : UInt8) (contents : Bytes)
  | number (literal : Bytes)
  | name (letters : Bytes)
  | box (body : Sequence)
  | list (items : Tuple)
  | method (params : Tuple) (body : Sequence)

inductive Tuple where
  | empty
  | items (items : Items)

inductive Items where
  | one (e : Expression)
  | more (e : Expression) (rest : Items)

end

/-! ## What a derivation derives -/

mutual

def Sequence.tokens : Sequence → List Token
  | .none => []
  | .skip rest => .mark semicolon :: rest.tokens
  | .last e => e.tokens
  | .next e rest => e.tokens ++ .mark semicolon :: rest.tokens

def Expression.tokens : Expression → List Token
  | .plain e => e.tokens
  | .assign e value => e.tokens ++ .mark equalSign :: value.tokens

def Postfix.tokens : Postfix → List Token
  | .mk head suffixes => head.tokens ++ suffixes.tokens

def Suffixes.tokens : Suffixes → List Token
  | .none => []
  | .member letters rest => .mark point :: .name letters :: rest.tokens
  | .call arguments rest => arguments.tokens ++ rest.tokens

def Primary.tokens : Primary → List Token
  | .text quote contents => [.text quote contents]
  | .number literal => [.number literal]
  | .name letters => [.name letters]
  | .box body => .mark openBrace :: (body.tokens ++ [.mark closeBrace])
  | .list items => items.tokens
  | .method params body =>
    params.tokens ++ .mark openBrace :: (body.tokens ++ [.mark closeBrace])

def Tuple.tokens : Tuple → List Token
  | .empty => [.mark openParen, .mark closeParen]
  | .items items => .mark openParen :: (items.tokens ++ [.mark closeParen])

def Items.tokens : Items → List Token
  | .one e => e.tokens
  | .more e rest => e.tokens ++ .mark comma :: rest.tokens

end

/-! ## What a derivation denotes -/

/-- The number that decimal digits spell. -/
def decimal : Bytes → Nat
  | [] => 0
  | b :: rest => (b.toNat - 0x30) * Nat.pow 10 rest.length + decimal rest

/-- The real number of digits with one point among them, rounded to a double. -/
def real? (negative : Bool) (body : Bytes) : Option Float :=
  let whole := body.takeWhile (· != point)
  let places := (body.dropWhile (· != point)).tail
  if point ∈ places then none
  else Decimal.toReal? negative (decimal (whole ++ places)) places.length

/-- An integer that fits into 64 bits. -/
def integer? (value : Int) : Option Int64 :=
  if -0x8000000000000000 ≤ value ∧ value ≤ 0x7FFFFFFFFFFFFFFF then some (Int64.ofInt value)
  else none

/-- The value of a number. Underscores do not count, and a point makes it real. -/
def number? (literal : Bytes) : Option Expr :=
  let (negative, body) := splitSign (literal.filter (· != underscore))
  if point ∈ body then (real? negative body).map .real
  else (integer? (if negative then -(decimal body : Int) else decimal body)).map .integer

/-- The names of bare names. -/
def names? : List Expr → Option (List String)
  | [] => some []
  | .name x :: items => (names? items).map (x :: ·)
  | _ :: _ => none

/-- The assignment of a value to what an expression denotes. -/
def assignment? : Expr → Expr → Option Expr
  | .name x, value => some (.assign x value)
  | .member target x, value => some (.assignMember target x value)
  | _, _ => none

mutual

def Sequence.meaning? : Sequence → Option (List Expr)
  | .none => some []
  | .skip rest => rest.meaning?
  | .last e => e.meaning?.map ([·])
  | .next e rest => e.meaning?.bind fun e => rest.meaning?.map (e :: ·)

def Expression.meaning? : Expression → Option Expr
  | .plain e => e.meaning?
  | .assign e value => e.meaning?.bind fun e => value.meaning?.bind (assignment? e)

def Postfix.meaning? : Postfix → Option Expr
  | .mk head suffixes => head.meaning?.bind suffixes.meaning?

/-- The expression that suffixes make of the one in front of them. -/
def Suffixes.meaning? : Suffixes → Expr → Option Expr
  | .none, e => some e
  | .member letters rest, e => rest.meaning? (.member e (Utf8.ascii letters))
  | .call arguments rest, e =>
    arguments.meaning?.bind fun items => rest.meaning? (.call e (.list items))

def Primary.meaning? : Primary → Option Expr
  | .text _ contents => some (.text contents)
  | .number literal => number? literal
  | .name letters => some (.name (Utf8.ascii letters))
  | .box body => body.meaning?.map fun es => .box (Expr.ofList es)
  | .list items => items.meaning?.map .list
  | .method params body =>
    (params.meaning?.bind names?).bind fun names =>
      body.meaning?.map fun es => .method names (Expr.ofList es)

def Tuple.meaning? : Tuple → Option (List Expr)
  | .empty => some []
  | .items items => items.meaning?

def Items.meaning? : Items → Option (List Expr)
  | .one e => e.meaning?.map ([·])
  | .more e rest => e.meaning?.bind fun e => rest.meaning?.map (e :: ·)

end

/-- The source has a derivation that denotes these expressions. -/
def Derives (s : Bytes) (es : List Expr) : Prop :=
  ∃ t : Sequence, Spells s t.tokens ∧ t.meaning? = some es

/-! ## Derivations are unique -/

/-- The tokens that can stand behind an expression. -/
def enders : List Token := [.mark semicolon, .mark comma, .mark closeParen, .mark closeBrace]

theorem Tuple.tokens_start (items : Tuple) : ∃ ts, items.tokens = .mark openParen :: ts := by
  cases items <;> exact ⟨_, by rw [tokens]⟩

/-- The first token of a primary, which tells all its forms apart but lists and
methods. -/
def Primary.opening : Primary → Token
  | .text quote contents => .text quote contents
  | .number literal => .number literal
  | .name letters => .name letters
  | .box _ => .mark openBrace
  | .list _ => .mark openParen
  | .method _ _ => .mark openParen

theorem Primary.tokens_opening (e : Primary) : ∃ ts, e.tokens = e.opening :: ts := by
  cases e with
  | text | number | name | box => exact ⟨_, by rw [tokens, opening]⟩
  | list items =>
    obtain ⟨ts, starts⟩ := items.tokens_start
    exact ⟨ts, by rw [tokens, starts, opening]⟩
  | method params body =>
    obtain ⟨ts, starts⟩ := params.tokens_start
    exact ⟨_, by rw [tokens, starts, List.cons_append, opening]⟩

theorem Primary.opening_unique {e f : Primary} {rest rest' : List Token}
    (same : e.tokens ++ rest = f.tokens ++ rest') : e.opening = f.opening := by
  obtain ⟨ts, starts⟩ := e.tokens_opening
  obtain ⟨us, starts'⟩ := f.tokens_opening
  rw [starts, starts'] at same
  exact (List.cons.inj same).1

/-- The first token of an expression is none of those that can stand behind one. -/
theorem Primary.tokens_start (e : Primary) : ∃ t ts, e.tokens = t :: ts ∧ t ∉ enders := by
  obtain ⟨ts, starts⟩ := e.tokens_opening
  refine ⟨e.opening, ts, starts, ?_⟩
  cases e with
  | text | number | name => simp [enders, opening]
  | box | list | method =>
    rw [opening]
    decide

theorem Postfix.tokens_start (e : Postfix) : ∃ t ts, e.tokens = t :: ts ∧ t ∉ enders := by
  obtain ⟨head, suffixes⟩ := e
  obtain ⟨t, ts, starts, other⟩ := head.tokens_start
  exact ⟨t, ts ++ suffixes.tokens, by rw [tokens, starts, List.cons_append], other⟩

theorem Expression.tokens_start (e : Expression) : ∃ t ts, e.tokens = t :: ts ∧ t ∉ enders := by
  cases e with
  | plain e =>
    obtain ⟨t, ts, starts, other⟩ := e.tokens_start
    exact ⟨t, ts, by rw [tokens, starts], other⟩
  | assign e value =>
    obtain ⟨t, ts, starts, other⟩ := e.tokens_start
    exact ⟨t, _, by rw [tokens, starts, List.cons_append], other⟩

theorem Items.tokens_start (items : Items) : ∃ t ts, items.tokens = t :: ts ∧ t ∉ enders := by
  cases items with
  | one e =>
    obtain ⟨t, ts, starts, other⟩ := e.tokens_start
    exact ⟨t, ts, by rw [tokens, starts], other⟩
  | more e rest =>
    obtain ⟨t, ts, starts, other⟩ := e.tokens_start
    exact ⟨t, _, by rw [tokens, starts, List.cons_append], other⟩

/-- The tokens behind a part, of which only the first matters. -/
def Behind (allowed : List Token) (rest : List Token) : Prop := ∀ t ∈ rest.head?, t ∈ allowed

namespace Behind

variable {allowed more rest ts : List Token} {t : Token}

theorem head (behind : Behind allowed rest) (starts : rest = t :: ts) : t ∈ allowed :=
  behind t (by simp [starts])

theorem mono (behind : Behind allowed rest) (within : allowed ⊆ more) : Behind more rest :=
  fun t first => within (behind t first)

theorem cons (member : t ∈ allowed) : Behind allowed (t :: ts) := by
  intro u first
  cases first
  exact member

end Behind

/-- No expression starts what stands behind one. -/
theorem Expression.not_behind (e : Expression) {rest ts : List Token} (ends : Behind enders rest) :
    rest ≠ e.tokens ++ ts := by
  rintro rfl
  obtain ⟨t, us, starts, other⟩ := e.tokens_start
  rw [starts] at ends
  exact other (ends.head rfl)

/-- Suffixes and what stands behind them do not start with a brace. -/
theorem Suffixes.behind (suffixes : Suffixes) {rest : List Token}
    (ends : Behind (.mark equalSign :: enders) rest) :
    Behind (.mark point :: .mark openParen :: .mark equalSign :: enders)
      (suffixes.tokens ++ rest) := by
  cases suffixes with
  | none => exact ends.mono (by simp)
  | member letters others =>
    rw [tokens]
    exact .cons (by simp)
  | call arguments others =>
    obtain ⟨ts, starts⟩ := arguments.tokens_start
    rw [tokens, starts]
    exact .cons (by simp)

mutual

/-- A sequence is determined by tokens that start with it and go on with the
end of the source or a closing brace. The same is said below of the other
rules; each is by induction on the first derivation and looks at the token that
tells the second one apart. -/
theorem Sequence.tokens_unique : ∀ (t u : Sequence) (rest rest' : List Token),
    Behind [.mark closeBrace] rest → Behind [.mark closeBrace] rest' →
    t.tokens ++ rest = u.tokens ++ rest' → t = u ∧ rest = rest'
  | .none, u, rest, rest', ends, _, same => by
    cases u with
    | none => exact ⟨rfl, same⟩
    | skip others =>
      rw [Sequence.tokens, Sequence.tokens, List.nil_append] at same
      exact absurd (ends.head same) (by decide)
    | last f =>
      rw [Sequence.tokens, Sequence.tokens, List.nil_append] at same
      exact absurd same (f.not_behind (ends.mono (by decide)))
    | next f others =>
      rw [Sequence.tokens, Sequence.tokens, List.nil_append, List.append_assoc] at same
      exact absurd same (f.not_behind (ends.mono (by decide)))
  | .skip others, u, rest, rest', ends, ends', same => by
    cases u with
    | none =>
      rw [Sequence.tokens, Sequence.tokens, List.nil_append] at same
      exact absurd (ends'.head same.symm) (by decide)
    | skip others' =>
      rw [Sequence.tokens, Sequence.tokens] at same
      obtain ⟨rfl, rfl⟩ :=
        Sequence.tokens_unique others others' rest rest' ends ends' (List.cons.inj same).2
      exact ⟨rfl, rfl⟩
    | last f =>
      rw [Sequence.tokens, Sequence.tokens] at same
      exact absurd same (f.not_behind (.cons (by decide)))
    | next f others' =>
      rw [Sequence.tokens, Sequence.tokens, List.append_assoc] at same
      exact absurd same (f.not_behind (.cons (by decide)))
  | .last e, u, rest, rest', ends, ends', same => by
    have ender : Behind enders rest := ends.mono (by decide)
    cases u with
    | none =>
      rw [Sequence.tokens, Sequence.tokens, List.nil_append] at same
      exact absurd same.symm (e.not_behind (ends'.mono (by decide)))
    | skip others' =>
      rw [Sequence.tokens, Sequence.tokens] at same
      exact absurd same.symm (e.not_behind (.cons (by decide)))
    | last f =>
      rw [Sequence.tokens, Sequence.tokens] at same
      obtain ⟨rfl, rfl⟩ := Expression.tokens_unique e f rest rest' ender (ends'.mono (by decide)) same
      exact ⟨rfl, rfl⟩
    | next f others' =>
      rw [Sequence.tokens, Sequence.tokens, List.append_assoc] at same
      obtain ⟨rfl, rfl⟩ := Expression.tokens_unique e f _ _ ender (.cons (by decide)) same
      exact absurd (ends.head rfl) (by decide)
  | .next e others, u, rest, rest', ends, ends', same => by
    cases u with
    | none =>
      rw [Sequence.tokens, Sequence.tokens, List.nil_append, List.append_assoc] at same
      exact absurd same.symm (e.not_behind (ends'.mono (by decide)))
    | skip others' =>
      rw [Sequence.tokens, Sequence.tokens, List.append_assoc] at same
      exact absurd same.symm (e.not_behind (.cons (by decide)))
    | last f =>
      rw [Sequence.tokens, Sequence.tokens, List.append_assoc] at same
      obtain ⟨rfl, rfl⟩ :=
        Expression.tokens_unique e f _ _ (.cons (by decide)) (ends'.mono (by decide)) same
      exact absurd (ends'.head rfl) (by decide)
    | next f others' =>
      rw [Sequence.tokens, Sequence.tokens, List.append_assoc, List.append_assoc] at same
      obtain ⟨rfl, left⟩ :=
        Expression.tokens_unique e f _ _ (.cons (by decide)) (.cons (by decide)) same
      obtain ⟨rfl, rfl⟩ :=
        Sequence.tokens_unique others others' rest rest' ends ends' (List.cons.inj left).2
      exact ⟨rfl, rfl⟩

theorem Expression.tokens_unique : ∀ (t u : Expression) (rest rest' : List Token),
    Behind enders rest → Behind enders rest' →
    t.tokens ++ rest = u.tokens ++ rest' → t = u ∧ rest = rest'
  | .plain e, u, rest, rest', ends, ends', same => by
    have ender : Behind (.mark equalSign :: enders) rest := ends.mono (by simp)
    cases u with
    | plain f =>
      rw [Expression.tokens, Expression.tokens] at same
      obtain ⟨rfl, rfl⟩ := Postfix.tokens_unique e f rest rest' ender (ends'.mono (by simp)) same
      exact ⟨rfl, rfl⟩
    | assign f value =>
      rw [Expression.tokens, Expression.tokens, List.append_assoc] at same
      obtain ⟨rfl, rfl⟩ := Postfix.tokens_unique e f _ _ ender (.cons (by simp)) same
      exact absurd (ends.head rfl) (by decide)
  | .assign e value, u, rest, rest', ends, ends', same => by
    cases u with
    | plain f =>
      rw [Expression.tokens, Expression.tokens, List.append_assoc] at same
      obtain ⟨rfl, rfl⟩ :=
        Postfix.tokens_unique e f _ _ (.cons (by simp)) (ends'.mono (by simp)) same
      exact absurd (ends'.head rfl) (by decide)
    | assign f value' =>
      rw [Expression.tokens, Expression.tokens, List.append_assoc, List.append_assoc] at same
      obtain ⟨rfl, left⟩ :=
        Postfix.tokens_unique e f _ _ (.cons (by simp)) (.cons (by simp)) same
      obtain ⟨rfl, rfl⟩ :=
        Expression.tokens_unique value value' rest rest' ends ends' (List.cons.inj left).2
      exact ⟨rfl, rfl⟩

theorem Postfix.tokens_unique : ∀ (t u : Postfix) (rest rest' : List Token),
    Behind (.mark equalSign :: enders) rest → Behind (.mark equalSign :: enders) rest' →
    t.tokens ++ rest = u.tokens ++ rest' → t = u ∧ rest = rest'
  | .mk head suffixes, .mk head' suffixes', rest, rest', ends, ends', same => by
    rw [Postfix.tokens, Postfix.tokens, List.append_assoc, List.append_assoc] at same
    obtain ⟨rfl, left⟩ :=
      Primary.tokens_unique head head' _ _ (suffixes.behind ends) (suffixes'.behind ends') same
    obtain ⟨rfl, rfl⟩ := Suffixes.tokens_unique suffixes suffixes' rest rest' ends ends' left
    exact ⟨rfl, rfl⟩

theorem Suffixes.tokens_unique : ∀ (t u : Suffixes) (rest rest' : List Token),
    Behind (.mark equalSign :: enders) rest → Behind (.mark equalSign :: enders) rest' →
    t.tokens ++ rest = u.tokens ++ rest' → t = u ∧ rest = rest'
  | .none, u, rest, rest', ends, _, same => by
    cases u with
    | none => exact ⟨rfl, same⟩
    | member letters others =>
      rw [Suffixes.tokens, Suffixes.tokens, List.nil_append] at same
      exact absurd (ends.head same) (by decide)
    | call arguments others =>
      obtain ⟨ts, starts⟩ := arguments.tokens_start
      rw [Suffixes.tokens, Suffixes.tokens, List.nil_append, starts] at same
      exact absurd (ends.head same) (by decide)
  | .member letters others, u, rest, rest', ends, ends', same => by
    cases u with
    | none =>
      rw [Suffixes.tokens, Suffixes.tokens, List.nil_append] at same
      exact absurd (ends'.head same.symm) (by decide)
    | member letters' others' =>
      rw [Suffixes.tokens, Suffixes.tokens] at same
      obtain ⟨name, left⟩ := List.cons.inj (List.cons.inj same).2
      obtain ⟨rfl⟩ := Token.name.inj name
      obtain ⟨rfl, rfl⟩ := Suffixes.tokens_unique others others' rest rest' ends ends' left
      exact ⟨rfl, rfl⟩
    | call arguments others' =>
      obtain ⟨ts, starts⟩ := arguments.tokens_start
      rw [Suffixes.tokens, Suffixes.tokens, starts] at same
      exact absurd (List.cons.inj same).1 (by decide)
  | .call arguments others, u, rest, rest', ends, ends', same => by
    cases u with
    | none =>
      obtain ⟨ts, starts⟩ := arguments.tokens_start
      rw [Suffixes.tokens, Suffixes.tokens, List.nil_append, starts] at same
      exact absurd (ends'.head same.symm) (by decide)
    | member letters others' =>
      obtain ⟨ts, starts⟩ := arguments.tokens_start
      rw [Suffixes.tokens, Suffixes.tokens, starts] at same
      exact absurd (List.cons.inj same).1 (by decide)
    | call arguments' others' =>
      rw [Suffixes.tokens, Suffixes.tokens, List.append_assoc, List.append_assoc] at same
      obtain ⟨rfl, left⟩ := Tuple.tokens_unique arguments arguments' _ _ same
      obtain ⟨rfl, rfl⟩ := Suffixes.tokens_unique others others' rest rest' ends ends' left
      exact ⟨rfl, rfl⟩

theorem Primary.tokens_unique : ∀ (t u : Primary) (rest rest' : List Token),
    Behind (.mark point :: .mark openParen :: .mark equalSign :: enders) rest →
    Behind (.mark point :: .mark openParen :: .mark equalSign :: enders) rest' →
    t.tokens ++ rest = u.tokens ++ rest' → t = u ∧ rest = rest'
  | .text quote contents, u, rest, rest', _, _, same => by
    have opening := Primary.opening_unique same
    cases u with
    | text quote' contents' => simpa [Primary.tokens] using same
    | _ => cases opening
  | .number literal, u, rest, rest', _, _, same => by
    have opening := Primary.opening_unique same
    cases u with
    | number literal' => simpa [Primary.tokens] using same
    | _ => cases opening
  | .name letters, u, rest, rest', _, _, same => by
    have opening := Primary.opening_unique same
    cases u with
    | name letters' => simpa [Primary.tokens] using same
    | _ => cases opening
  | .box body, u, rest, rest', _, _, same => by
    have opening := Primary.opening_unique same
    cases u with
    | box body' =>
      rw [Primary.tokens, Primary.tokens, List.cons_append, List.cons_append, List.append_assoc,
        List.append_assoc] at same
      obtain ⟨rfl, left⟩ := Sequence.tokens_unique body body' _ _ (.cons (by decide))
        (.cons (by decide)) (List.cons.inj same).2
      exact ⟨rfl, (List.cons.inj left).2⟩
    | _ => cases opening
  | .list items, u, rest, rest', ends, ends', same => by
    have opening := Primary.opening_unique same
    cases u with
    | list items' =>
      rw [Primary.tokens, Primary.tokens] at same
      obtain ⟨rfl, rfl⟩ := Tuple.tokens_unique items items' rest rest' same
      exact ⟨rfl, rfl⟩
    | method params body =>
      rw [Primary.tokens, Primary.tokens, List.append_assoc] at same
      obtain ⟨rfl, left⟩ := Tuple.tokens_unique items params _ _ same
      exact absurd (ends.head left) (by decide)
    | _ => cases opening
  | .method params body, u, rest, rest', ends, ends', same => by
    have opening := Primary.opening_unique same
    cases u with
    | list items =>
      rw [Primary.tokens, Primary.tokens, List.append_assoc] at same
      obtain ⟨rfl, left⟩ := Tuple.tokens_unique params items _ _ same
      exact absurd (ends'.head left.symm) (by decide)
    | method params' body' =>
      rw [Primary.tokens, Primary.tokens, List.append_assoc, List.append_assoc, List.cons_append,
        List.cons_append, List.append_assoc, List.append_assoc] at same
      obtain ⟨rfl, left⟩ := Tuple.tokens_unique params params' _ _ same
      obtain ⟨rfl, closed⟩ := Sequence.tokens_unique body body' _ _ (.cons (by decide))
        (.cons (by decide)) (List.cons.inj left).2
      exact ⟨rfl, (List.cons.inj closed).2⟩
    | _ => cases opening

theorem Tuple.tokens_unique : ∀ (t u : Tuple) (rest rest' : List Token),
    t.tokens ++ rest = u.tokens ++ rest' → t = u ∧ rest = rest'
  | .empty, u, rest, rest', same => by
    cases u with
    | empty =>
      rw [Tuple.tokens] at same
      exact ⟨rfl, (List.cons.inj (List.cons.inj same).2).2⟩
    | items items =>
      obtain ⟨t, ts, starts, other⟩ := items.tokens_start
      rw [Tuple.tokens, Tuple.tokens, starts] at same
      rw [← (List.cons.inj (List.cons.inj same).2).1] at other
      exact absurd (by decide) other
  | .items items, u, rest, rest', same => by
    cases u with
    | empty =>
      obtain ⟨t, ts, starts, other⟩ := items.tokens_start
      rw [Tuple.tokens, Tuple.tokens, starts] at same
      rw [(List.cons.inj (List.cons.inj same).2).1] at other
      exact absurd (by decide) other
    | items items' =>
      rw [Tuple.tokens, Tuple.tokens, List.cons_append, List.cons_append, List.append_assoc,
        List.append_assoc] at same
      obtain ⟨rfl, rfl⟩ := Items.tokens_unique items items' rest rest' (List.cons.inj same).2
      exact ⟨rfl, rfl⟩

theorem Items.tokens_unique : ∀ (t u : Items) (rest rest' : List Token),
    t.tokens ++ .mark closeParen :: rest = u.tokens ++ .mark closeParen :: rest' →
    t = u ∧ rest = rest'
  | .one e, u, rest, rest', same => by
    cases u with
    | one f =>
      rw [Items.tokens, Items.tokens] at same
      obtain ⟨rfl, left⟩ :=
        Expression.tokens_unique e f _ _ (.cons (by decide)) (.cons (by decide)) same
      exact ⟨rfl, (List.cons.inj left).2⟩
    | more f others =>
      rw [Items.tokens, Items.tokens, List.append_assoc] at same
      obtain ⟨rfl, left⟩ :=
        Expression.tokens_unique e f _ _ (.cons (by decide)) (.cons (by decide)) same
      exact absurd (List.cons.inj left).1 (by decide)
  | .more e others, u, rest, rest', same => by
    cases u with
    | one f =>
      rw [Items.tokens, Items.tokens, List.append_assoc] at same
      obtain ⟨rfl, left⟩ :=
        Expression.tokens_unique e f _ _ (.cons (by decide)) (.cons (by decide)) same
      exact absurd (List.cons.inj left).1 (by decide)
    | more f others' =>
      rw [Items.tokens, Items.tokens, List.append_assoc, List.append_assoc] at same
      obtain ⟨rfl, left⟩ :=
        Expression.tokens_unique e f _ _ (.cons (by decide)) (.cons (by decide)) same
      obtain ⟨rfl, rfl⟩ := Items.tokens_unique others others' rest rest' (List.cons.inj left).2
      exact ⟨rfl, rfl⟩

end

/-- A source has at most one derivation. -/
theorem Sequence.unique {s : Bytes} {t u : Sequence} (first : Spells s t.tokens)
    (second : Spells s u.tokens) : t = u := by
  have same := Reads.unique (spells_iff_reads.mp first) (spells_iff_reads.mp second)
  exact (Sequence.tokens_unique t u [] [] nofun nofun (by rw [same])).1

end BoxScript.Source.Grammar
