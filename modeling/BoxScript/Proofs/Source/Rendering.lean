import BoxScript.Proofs.Expr.Occurrence
import BoxScript.Proofs.Source.Continuation
import BoxScript.Proofs.Source.Numerals

/-!
# Expressions written and read again

What is parsed from a source is written as a text that parses to the same
expression. The text has a derivation of its own, which differs from that of the
source: texts stand between double quotes, numbers are in their shortest form,
and a body of several expressions ends in a semicolon.

The text of an expression is read as its tokens in front of everything that does
not continue the last of them. A name or a bracket is not continued by a point,
but a number is, so no number may stand in front of the name of a member.
-/

set_option autoImplicit false

namespace BoxScript

namespace Expr

def isNumber : Expr → Bool
  | .integer _ => true
  | .real _ => true
  | _ => false

/-- What the text of an expression asks of it: a text needs no escape, a real has no
exponent and is what its text is read as, and a member belongs to no number. -/
def Legible : Expr → Prop
  | .text bytes => Quoted.Plain bytes
  | .real x => 'e' ∉ (Real.text x).toList ∧
      Source.numberValue (Utf8.encode (Real.text x)) = .ok (.real x)
  | .member target _ => target.isNumber = false
  | .assignMember target _ _ => target.isNumber = false
  | _ => True

/-- All that stands in the expression is legible. -/
def Renderable (e : Expr) : Prop := ∀ f, Occurs f e → f.Legible

theorem Renderable.occurring {f e : Expr} (renderable : e.Renderable) (occurs : Occurs f e) :
    f.Renderable :=
  fun g inner => renderable g (inner.trans occurs)

theorem Renderable.part {f e : Expr} (renderable : e.Renderable) (part : f ∈ e.parts) :
    f.Renderable :=
  renderable.occurring (.inside part .here)

theorem Renderable.of_parts {e : Expr} (legible : e.Legible) (parts : ∀ f ∈ e.parts, f.Renderable) :
    e.Renderable := by
  intro f occurs
  cases occurs with
  | here => exact legible
  | inside part inner => exact parts _ part f inner

theorem Renderable.of_body {e f : Expr} {es : List Expr} (renderable : e.Renderable)
    (parts : e.parts = (ofList es).toList) (member : f ∈ es) : f.Renderable := by
  obtain ⟨body, folded, occurs⟩ := occurs_ofList member
  have part : body ∈ e.parts := by rw [parts, folded]; simp
  exact renderable.occurring (occurs.trans (.inside part .here))

end Expr

namespace Source

open Grammar

/-! ## Texts and their tokens -/

/-- A text in front of some bytes is read as these tokens. -/
def Writes (text : String) (ts : List Token) (u : Bytes) : Prop :=
  Reads (Utf8.encode text ++ u) ts u

namespace Writes

variable {a b : String} {ts us : List Token} {u : Bytes}

theorem append (front : Writes a ts (Utf8.encode b ++ u)) (back : Writes b us u) :
    Writes (a ++ b) (ts ++ us) u := by
  rw [Writes, Utf8.encode_append, List.append_assoc]
  exact Reads.trans front back

theorem token {t : Token} (spelled : Utf8.encode a = t.lexeme) (proper : t.WellFormed)
    (ends : t.Ends u) : Writes a [t] u := by
  obtain ⟨first, lexeme, starts, -, solid⟩ := Token.first proper
  refine ⟨u, ?_, proper, ends, rfl⟩
  rw [spelled, starts, List.cons_append]
  exact skipSpace_eq_self solid

end Writes

/-- One mark among blanks. -/
theorem reads_mark {s : Bytes} {b : UInt8} (isMark : b ∈ marks) (u : Bytes)
    (only : s.filter (!isSpace ·) = [b]) : Reads (s ++ u) [.mark b] u := by
  induction s with
  | nil => cases only
  | cons c s ih =>
    by_cases blank : isSpace c = true
    · rw [List.filter_cons_of_neg (by simp [blank])] at only
      refine (ih only).of_skipSpace_eq ?_
      simp [skipSpace, blank]
    · rw [List.filter_cons_of_pos (by simpa using blank)] at only
      obtain ⟨rfl, rest⟩ := List.cons.inj only
      refine (Reads.mark_iff isMark).mpr ⟨s ++ u, skipSpace_eq_self blank, ?_⟩
      have blanks : ∀ d ∈ s, isSpace d = true := by simpa using rest
      change skipSpace (s ++ u) = skipSpace u
      rw [skipSpace, List.dropWhile_append_of_pos blanks]
      rfl

theorem writes_mark {a : String} {b : UInt8} (isMark : b ∈ marks) (u : Bytes)
    (only : (a.toList.flatMap String.utf8EncodeChar).filter (!isSpace ·) = [b]) :
    Writes a [.mark b] u := by
  rw [Writes, Utf8.encode_eq]
  exact reads_mark isMark u only

theorem writes_blank (u : Bytes) : Writes " " [] u := by
  rw [Writes, Utf8.encode_eq]
  rfl

/-- What starts with this text goes on with none of the tokens before it. -/
theorem separate_text {a : String} {b : UInt8} (u : Bytes)
    (head : (a.toList.flatMap String.utf8EncodeChar).head? = some b)
    (neither : continuesName b = false ∧ isSeparator b = false) : Separate (Utf8.encode a ++ u) := by
  refine .of_head (b := b) ?_ neither
  rw [Utf8.encode_eq, List.head?_append, head]
  rfl

/-! ## Expressions and their texts -/

/-- The bytes behind an expression do not continue its last token. -/
def Clear (e : Expr) (u : Bytes) : Prop :=
  ∀ b ∈ u.head?, continuesName b = false ∧ (e.isNumber = true → isSeparator b = false)

theorem Separate.clear {u : Bytes} (separate : Separate u) (e : Expr) : Clear e u := by
  intro b head
  have name := separate (.name []) b head
  have number := separate (.number []) b head
  simp only [not_or, Bool.not_eq_true] at name number
  exact ⟨name, fun _ => number.2⟩

/-- The text of the expression is that of an expression, and this one. -/
def Rewritten (e : Expr) : Prop :=
  ∃ t : Expression, t.meaning? = some e ∧ ∀ u, Separate u → Writes e.render t.tokens u

/-- The text of the expression is that of a postfix expression, and this one. -/
def RewrittenPostfix (e : Expr) : Prop :=
  ∃ t : Postfix, t.meaning? = some e ∧ ∀ u, Clear e u → Writes e.render t.tokens u

theorem RewrittenPostfix.rewritten {e : Expr} (rewritten : RewrittenPostfix e) : Rewritten e := by
  obtain ⟨t, meaning, writes⟩ := rewritten
  refine ⟨.plain t, meaning, fun u separate => ?_⟩
  rw [Expression.tokens]
  exact writes u (separate.clear e)

theorem rewrittenPostfix_of_primary {e : Expr} (t : Primary) (meaning : t.meaning? = some e)
    (writes : ∀ u, Clear e u → Writes e.render t.tokens u) : RewrittenPostfix e := by
  refine ⟨.mk t .none, ?_, fun u clear => ?_⟩
  · rw [Postfix.meaning?, meaning]
    rfl
  · rw [Postfix.tokens, Suffixes.tokens, List.append_nil]
    exact writes u clear

/-! ### Names, texts and numbers -/

theorem low_of_continuesName {b : UInt8} (continues : continuesName b = true) : b < 0x80 := by
  simp only [continuesName, startsName, isDigit, Bool.or_eq_true, Bool.and_eq_true,
    decide_eq_true_eq, beq_iff_eq, UInt8.le_iff_toNat_le, ← UInt8.toNat_inj,
    UInt8.reduceToNat] at continues
  change b.toNat < 128
  omega

theorem encode_name {letters : Bytes} (proper : IsName letters) :
    Utf8.encode (Utf8.ascii letters) = letters := by
  refine Utf8.encode_ascii fun b member => low_of_continuesName ?_
  cases letters with
  | nil => cases proper
  | cons c letters =>
    rcases List.mem_cons.mp member with rfl | member
    · rw [continuesName, proper.1]
      rfl
    · exact proper.2 b member

theorem writes_name {letters u : Bytes} (proper : IsName letters)
    (ends : ∀ b ∈ u.head?, continuesName b = false) :
    Writes (Utf8.ascii letters) [.name letters] u := by
  refine .token (encode_name proper) proper fun b head => ?_
  simp [ends b head]

theorem rewritten_name {x : String} (proper : IsIdentifier x) : RewrittenPostfix (.name x) := by
  obtain ⟨letters, isName, rfl⟩ := proper
  refine rewrittenPostfix_of_primary (.name letters) rfl fun u clear => ?_
  rw [Expr.render, Primary.tokens]
  exact writes_name isName fun b head => (clear b head).1

theorem rewritten_text {bytes : Bytes} (plain : Quoted.Plain bytes) :
    RewrittenPostfix (.text bytes) := by
  refine rewrittenPostfix_of_primary (.text doubleQuote bytes) rfl fun u _ => ?_
  rw [Expr.render, Primary.tokens]
  exact .token (Quoted.encode_text plain) ⟨by decide, plain.not_mem⟩ trivial

theorem rewritten_number {e : Expr} (isNumber : e.isNumber = true)
    (proper : IsNumber (Utf8.encode e.render)) (value : number? (Utf8.encode e.render) = some e) :
    RewrittenPostfix e := by
  refine rewrittenPostfix_of_primary (.number (Utf8.encode e.render)) value fun u clear => ?_
  rw [Primary.tokens]
  refine .token rfl proper fun b head => ?_
  obtain ⟨noName, noSeparator⟩ := clear b head
  simp only [continuesName, Bool.or_eq_false_iff] at noName
  simp [noName.2, noSeparator isNumber]

/-! ### Items and bodies -/

theorem items_rewritten {e : Expr} {es : List Expr} (all : ∀ f ∈ e :: es, Rewritten f) :
    ∃ t : Items, t.meaning? = some (e :: es) ∧
      ∀ u, Separate u → Writes (", ".intercalate (Expr.renderItems (e :: es))) t.tokens u := by
  induction es generalizing e with
  | nil =>
    obtain ⟨t, meaning, writes⟩ := all e (by simp)
    refine ⟨.one t, ?_, fun u separate => ?_⟩
    · rw [Items.meaning?, meaning]
      rfl
    · rw [Expr.renderItems, Expr.renderItems, String.intercalate_singleton, Items.tokens]
      exact writes u separate
  | cons f es ih =>
    obtain ⟨t, meaning, writes⟩ := all e (by simp)
    obtain ⟨t', meaning', writes'⟩ := ih fun g member => all g (List.mem_cons_of_mem e member)
    refine ⟨.more t t', ?_, fun u separate => ?_⟩
    · rw [Items.meaning?, meaning, meaning']
      rfl
    · rw [Expr.renderItems, Expr.renderItems, String.intercalate_cons_cons, Items.tokens,
        String.append_assoc]
      have between (v : Bytes) : Writes ", " [.mark comma] v := writes_mark (by decide) v rfl
      refine .append (writes _ ?_) ((between _).append (writes' u separate))
      rw [Utf8.encode_append, List.append_assoc]
      exact separate_text _ rfl (by decide)

theorem tuple_rewritten {es : List Expr} (all : ∀ e ∈ es, Rewritten e) :
    ∃ t : Tuple, t.meaning? = some es ∧
      ∀ u, Writes (Expr.tuple (Expr.renderItems es)) t.tokens u := by
  cases es with
  | nil =>
    refine ⟨.empty, rfl, fun u => ?_⟩
    rw [Expr.renderItems, Expr.tuple, String.intercalate_nil, String.append_empty, Tuple.tokens]
    have opens (v : Bytes) : Writes "(" [.mark openParen] v := writes_mark (by decide) v rfl
    have closes : Writes ")" [.mark closeParen] u := writes_mark (by decide) u rfl
    exact (opens _).append closes
  | cons e es =>
    obtain ⟨t, meaning, writes⟩ := items_rewritten all
    refine ⟨.items t, meaning, fun u => ?_⟩
    rw [Tuple.tokens]
    have close : Writes ")" [.mark closeParen] u := writes_mark (by decide) _ rfl
    have inner := (writes _ (separate_text u rfl (by decide))).append close
    rw [Expr.tuple, String.append_assoc]
    exact .append (writes_mark (by decide) _ rfl) inner

theorem statements_rewritten {e : Expr} {es : List Expr} (all : ∀ f ∈ e :: es, Rewritten f) :
    ∃ t : Sequence, t.meaning? = some (e :: es) ∧
      ∀ u, Writes (" ".intercalate (Expr.renderStatements (e :: es))) t.tokens u := by
  induction es generalizing e with
  | nil =>
    obtain ⟨t, meaning, writes⟩ := all e (by simp)
    refine ⟨.next t .none, ?_, fun u => ?_⟩
    · rw [Sequence.meaning?, meaning]
      rfl
    · rw [Expr.renderStatements, Expr.renderStatements, String.intercalate_singleton,
        Sequence.tokens, Sequence.tokens]
      exact .append (writes _ (separate_text u rfl (by decide))) (writes_mark (by decide) _ rfl)
  | cons f es ih =>
    obtain ⟨t, meaning, writes⟩ := all e (by simp)
    obtain ⟨t', meaning', writes'⟩ := ih fun g member => all g (List.mem_cons_of_mem e member)
    refine ⟨.next t t', ?_, fun u => ?_⟩
    · rw [Sequence.meaning?, meaning, meaning']
      rfl
    · rw [Expr.renderStatements, Expr.renderStatements, String.intercalate_cons_cons,
        Sequence.tokens, String.append_assoc, String.append_assoc]
      have separator (v : Bytes) : Writes ";" [.mark semicolon] v := writes_mark (by decide) v rfl
      refine .append (writes _ ?_) ((separator _).append ((writes_blank _).append (writes' u)))
      rw [Utf8.encode_append, List.append_assoc]
      exact separate_text _ rfl (by decide)

/-- The text of what a sequence is folded into is that of a sequence again. -/
theorem sequence_rewritten {es : List Expr} (all : ∀ e ∈ es, Rewritten e) {body : Expr}
    (folded : Expr.ofList es = some body) :
    ∃ t : Sequence, t.meaning? = some es ∧ ∀ u, Separate u → Writes body.render t.tokens u := by
  match es with
  | [] => cases folded
  | [e] =>
    cases folded
    obtain ⟨t, meaning, writes⟩ := all body (by simp)
    refine ⟨.last t, ?_, fun u separate => ?_⟩
    · rw [Sequence.meaning?, meaning]
      rfl
    · rw [Sequence.tokens]
      exact writes u separate
  | e :: f :: es =>
    cases folded
    obtain ⟨t, meaning, writes⟩ := statements_rewritten all
    refine ⟨t, meaning, fun u _ => ?_⟩
    rw [Expr.render]
    exact writes u

theorem braced_rewritten {es : List Expr} (all : ∀ e ∈ es, Rewritten e) :
    ∃ t : Sequence, t.meaning? = some es ∧ ∀ u,
      Writes (Expr.braced (Expr.renderBody (Expr.ofList es)))
        (.mark openBrace :: (t.tokens ++ [.mark closeBrace])) u := by
  cases folded : Expr.ofList es with
  | none =>
    match es with
    | [] =>
      refine ⟨.none, rfl, fun u => ?_⟩
      have opens (v : Bytes) : Writes "\x7b" [.mark openBrace] v := writes_mark (by decide) v rfl
      have closes : Writes "\x7d" [.mark closeBrace] u := writes_mark (by decide) u rfl
      exact (opens _).append closes
    | [_] => cases folded
    | _ :: _ :: _ => cases folded
  | some body =>
    obtain ⟨t, meaning, writes⟩ := sequence_rewritten all folded
    refine ⟨t, meaning, fun u => ?_⟩
    have closes : Writes " \x7d" [.mark closeBrace] u := writes_mark (by decide) _ rfl
    have inner := (writes _ (separate_text u rfl (by decide))).append closes
    have opens (v : Bytes) : Writes "\x7b " [.mark openBrace] v := writes_mark (by decide) v rfl
    rw [Expr.renderBody, Expr.braced, String.append_assoc]
    exact (opens _).append inner

/-! ### Members, calls and assignments -/

/-- Suffixes behind suffixes. -/
def Grammar.Suffixes.append : Suffixes → Suffixes → Suffixes
  | .none, others => others
  | .member letters rest, others => .member letters (rest.append others)
  | .call arguments rest, others => .call arguments (rest.append others)

theorem tokens_append : ∀ suffixes others : Suffixes,
    (suffixes.append others).tokens = suffixes.tokens ++ others.tokens
  | .none, others => rfl
  | .member letters rest, others => by
    rw [Suffixes.append, Suffixes.tokens, Suffixes.tokens, tokens_append rest others]
    rfl
  | .call arguments rest, others => by
    rw [Suffixes.append, Suffixes.tokens, Suffixes.tokens, tokens_append rest others,
      List.append_assoc]

theorem meaning?_append : ∀ (suffixes others : Suffixes) (front : Expr),
    (suffixes.append others).meaning? front = (suffixes.meaning? front).bind others.meaning?
  | .none, others, front => rfl
  | .member letters rest, others, front => meaning?_append rest others _
  | .call arguments rest, others, front => by
    rw [Suffixes.append, Suffixes.meaning?, Suffixes.meaning?]
    cases arguments.meaning? with
    | none => rfl
    | some items => exact meaning?_append rest others _

/-- One more suffix behind a postfix expression. -/
theorem rewritten_suffix {target e : Expr} {behind : String} (rewritten : RewrittenPostfix target)
    (suffix : Suffixes) (meaning : suffix.meaning? target = some e)
    (text : e.render = target.render ++ behind)
    (clear : ∀ u, Clear target (Utf8.encode behind ++ u))
    (writes : ∀ u, Clear e u → Writes behind suffix.tokens u) : RewrittenPostfix e := by
  obtain ⟨⟨head, suffixes⟩, front, writesFront⟩ := rewritten
  refine ⟨.mk head (suffixes.append suffix), ?_, fun u last => ?_⟩
  · rw [Postfix.meaning?] at front ⊢
    obtain ⟨first, denotes, others⟩ := Option.bind_eq_some_iff.mp front
    rw [denotes, Option.bind_some, meaning?_append, others]
    exact meaning
  · rw [text, Postfix.tokens, tokens_append, ← List.append_assoc]
    exact .append (writesFront _ (clear u)) (writes u last)

theorem rewritten_member {target : Expr} {x : String} (rewritten : RewrittenPostfix target)
    (other : target.isNumber = false) (proper : IsIdentifier x) :
    RewrittenPostfix (.member target x) := by
  obtain ⟨letters, isName, rfl⟩ := proper
  have text : (Expr.member target (Utf8.ascii letters)).render =
      target.render ++ ("." ++ Utf8.ascii letters) := by
    rw [Expr.render, String.append_assoc]
  refine rewritten_suffix rewritten (.member letters .none) rfl text ?_ ?_
  · intro u b head
    -- A point continues a number, and nothing else.
    rw [Utf8.encode_append, Utf8.encode_eq "."] at head
    cases head
    exact ⟨by decide, by simp [other]⟩
  · intro u clear
    rw [Suffixes.tokens, Suffixes.tokens]
    have dot (v : Bytes) : Writes "." [.mark point] v := writes_mark (by decide) v rfl
    exact (dot _).append (writes_name isName fun b head => (clear b head).1)

theorem rewritten_call {target : Expr} {items : List Expr} (rewritten : RewrittenPostfix target)
    (all : ∀ e ∈ items, Rewritten e) : RewrittenPostfix (.call target (.list items)) := by
  obtain ⟨arguments, meaning, writes⟩ := tuple_rewritten all
  have text : (Expr.call target (.list items)).render =
      target.render ++ Expr.tuple (Expr.renderItems items) := by
    rw [Expr.render]
  refine rewritten_suffix rewritten (.call arguments .none) ?_ text ?_ ?_
  · rw [Suffixes.meaning?, meaning]
    rfl
  · intro u b head
    rw [Expr.tuple, Utf8.encode_append, Utf8.encode_append, Utf8.encode_eq "("] at head
    cases head
    exact ⟨by decide, fun _ => by decide⟩
  · intro u _
    rw [Suffixes.tokens, Suffixes.tokens, List.append_nil]
    exact writes u

theorem rewritten_assignment {target value e : Expr} (assigned : assignment? target value = some e)
    (front : RewrittenPostfix target) (back : Rewritten value) : Rewritten e := by
  obtain ⟨t, meaning, writes⟩ := front
  obtain ⟨t', meaning', writes'⟩ := back
  have text : e.render = target.render ++ (" = " ++ value.render) := by
    cases target with
    | name x =>
      cases assigned
      rw [Expr.render, Expr.render, String.append_assoc]
    | member owner x =>
      cases assigned
      rw [Expr.render, Expr.render, String.append_assoc]
    | _ => cases assigned
  refine ⟨.assign t t', ?_, fun u separate => ?_⟩
  · rw [Expression.meaning?, meaning, meaning']
    exact assigned
  · rw [text, Expression.tokens]
    have equals (v : Bytes) : Writes " = " [.mark equalSign] v := writes_mark (by decide) v rfl
    refine .append (writes _ (Separate.clear ?_ target)) ((equals _).append (writes' u separate))
    rw [Utf8.encode_append, List.append_assoc]
    exact separate_text _ rfl (by decide)

theorem renderable_of_assignment {target value e : Expr} (renderable : e.Renderable)
    (assigned : assignment? target value = some e) : target.Renderable ∧ value.Renderable := by
  cases target with
  | name x =>
    cases assigned
    exact ⟨.of_parts trivial (by simp [Expr.parts]), renderable.part (by simp [Expr.parts])⟩
  | member owner x =>
    cases assigned
    have legible : owner.isNumber = false := renderable (.assignMember owner x value) .here
    refine ⟨.of_parts legible ?_, renderable.part (by simp [Expr.parts])⟩
    intro f member
    rw [List.mem_singleton.mp member]
    exact renderable.part (by simp [Expr.parts])
  | _ => cases assigned

/-! ### Lists, boxes and methods -/

theorem rewritten_list {items : List Expr} (all : ∀ e ∈ items, Rewritten e) :
    RewrittenPostfix (.list items) := by
  obtain ⟨t, meaning, writes⟩ := tuple_rewritten all
  refine rewrittenPostfix_of_primary (.list t) ?_ fun u _ => ?_
  · rw [Primary.meaning?, meaning]
    rfl
  · rw [Expr.render, Primary.tokens]
    exact writes u

theorem rewritten_box {es : List Expr} (all : ∀ e ∈ es, Rewritten e) :
    RewrittenPostfix (.box (Expr.ofList es)) := by
  obtain ⟨t, meaning, writes⟩ := braced_rewritten all
  refine rewrittenPostfix_of_primary (.box t) ?_ fun u _ => ?_
  · rw [Primary.meaning?, meaning]
    rfl
  · rw [Expr.render, Primary.tokens]
    exact writes u

theorem renderItems_names (names : List String) :
    Expr.renderItems (names.map .name) = names := by
  induction names with
  | nil => rfl
  | cons x names ih => rw [List.map_cons, Expr.renderItems, ih, Expr.render]

theorem names?_names (names : List String) : names? (names.map .name) = some names := by
  induction names with
  | nil => rfl
  | cons x names ih => rw [List.map_cons, names?, ih]; rfl

theorem rewritten_method {params : List String} {es : List Expr}
    (proper : ∀ x ∈ params, IsIdentifier x) (all : ∀ e ∈ es, Rewritten e) :
    RewrittenPostfix (.method params (Expr.ofList es)) := by
  have names : ∀ e ∈ params.map Expr.name, Rewritten e := by
    intro e member
    obtain ⟨x, isParam, rfl⟩ := List.mem_map.mp member
    exact (rewritten_name (proper x isParam)).rewritten
  obtain ⟨header, meaning, writes⟩ := tuple_rewritten names
  obtain ⟨body, meaning', writes'⟩ := braced_rewritten all
  rw [renderItems_names] at writes
  refine rewrittenPostfix_of_primary (.method header body) ?_ fun u _ => ?_
  · rw [Primary.meaning?, meaning, Option.bind_some, names?_names, meaning']
    rfl
  · rw [Expr.render, Primary.tokens, String.append_assoc]
    exact .append (writes _) ((writes_blank _).append (writes' u))

/-! ## Derivations -/

namespace Grammar

theorem number_rewritten {literal : Bytes} {e : Expr} (value : number? literal = some e)
    (renderable : e.Renderable) : RewrittenPostfix e := by
  simp only [number?] at value
  split at value
  · obtain ⟨x, -, rfl⟩ := Option.map_eq_some_iff.mp value
    obtain ⟨positional, back⟩ := renderable (.real x) .here
    refine rewritten_number rfl ?_ ?_
    · rw [Expr.render]
      exact real_numeral positional back
    · rw [Expr.render]
      exact numberValue_iff.mp back
  · obtain ⟨n, -, rfl⟩ := Option.map_eq_some_iff.mp value
    obtain ⟨proper, back⟩ := integer_numeral n
    refine rewritten_number rfl ?_ ?_
    · rw [Expr.render]
      exact proper
    · rw [Expr.render]
      exact back

/-- What suffixes are put behind occurs in what they make. -/
theorem Suffixes.occurs : ∀ (t : Suffixes) {front e : Expr}, t.meaning? front = some e →
    Expr.Occurs front e
  | .none, front, e, meaning => by
    cases meaning
    exact .here
  | .member letters rest, front, e, meaning => by
    have outer := Suffixes.occurs rest meaning
    exact .trans (.inside (by simp [Expr.parts]) .here) outer
  | .call arguments rest, front, e, meaning => by
    rw [Suffixes.meaning?] at meaning
    obtain ⟨items, -, meaning⟩ := Option.bind_eq_some_iff.mp meaning
    have outer := Suffixes.occurs rest meaning
    exact .trans (.inside (by simp [Expr.parts]) .here) outer

mutual

/-- What a derivation of proper tokens denotes is written as it can be read, by
induction on the derivation. -/
theorem Sequence.rewritten : ∀ (t : Sequence) (es : List Expr), Proper t.tokens →
    t.meaning? = some es → (∀ e ∈ es, e.Renderable) → ∀ e ∈ es, Rewritten e
  | .none, es, _, meaning, _ => by
    cases meaning
    simp
  | .skip rest, es, proper, meaning, renderable => by
    rw [Sequence.tokens] at proper
    exact Sequence.rewritten rest es proper.tail meaning renderable
  | .last e, es, proper, meaning, renderable => by
    rw [Sequence.tokens] at proper
    rw [Sequence.meaning?] at meaning
    obtain ⟨e', denotes, rfl⟩ := Option.map_eq_some_iff.mp meaning
    intro f member
    rw [List.mem_singleton.mp member]
    exact Expression.rewritten e e' proper denotes (renderable e' (by simp))
  | .next e rest, es, proper, meaning, renderable => by
    rw [Sequence.tokens] at proper
    rw [Sequence.meaning?] at meaning
    obtain ⟨e', denotes, meaning⟩ := Option.bind_eq_some_iff.mp meaning
    obtain ⟨others, denote, rfl⟩ := Option.map_eq_some_iff.mp meaning
    intro f member
    rcases List.mem_cons.mp member with rfl | member
    · exact Expression.rewritten e f proper.left denotes (renderable f (by simp))
    · exact Sequence.rewritten rest others proper.right.tail denote
        (fun g inside => renderable g (List.mem_cons_of_mem e' inside)) f member

theorem Expression.rewritten : ∀ (t : Expression) (e : Expr), Proper t.tokens →
    t.meaning? = some e → e.Renderable → Rewritten e
  | .plain t, e, proper, meaning, renderable => by
    rw [Expression.tokens] at proper
    exact (Postfix.rewritten t e proper meaning renderable).rewritten
  | .assign t value, e, proper, meaning, renderable => by
    rw [Expression.tokens] at proper
    rw [Expression.meaning?] at meaning
    obtain ⟨target, denotes, meaning⟩ := Option.bind_eq_some_iff.mp meaning
    obtain ⟨value', denotes', assigned⟩ := Option.bind_eq_some_iff.mp meaning
    obtain ⟨front, back⟩ := renderable_of_assignment renderable assigned
    exact rewritten_assignment assigned (Postfix.rewritten t target proper.left denotes front)
      (Expression.rewritten value value' proper.right.tail denotes' back)

theorem Postfix.rewritten : ∀ (t : Postfix) (e : Expr), Proper t.tokens →
    t.meaning? = some e → e.Renderable → RewrittenPostfix e
  | .mk head suffixes, e, proper, meaning, renderable => by
    rw [Postfix.tokens] at proper
    rw [Postfix.meaning?] at meaning
    obtain ⟨front, denotes, meaning⟩ := Option.bind_eq_some_iff.mp meaning
    -- The conditions are on the whole expression, of which the head is a part.
    have first := renderable.occurring (Suffixes.occurs suffixes meaning)
    exact Suffixes.rewritten suffixes front e proper.right
      (Primary.rewritten head front proper.left denotes first) meaning renderable

theorem Suffixes.rewritten : ∀ (t : Suffixes) (front e : Expr), Proper t.tokens →
    RewrittenPostfix front → t.meaning? front = some e → e.Renderable → RewrittenPostfix e
  | .none, front, e, _, written, meaning, _ => by
    cases meaning
    exact written
  | .member letters rest, front, e, proper, written, meaning, renderable => by
    rw [Suffixes.tokens] at proper
    have isName : IsName letters := proper (.name letters) (by simp)
    have legible : front.isNumber = false :=
      renderable (.member front (Utf8.ascii letters)) (Suffixes.occurs rest meaning)
    exact Suffixes.rewritten rest _ e proper.tail.tail
      (rewritten_member written legible ⟨letters, isName, rfl⟩) meaning renderable
  | .call arguments rest, front, e, proper, written, meaning, renderable => by
    rw [Suffixes.tokens] at proper
    rw [Suffixes.meaning?] at meaning
    obtain ⟨items, denote, meaning⟩ := Option.bind_eq_some_iff.mp meaning
    have call := renderable.occurring (Suffixes.occurs rest meaning)
    have list : (Expr.list items).Renderable := call.part (by simp [Expr.parts])
    have all := Tuple.rewritten arguments items proper.left denote
      fun f member => list.part member
    exact Suffixes.rewritten rest _ e proper.right (rewritten_call written all) meaning renderable

theorem Primary.rewritten : ∀ (t : Primary) (e : Expr), Proper t.tokens →
    t.meaning? = some e → e.Renderable → RewrittenPostfix e
  | .text _ contents, e, _, meaning, renderable => by
    cases meaning
    exact rewritten_text (renderable (.text contents) .here)
  | .number literal, e, _, meaning, renderable => number_rewritten meaning renderable
  | .name letters, e, proper, meaning, _ => by
    cases meaning
    rw [Primary.tokens] at proper
    exact rewritten_name ⟨letters, proper (.name letters) (by simp), rfl⟩
  | .box body, e, proper, meaning, renderable => by
    rw [Primary.tokens] at proper
    rw [Primary.meaning?] at meaning
    obtain ⟨es, denote, rfl⟩ := Option.map_eq_some_iff.mp meaning
    exact rewritten_box (Sequence.rewritten body es proper.tail.left denote
      fun f member => renderable.of_body rfl member)
  | .list items, e, proper, meaning, renderable => by
    rw [Primary.tokens] at proper
    rw [Primary.meaning?] at meaning
    obtain ⟨es, denote, rfl⟩ := Option.map_eq_some_iff.mp meaning
    exact rewritten_list (Tuple.rewritten items es proper denote
      fun f member => renderable.part member)
  | .method params body, e, proper, meaning, renderable => by
    rw [Primary.tokens] at proper
    rw [Primary.meaning?] at meaning
    obtain ⟨names, bare, meaning⟩ := Option.bind_eq_some_iff.mp meaning
    obtain ⟨items, denote, bare⟩ := Option.bind_eq_some_iff.mp bare
    obtain ⟨es, denote', rfl⟩ := Option.map_eq_some_iff.mp meaning
    have all := Sequence.rewritten body es proper.right.tail.left denote'
      fun f member => renderable.of_body rfl member
    exact rewritten_method
      (identifiers_of_names (Tuple.parsed params items proper.left denote) bare) all

theorem Tuple.rewritten : ∀ (t : Tuple) (es : List Expr), Proper t.tokens →
    t.meaning? = some es → (∀ e ∈ es, e.Renderable) → ∀ e ∈ es, Rewritten e
  | .empty, es, _, meaning, _ => by
    cases meaning
    simp
  | .items items, es, proper, meaning, renderable => by
    rw [Tuple.tokens] at proper
    exact Items.rewritten items es proper.tail.left meaning renderable

theorem Items.rewritten : ∀ (t : Items) (es : List Expr), Proper t.tokens →
    t.meaning? = some es → (∀ e ∈ es, e.Renderable) → ∀ e ∈ es, Rewritten e
  | .one e, es, proper, meaning, renderable => by
    rw [Items.tokens] at proper
    rw [Items.meaning?] at meaning
    obtain ⟨e', denotes, rfl⟩ := Option.map_eq_some_iff.mp meaning
    intro f member
    rw [List.mem_singleton.mp member]
    exact Expression.rewritten e e' proper denotes (renderable e' (by simp))
  | .more e rest, es, proper, meaning, renderable => by
    rw [Items.tokens] at proper
    rw [Items.meaning?] at meaning
    obtain ⟨e', denotes, meaning⟩ := Option.bind_eq_some_iff.mp meaning
    obtain ⟨others, denote, rfl⟩ := Option.map_eq_some_iff.mp meaning
    intro f member
    rcases List.mem_cons.mp member with rfl | member
    · exact Expression.rewritten e f proper.left denotes (renderable f (by simp))
    · exact Items.rewritten rest others proper.right.tail denote
        (fun g inside => renderable g (List.mem_cons_of_mem e' inside)) f member

end

end Grammar

/-- A program is written as a text that parses to the same program. -/
theorem parseProgram_render {s : Bytes} {e : Expr} (parsed : parseProgram s = .ok (some e))
    (renderable : e.Renderable) : parseProgram (Utf8.encode e.render) = .ok (some e) := by
  rw [parseProgram] at parsed
  split at parsed
  · next es found =>
    have folded : Expr.ofList es = some e := Except.ok.inj parsed
    obtain ⟨t, spells, meaning⟩ := derives_of_parse found
    have all := t.rewritten es spells.proper meaning fun f member => by
      obtain ⟨body, folded', occurs⟩ := Expr.occurs_ofList member
      rw [folded] at folded'
      cases folded'
      exact renderable.occurring occurs
    obtain ⟨t', meaning', writes⟩ := sequence_rewritten all folded
    have reads := writes [] .nil
    rw [Writes, List.append_nil] at reads
    have again := parse_of_derives ⟨t', spells_iff_reads.mpr reads, meaning'⟩
    rw [parseProgram, again]
    exact congrArg Except.ok folded
  · cases parsed

/-! ### The program `a(1.5)` -/

/-- The word of the real is found by exact division, in the kernel. -/
theorem number?_half :
    number? [0x31, 0x2E, 0x35] = some (.real (Float.ofBits 0x3FF8000000000000)) := by
  have sign : splitSign (([0x31, 0x2E, 0x35] : Bytes).filter (· != underscore)) =
      (false, [0x31, 0x2E, 0x35]) := rfl
  have whole : ([0x31, 0x2E, 0x35] : Bytes).takeWhile (· != point) = [0x31] := rfl
  have places : (([0x31, 0x2E, 0x35] : Bytes).dropWhile (· != point)).tail = [0x35] := rfl
  have digits : decimal ([0x31] ++ [0x35]) = 15 := rfl
  have word : Decimal.word 15 1 = 0x3FF8000000000000 := by decide +kernel
  rw [number?, sign]
  simp only [if_pos (show point ∈ ([0x31, 0x2E, 0x35] : Bytes) by decide), real?, whole, places,
    if_neg (show point ∉ ([0x35] : Bytes) by decide), digits, Decimal.toReal?,
    List.length_singleton, word]
  rfl

theorem renderable_half : (Expr.real (Float.ofBits 0x3FF8000000000000)).Renderable := by
  have text : Real.text (Float.ofBits 0x3FF8000000000000) = "1.5" := by decide +kernel
  refine .of_parts ?_ (by simp [Expr.parts])
  change 'e' ∉ (Real.text _).toList ∧ numberValue (Utf8.encode (Real.text _)) = _
  rw [text, Utf8.encode_eq]
  exact ⟨by decide, numberValue_iff.mpr number?_half⟩

theorem parsed_half : parseProgram [0x61, 0x28, 0x31, 0x2E, 0x35, 0x29] =
    .ok (some (.call (.name "a") (.list [.real (Float.ofBits 0x3FF8000000000000)]))) := by
  have reads : Reads [0x61, 0x28, 0x31, 0x2E, 0x35, 0x29]
      [.name [0x61], .mark openParen, .number [0x31, 0x2E, 0x35], .mark closeParen] [] := by
    refine ⟨_, rfl, ⟨rfl, by simp⟩, ?_, _, rfl, (by decide : openParen ∈ marks), trivial, _, rfl,
      ?_, ?_, _, rfl, (by decide : closeParen ∈ marks), trivial, rfl⟩
    · rintro b ⟨⟩
      decide
    · exact .inl ⟨rfl, .inr ⟨rfl, rfl⟩, .inl rfl, (by decide : (0x35 : UInt8) ≠ underscore)⟩
    · rintro b ⟨⟩
      decide
  let argument : Expression := .plain (.mk (.number [0x31, 0x2E, 0x35]) .none)
  let program : Sequence :=
    .last (.plain (.mk (.name [0x61]) (.call (.items (.one argument)) .none)))
  have meaning : program.meaning? =
      some [.call (.name "a") (.list [.real (Float.ofBits 0x3FF8000000000000)])] := by
    simp only [program, argument, Sequence.meaning?, Expression.meaning?, Postfix.meaning?,
      Primary.meaning?, Suffixes.meaning?, Tuple.meaning?, Items.meaning?, number?_half]
    rfl
  rw [parseProgram, parse_of_derives ⟨program, spells_iff_reads.mpr reads, meaning⟩]
  rfl

theorem parseProgram_render_call :
    ∃ e, parseProgram [0x61, 0x28, 0x31, 0x2E, 0x35, 0x29] = .ok (some e) ∧
      parseProgram (Utf8.encode e.render) = .ok (some e) := by
  refine ⟨_, parsed_half, parseProgram_render parsed_half (.of_parts trivial ?_)⟩
  have name : (Expr.name "a").Renderable := .of_parts trivial (by simp [Expr.parts])
  have list : (Expr.list [.real (Float.ofBits 0x3FF8000000000000)]).Renderable :=
    .of_parts trivial (by simpa [Expr.parts] using renderable_half)
  simp [Expr.parts, name, list]

end Source

end BoxScript
