import BoxScript.Console.Repl
import BoxScript.Proofs.Expr.Occurrence
import BoxScript.Proofs.Source.Reading

/-!
# Statements on one line

The history keeps a statement with every line feed replaced by a space. Between
tokens both are blanks, and no name, number or mark has a line feed in it, so
the statement on one line has the tokens of the statement but for the contents
of its texts: it denotes the same expressions with the line feeds of their texts
replaced. It is the statement that was evaluated exactly if no text of it goes
over the end of a line.
-/

set_option autoImplicit false

namespace BoxScript

/-! ## Changing the texts of an expression -/

namespace Expr

mutual

/-- The expression with all its texts changed. -/
def mapTexts (change : Bytes → Bytes) : Expr → Expr
  | .sequence es => .sequence (mapTextsAll change es)
  | .name x => .name x
  | .member target x => .member (target.mapTexts change) x
  | .assign x value => .assign x (value.mapTexts change)
  | .assignMember target x value => .assignMember (target.mapTexts change) x (value.mapTexts change)
  | .call target argument => .call (target.mapTexts change) (argument.mapTexts change)
  | .box body => .box (mapTextsBody change body)
  | .method params body => .method params (mapTextsBody change body)
  | .text bytes => .text (change bytes)
  | .integer n => .integer n
  | .real x => .real x
  | .list items => .list (mapTextsAll change items)
  | .native x routine => .native x routine
  | .held r => .held r
  | .foreign kind shown => .foreign kind shown
  | .hole => .hole

def mapTextsAll (change : Bytes → Bytes) : List Expr → List Expr
  | [] => []
  | e :: es => e.mapTexts change :: mapTextsAll change es

def mapTextsBody (change : Bytes → Bytes) : Option Expr → Option Expr
  | none => none
  | some e => some (e.mapTexts change)

end

variable {change : Bytes → Bytes}

theorem mapTextsAll_eq (es : List Expr) : mapTextsAll change es = es.map (mapTexts change) := by
  induction es with
  | nil => rfl
  | cons e es ih => rw [mapTextsAll, ih, List.map_cons]

theorem mapTextsBody_eq (body : Option Expr) :
    mapTextsBody change body = body.map (mapTexts change) := by
  cases body <;> rfl

theorem mapTextsBody_ofList (es : List Expr) :
    mapTextsBody change (ofList es) = ofList (es.map (mapTexts change)) := by
  rw [mapTextsBody_eq]
  match es with
  | [] => rfl
  | [e] => rfl
  | e :: f :: es => simp [ofList, mapTexts, mapTextsAll_eq]

/-- What stays the same has parts that stay the same. -/
theorem mapTexts_parts {e g : Expr} (same : e.mapTexts change = e) (part : g ∈ e.parts) :
    g.mapTexts change = g := by
  have all : ∀ {es : List Expr}, mapTextsAll change es = es → ∀ g ∈ es, g.mapTexts change = g := by
    intro es same
    rw [mapTextsAll_eq] at same
    exact List.map_inj_left.mp (same.trans (List.map_id es).symm)
  have body : ∀ {body : Option Expr}, mapTextsBody change body = body →
      ∀ g ∈ body.toList, g.mapTexts change = g := by
    intro body same
    cases body with
    | none => nofun
    | some e =>
      rw [mapTextsBody, Option.some.injEq] at same
      simpa using same
  cases e with
  | sequence es => exact all (Expr.sequence.inj same) g part
  | list items => exact all (Expr.list.inj same) g part
  | box inner => exact body (Expr.box.inj same) g part
  | method params inner => exact body (Expr.method.inj same).2 g part
  | member target x =>
    rw [List.mem_singleton.mp part]
    exact (Expr.member.inj same).1
  | assign x value =>
    rw [List.mem_singleton.mp part]
    exact (Expr.assign.inj same).2
  | assignMember target x value =>
    obtain ⟨first, -, second⟩ := Expr.assignMember.inj same
    rcases part with _ | ⟨_, _ | ⟨_, ⟨⟩⟩⟩
    · exact first
    · exact second
  | call target argument =>
    obtain ⟨first, second⟩ := Expr.call.inj same
    rcases part with _ | ⟨_, _ | ⟨_, ⟨⟩⟩⟩
    · exact first
    · exact second
  | _ => cases part

mutual

theorem mapTexts_eq_self : ∀ e : Expr, (∀ bytes, Occurs (.text bytes) e → change bytes = bytes) →
    e.mapTexts change = e
  | .text bytes, same => by rw [mapTexts, same bytes .here]
  | .sequence es, same => by
    rw [mapTexts,
      mapTextsAll_eq_self es fun e member bytes text => same bytes (.inside member text)]
  | .list items, same => by
    rw [mapTexts,
      mapTextsAll_eq_self items fun e member bytes text => same bytes (.inside member text)]
  | .box body, same => by
    rw [mapTexts, mapTextsBody_eq_self body fun e member bytes text =>
      same bytes (.inside (Option.mem_toList.mpr member) text)]
  | .method params body, same => by
    rw [mapTexts, mapTextsBody_eq_self body fun e member bytes text =>
      same bytes (.inside (Option.mem_toList.mpr member) text)]
  | .member target x, same => by
    rw [mapTexts, mapTexts_eq_self target fun bytes text =>
      same bytes (.inside (List.mem_singleton_self target) text)]
  | .assign x value, same => by
    rw [mapTexts, mapTexts_eq_self value fun bytes text =>
      same bytes (.inside (List.mem_singleton_self value) text)]
  | .assignMember target x value, same => by
    rw [mapTexts,
      mapTexts_eq_self target fun bytes text => same bytes (.inside (by simp [parts]) text),
      mapTexts_eq_self value fun bytes text => same bytes (.inside (by simp [parts]) text)]
  | .call target argument, same => by
    rw [mapTexts,
      mapTexts_eq_self target fun bytes text => same bytes (.inside (by simp [parts]) text),
      mapTexts_eq_self argument fun bytes text => same bytes (.inside (by simp [parts]) text)]
  | .name _, _ | .integer _, _ | .real _, _ | .native _ _, _ | .held _, _ | .foreign _ _, _
  | .hole, _ => rfl

theorem mapTextsAll_eq_self : ∀ es : List Expr,
    (∀ e ∈ es, ∀ bytes, Occurs (.text bytes) e → change bytes = bytes) → mapTextsAll change es = es
  | [], _ => rfl
  | e :: es, same => by
    rw [mapTextsAll, mapTexts_eq_self e (same e (by simp)),
      mapTextsAll_eq_self es fun f member => same f (by simp [member])]

theorem mapTextsBody_eq_self : ∀ body : Option Expr,
    (∀ e ∈ body, ∀ bytes, Occurs (.text bytes) e → change bytes = bytes) →
    mapTextsBody change body = body
  | none, _ => rfl
  | some e, same => by rw [mapTextsBody, mapTexts_eq_self e (same e rfl)]

end

/-- An expression stays the same exactly if the texts that stand in it do. -/
theorem mapTexts_eq_self_iff {e : Expr} :
    e.mapTexts change = e ↔ ∀ bytes, Occurs (.text bytes) e → change bytes = bytes := by
  refine ⟨?_, mapTexts_eq_self e⟩
  intro same bytes text
  induction text with
  | here => exact Expr.text.inj same
  | inside part _ ih => exact ih (mapTexts_parts same part)

end Expr

/-! ## Changing the texts of a source -/

namespace Source

def Token.mapText (change : Bytes → Bytes) : Token → Token
  | .text quote contents => .text quote (change contents)
  | t => t

namespace Grammar

mutual

def Sequence.mapTexts (change : Bytes → Bytes) : Sequence → Sequence
  | .none => .none
  | .skip rest => .skip (rest.mapTexts change)
  | .last e => .last (e.mapTexts change)
  | .next e rest => .next (e.mapTexts change) (rest.mapTexts change)

def Expression.mapTexts (change : Bytes → Bytes) : Expression → Expression
  | .plain e => .plain (e.mapTexts change)
  | .assign e value => .assign (e.mapTexts change) (value.mapTexts change)

def Postfix.mapTexts (change : Bytes → Bytes) : Postfix → Postfix
  | .mk head suffixes => .mk (head.mapTexts change) (suffixes.mapTexts change)

def Suffixes.mapTexts (change : Bytes → Bytes) : Suffixes → Suffixes
  | .none => .none
  | .member letters rest => .member letters (rest.mapTexts change)
  | .call arguments rest => .call (arguments.mapTexts change) (rest.mapTexts change)

def Primary.mapTexts (change : Bytes → Bytes) : Primary → Primary
  | .text quote contents => .text quote (change contents)
  | .number literal => .number literal
  | .name letters => .name letters
  | .box body => .box (body.mapTexts change)
  | .list items => .list (items.mapTexts change)
  | .method params body => .method (params.mapTexts change) (body.mapTexts change)

def Tuple.mapTexts (change : Bytes → Bytes) : Tuple → Tuple
  | .empty => .empty
  | .items items => .items (items.mapTexts change)

def Items.mapTexts (change : Bytes → Bytes) : Items → Items
  | .one e => .one (e.mapTexts change)
  | .more e rest => .more (e.mapTexts change) (rest.mapTexts change)

end

variable {change : Bytes → Bytes}

mutual

/-- The tokens of a changed derivation are the changed tokens. -/
theorem Sequence.tokens_mapTexts : ∀ t : Sequence,
    (t.mapTexts change).tokens = t.tokens.map (Token.mapText change)
  | .none => rfl
  | .skip rest => by
    simp only [Sequence.mapTexts, Sequence.tokens, rest.tokens_mapTexts, List.map_cons,
      Token.mapText]
  | .last e => by simp only [Sequence.mapTexts, Sequence.tokens, e.tokens_mapTexts]
  | .next e rest => by
    simp only [Sequence.mapTexts, Sequence.tokens, e.tokens_mapTexts, rest.tokens_mapTexts,
      List.map_append, List.map_cons, Token.mapText]

theorem Expression.tokens_mapTexts : ∀ t : Expression,
    (t.mapTexts change).tokens = t.tokens.map (Token.mapText change)
  | .plain e => by simp only [Expression.mapTexts, Expression.tokens, e.tokens_mapTexts]
  | .assign e value => by
    simp only [Expression.mapTexts, Expression.tokens, e.tokens_mapTexts, value.tokens_mapTexts,
      List.map_append, List.map_cons, Token.mapText]

theorem Postfix.tokens_mapTexts : ∀ t : Postfix,
    (t.mapTexts change).tokens = t.tokens.map (Token.mapText change)
  | .mk head suffixes => by
    simp only [Postfix.mapTexts, Postfix.tokens, head.tokens_mapTexts, suffixes.tokens_mapTexts,
      List.map_append]

theorem Suffixes.tokens_mapTexts : ∀ t : Suffixes,
    (t.mapTexts change).tokens = t.tokens.map (Token.mapText change)
  | .none => rfl
  | .member letters rest => by
    simp only [Suffixes.mapTexts, Suffixes.tokens, rest.tokens_mapTexts, List.map_cons,
      Token.mapText]
  | .call arguments rest => by
    simp only [Suffixes.mapTexts, Suffixes.tokens, arguments.tokens_mapTexts,
      rest.tokens_mapTexts, List.map_append]

theorem Primary.tokens_mapTexts : ∀ t : Primary,
    (t.mapTexts change).tokens = t.tokens.map (Token.mapText change)
  | .text _ _ | .number _ | .name _ => by
    simp only [Primary.mapTexts, Primary.tokens, Token.mapText, List.map_cons, List.map_nil]
  | .box body => by
    simp only [Primary.mapTexts, Primary.tokens, body.tokens_mapTexts, List.map_cons,
      List.map_append, List.map_nil, Token.mapText]
  | .list items => by simp only [Primary.mapTexts, Primary.tokens, items.tokens_mapTexts]
  | .method params body => by
    simp only [Primary.mapTexts, Primary.tokens, params.tokens_mapTexts, body.tokens_mapTexts,
      List.map_cons, List.map_append, List.map_nil, Token.mapText]

theorem Tuple.tokens_mapTexts : ∀ t : Tuple,
    (t.mapTexts change).tokens = t.tokens.map (Token.mapText change)
  | .empty => rfl
  | .items items => by
    simp only [Tuple.mapTexts, Tuple.tokens, items.tokens_mapTexts, List.map_cons,
      List.map_append, List.map_nil, Token.mapText]

theorem Items.tokens_mapTexts : ∀ t : Items,
    (t.mapTexts change).tokens = t.tokens.map (Token.mapText change)
  | .one e => by simp only [Items.mapTexts, Items.tokens, e.tokens_mapTexts]
  | .more e rest => by
    simp only [Items.mapTexts, Items.tokens, e.tokens_mapTexts, rest.tokens_mapTexts,
      List.map_append, List.map_cons, Token.mapText]

end

theorem names?_mapTexts (items : List Expr) :
    names? (items.map (Expr.mapTexts change)) = names? items := by
  induction items with
  | nil => rfl
  | cons e items ih =>
    cases e with
    | name x => simp only [List.map_cons, Expr.mapTexts, names?, ih]
    | _ => simp only [List.map_cons, Expr.mapTexts, names?]

theorem assignment?_mapTexts (target value : Expr) :
    assignment? (target.mapTexts change) (value.mapTexts change) =
      (assignment? target value).map (Expr.mapTexts change) := by
  cases target <;> simp only [Expr.mapTexts, assignment?, Option.map_some, Option.map_none]

theorem number?_mapTexts (literal : Bytes) :
    (number? literal).map (Expr.mapTexts change) = number? literal := by
  simp only [number?]
  split
  · simp only [Option.map_map, Function.comp_def, Expr.mapTexts]
  · simp only [Option.map_map, Function.comp_def, Expr.mapTexts]

mutual

/-- A changed derivation denotes the changed expressions. -/
theorem Sequence.meaning?_mapTexts : ∀ t : Sequence,
    (t.mapTexts change).meaning? = t.meaning?.map (List.map (Expr.mapTexts change))
  | .none => rfl
  | .skip rest => by simp only [Sequence.mapTexts, Sequence.meaning?, rest.meaning?_mapTexts]
  | .last e => by
    simp only [Sequence.mapTexts, Sequence.meaning?, e.meaning?_mapTexts, Option.map_map,
      Function.comp_def, List.map_cons, List.map_nil]
  | .next e rest => by
    simp only [Sequence.mapTexts, Sequence.meaning?, e.meaning?_mapTexts, rest.meaning?_mapTexts]
    cases e.meaning? <;> cases rest.meaning? <;> rfl

theorem Expression.meaning?_mapTexts : ∀ t : Expression,
    (t.mapTexts change).meaning? = t.meaning?.map (Expr.mapTexts change)
  | .plain e => by simp only [Expression.mapTexts, Expression.meaning?, e.meaning?_mapTexts]
  | .assign e value => by
    simp only [Expression.mapTexts, Expression.meaning?, e.meaning?_mapTexts,
      value.meaning?_mapTexts]
    cases e.meaning? with
    | none => rfl
    | some target =>
      cases value.meaning? with
      | none => rfl
      | some value => exact assignment?_mapTexts target value

theorem Postfix.meaning?_mapTexts : ∀ t : Postfix,
    (t.mapTexts change).meaning? = t.meaning?.map (Expr.mapTexts change)
  | .mk head suffixes => by
    simp only [Postfix.mapTexts, Postfix.meaning?, head.meaning?_mapTexts]
    cases head.meaning? with
    | none => rfl
    | some front => exact suffixes.meaning?_mapTexts front

theorem Suffixes.meaning?_mapTexts : ∀ (t : Suffixes) (front : Expr),
    (t.mapTexts change).meaning? (front.mapTexts change) =
      (t.meaning? front).map (Expr.mapTexts change)
  | .none, front => rfl
  | .member letters rest, front => rest.meaning?_mapTexts (.member front (Utf8.ascii letters))
  | .call arguments rest, front => by
    simp only [Suffixes.mapTexts, Suffixes.meaning?, arguments.meaning?_mapTexts]
    cases arguments.meaning? with
    | none => rfl
    | some items =>
      have others := rest.meaning?_mapTexts (.call front (.list items))
      rw [Expr.mapTexts, Expr.mapTexts, Expr.mapTextsAll_eq] at others
      exact others

theorem Primary.meaning?_mapTexts : ∀ t : Primary,
    (t.mapTexts change).meaning? = t.meaning?.map (Expr.mapTexts change)
  | .text _ _ | .name _ => rfl
  | .number literal => (number?_mapTexts literal).symm
  | .box body => by
    simp only [Primary.mapTexts, Primary.meaning?, body.meaning?_mapTexts, Option.map_map,
      Function.comp_def, Expr.mapTexts, Expr.mapTextsBody_ofList]
  | .list items => by
    simp only [Primary.mapTexts, Primary.meaning?, items.meaning?_mapTexts, Option.map_map,
      Function.comp_def, Expr.mapTexts, Expr.mapTextsAll_eq]
  | .method params body => by
    simp only [Primary.mapTexts, Primary.meaning?, params.meaning?_mapTexts,
      body.meaning?_mapTexts]
    cases params.meaning? with
    | none => rfl
    | some items =>
      simp only [Option.map_some, Option.bind_some, names?_mapTexts]
      cases names? items with
      | none => rfl
      | some names =>
        simp only [Option.bind_some, Option.map_map, Function.comp_def, Expr.mapTexts,
          Expr.mapTextsBody_ofList]

theorem Tuple.meaning?_mapTexts : ∀ t : Tuple,
    (t.mapTexts change).meaning? = t.meaning?.map (List.map (Expr.mapTexts change))
  | .empty => rfl
  | .items items => by simp only [Tuple.mapTexts, Tuple.meaning?, items.meaning?_mapTexts]

theorem Items.meaning?_mapTexts : ∀ t : Items,
    (t.mapTexts change).meaning? = t.meaning?.map (List.map (Expr.mapTexts change))
  | .one e => by
    simp only [Items.mapTexts, Items.meaning?, e.meaning?_mapTexts, Option.map_map,
      Function.comp_def, List.map_cons, List.map_nil]
  | .more e rest => by
    simp only [Items.mapTexts, Items.meaning?, e.meaning?_mapTexts, rest.meaning?_mapTexts]
    cases e.meaning? <;> cases rest.meaning? <;> rfl

end

end Grammar

/-- Replacing a source by one that spells the same tokens up to their texts
changes the texts of what it denotes. -/
theorem parse_mapTexts {change : Bytes → Bytes} {s s' : Bytes} {es : List Expr}
    (respells : ∀ ts, Spells s ts → Spells s' (ts.map (Token.mapText change)))
    (parsed : parse s = .ok es) : parse s' = .ok (es.map (Expr.mapTexts change)) := by
  obtain ⟨t, spells, meaning⟩ := derives_of_parse parsed
  apply parse_of_derives
  refine ⟨t.mapTexts change, ?_, ?_⟩
  · rw [t.tokens_mapTexts]
    exact respells t.tokens spells
  · rw [t.meaning?_mapTexts, meaning, Option.map_some]

end Source

/-! ## A statement on one line -/

namespace Console

open Source

theorem oneLine_cons (b : UInt8) (s : Bytes) :
    oneLine (b :: s) = (if b == lineFeed then 0x20 else b) :: oneLine s :=
  rfl

theorem oneLine_append (s t : Bytes) : oneLine (s ++ t) = oneLine s ++ oneLine t :=
  List.map_append

theorem oneLine_eq_self_iff {s : Bytes} : oneLine s = s ↔ lineFeed ∉ s := by
  have byte : ∀ b : UInt8, (if b == lineFeed then 0x20 else b) = b ↔ b ≠ lineFeed := by
    intro b
    by_cases feeds : b = lineFeed
    · simp [feeds, lineFeed]
    · simp [feeds]
  induction s with
  | nil => simp [oneLine]
  | cons b s ih =>
    rw [oneLine_cons, List.cons.injEq, byte, List.mem_cons, not_or]
    exact and_congr ne_comm ih

/-- A byte that is neither a line feed nor a space is where it was. -/
theorem mem_oneLine {s : Bytes} {b : UInt8} (member : b ∈ oneLine s) : b = 0x20 ∨ b ∈ s := by
  obtain ⟨c, original, rfl⟩ := List.mem_map.mp member
  split
  · exact .inl rfl
  · exact .inr original

theorem head_oneLine {p : UInt8 → Prop} {s : Bytes} (space : ¬ p 0x20)
    (stops : ∀ b ∈ s.head?, ¬ p b) : ∀ b ∈ (oneLine s).head?, ¬ p b := by
  cases s with
  | nil => nofun
  | cons c s =>
    rw [oneLine_cons]
    rintro b ⟨⟩
    split
    · exact space
    · exact stops c rfl

theorem lineFeed_notMem_name {letters : Bytes} (proper : IsName letters) :
    lineFeed ∉ letters := by
  cases letters with
  | nil => cases proper
  | cons b rest =>
    intro member
    rcases List.mem_cons.mp member with rfl | member
    · exact absurd proper.1 (by decide)
    · exact absurd (proper.2 lineFeed member) (by decide)

theorem lineFeed_notMem_number {literal : Bytes} (proper : IsNumber literal) :
    lineFeed ∉ literal := by
  obtain ⟨b, rest, rfl, first, others⟩ := proper.bytes
  intro member
  rcases List.mem_cons.mp member with rfl | member
  · exact absurd first (by decide)
  · exact absurd (others lineFeed member) (by decide)

/-- A token on one line differs only if it is a text, and then in its contents. -/
theorem oneLine_token {t : Token} {s : Bytes} (proper : t.WellFormed) (ends : t.Ends s) :
    oneLine t.lexeme = (t.mapText oneLine).lexeme ∧ (t.mapText oneLine).WellFormed ∧
      (t.mapText oneLine).Ends (oneLine s) := by
  cases t with
  | name letters =>
    exact ⟨oneLine_eq_self_iff.mpr (lineFeed_notMem_name proper), proper,
      head_oneLine (by decide) ends⟩
  | number literal =>
    exact ⟨oneLine_eq_self_iff.mpr (lineFeed_notMem_number proper), proper,
      head_oneLine (by decide) ends⟩
  | mark b =>
    refine ⟨oneLine_eq_self_iff.mpr ?_, proper, trivial⟩
    rw [Token.lexeme, List.mem_singleton]
    rintro rfl
    exact absurd (show lineFeed ∈ marks from proper) (by decide)
  | text quote contents =>
    obtain ⟨quotes, absent⟩ := proper
    have solid : quote ≠ lineFeed ∧ quote ≠ 0x20 := by
      constructor <;> (rintro rfl; revert quotes; decide)
    refine ⟨?_, ⟨quotes, ?_⟩, trivial⟩
    · have kept : oneLine [quote] = [quote] := oneLine_eq_self_iff.mpr (by simp [Ne.symm solid.1])
      rw [Token.lexeme, ← List.singleton_append, oneLine_append, oneLine_append, kept]
      rfl
    · intro member
      rcases mem_oneLine member with space | member
      · exact solid.2 space
      · exact absent member

theorem spells_oneLine {s : Bytes} {ts : List Token} (spells : Spells s ts) :
    Spells (oneLine s) (ts.map (Token.mapText oneLine)) := by
  induction spells with
  | done => exact .done
  | @blank b s ts space rest ih =>
    rw [oneLine_cons]
    refine .blank ?_ ih
    split
    · decide
    · exact space
  | @token t s ts proper ends rest ih =>
    obtain ⟨lexeme, proper', ends'⟩ := oneLine_token proper ends
    rw [oneLine_append, lexeme]
    exact .token proper' ends' ih

/-- A statement on one line denotes what the statement denotes, with the line
feeds of its texts replaced. -/
theorem parse_oneLine {s : Bytes} {es : List Expr} (parsed : parse s = .ok es) :
    parse (oneLine s) = .ok (es.map (Expr.mapTexts oneLine)) :=
  parse_mapTexts (fun _ => spells_oneLine) parsed

theorem parseProgram_oneLine {s : Bytes} {program : Option Expr}
    (parsed : parseProgram s = .ok program) :
    parseProgram (oneLine s) = .ok (program.map (Expr.mapTexts oneLine)) := by
  rw [parseProgram] at parsed
  split at parsed
  · next es found =>
    cases parsed
    rw [parseProgram, parse_oneLine found, ← Expr.mapTextsBody_eq, Expr.mapTextsBody_ofList]
  · cases parsed

/-! ## What the history recalls -/

/-- The statements that the loop evaluates, in order. -/
def entered (settings : Settings) (gathered : Bytes) : List Line → List Bytes
  | [] => []
  | line :: rest =>
    let statement := joinLine gathered line.bytes
    if wantsMore statement then
      entered settings (if isPromptable settings.continuation then statement else []) rest
    else if (trimBlank statement).isEmpty then entered settings [] rest
    else if trimBlank statement = quitCommand then []
    else statement :: entered settings [] rest

/-- The history gets the statements that are evaluated, each on one line. -/
theorem loop_history (settings : Settings) (s : Screen) (history : History) (gathered : Bytes)
    (lines : List Line) :
    (loop settings s history gathered lines).2 =
      ((entered settings gathered lines).map oneLine).foldl History.append history := by
  induction lines generalizing s history gathered with
  | nil => rfl
  | cons line rest ih =>
    simp only [loop, entered]
    split
    · exact ih ..
    · split
      · exact ih ..
      · split
        · rfl
        · exact ih ..

/-- What is printed does not matter to what a source does to the heap. -/
theorem answer_congr {s s' : Screen} (heap : s.heap = s'.heap) (root : s.root = s'.root)
    (source : Bytes) : (s.answer source).heap = (s'.answer source).heap ∧
      (s.answer source).root = (s'.answer source).root := by
  obtain ⟨heap', root', out, err⟩ := s
  obtain ⟨heap'', root'', out', err'⟩ := s'
  obtain rfl : heap' = heap'' := heap
  obtain rfl : root' = root'' := root
  simp only [Screen.answer, Screen.run]
  cases parseProgram source with
  | error e => exact ⟨rfl, rfl⟩
  | ok program =>
    simp only
    cases (evaluate Host.plain ampleFuel heap' () (some root') program).outcome <;>
      exact ⟨rfl, rfl⟩

/-- The heap is left as by answering the statements that are evaluated. -/
theorem loop_heap (settings : Settings) {s s' : Screen} (history : History) (gathered : Bytes)
    (lines : List Line) (heap : s.heap = s'.heap) (root : s.root = s'.root) :
    (loop settings s history gathered lines).1.heap =
      ((entered settings gathered lines).foldl Screen.answer s').heap := by
  induction lines generalizing s s' history gathered with
  | nil => exact heap
  | cons line rest ih =>
    simp only [loop, entered]
    split
    · exact ih _ _ heap root
    · split
      · exact ih _ _ heap root
      · split
        · exact heap
        · obtain ⟨heap', root'⟩ := answer_congr (s := s.print _) heap root _
          exact ih _ _ heap' root'

/-- Whatever lines are read: the history gets exactly the statements that are
evaluated, each on one line, and such a line denotes what the statement denotes
with the line feeds of its texts replaced. So it denotes the same exactly if the
texts that stand in the statement have no line feed. -/
theorem history_recalls_unless_text_broken (settings : Settings) (s : Screen) (history : History)
    (lines : List Line) :
    (loop settings s history [] lines).2 =
      ((entered settings [] lines).map oneLine).foldl History.append history ∧
    (loop settings s history [] lines).1.heap =
      ((entered settings [] lines).foldl Screen.answer s).heap ∧
    ∀ statement ∈ entered settings [] lines, ∀ program, parseProgram statement = .ok program →
      parseProgram (oneLine statement) = .ok (program.map (Expr.mapTexts oneLine)) ∧
      (parseProgram (oneLine statement) = .ok program ↔
        ∀ e ∈ program, ∀ bytes, Expr.Occurs (.text bytes) e → lineFeed ∉ bytes) := by
  refine ⟨loop_history settings s history [] lines, loop_heap settings history [] lines rfl rfl, ?_⟩
  intro statement _ program parsed
  have recalled := parseProgram_oneLine parsed
  refine ⟨recalled, ?_⟩
  rw [recalled, Except.ok.injEq]
  cases program with
  | none => simp
  | some e => simp [Expr.mapTexts_eq_self_iff, oneLine_eq_self_iff]

/-- A box over two lines is recalled. -/
theorem history_recalls_box_over_lines :
    parseProgram (oneLine [0x7B, 0x0A, 0x7D]) = .ok (some (.box none)) := by
  have statements : entered Settings.default [] [⟨[0x7B], false⟩, ⟨[0x7D], false⟩] =
      [[0x7B, 0x0A, 0x7D]] := by decide +kernel
  have recalls := (history_recalls_unless_text_broken Settings.default .initial []
    [⟨[0x7B], false⟩, ⟨[0x7D], false⟩]).2.2 [0x7B, 0x0A, 0x7D] (by simp [statements])
    (some (.box none)) rfl
  apply recalls.2.mpr
  rintro e ⟨⟩ bytes text
  cases text with
  | inside part _ => cases part

/-- The lines `x="a` and `b"` are one statement, of which the history keeps
`x="a b"`, another assignment. -/
theorem broken_text_recalled_otherwise :
    entered Settings.default [] [⟨[0x78, 0x3D, 0x22, 0x61], false⟩, ⟨[0x62, 0x22], false⟩] =
      [[0x78, 0x3D, 0x22, 0x61, 0x0A, 0x62, 0x22]] ∧
    (loop Settings.default .initial [] []
      [⟨[0x78, 0x3D, 0x22, 0x61], false⟩, ⟨[0x62, 0x22], false⟩]).2 =
      [[0x78, 0x3D, 0x22, 0x61, 0x20, 0x62, 0x22]] ∧
    parseProgram [0x78, 0x3D, 0x22, 0x61, 0x0A, 0x62, 0x22] =
      .ok (some (.assign "x" (.text [0x61, 0x0A, 0x62]))) ∧
    parseProgram [0x78, 0x3D, 0x22, 0x61, 0x20, 0x62, 0x22] =
      .ok (some (.assign "x" (.text [0x61, 0x20, 0x62]))) := by
  have statements : entered Settings.default []
      [⟨[0x78, 0x3D, 0x22, 0x61], false⟩, ⟨[0x62, 0x22], false⟩] =
      [[0x78, 0x3D, 0x22, 0x61, 0x0A, 0x62, 0x22]] := by decide +kernel
  refine ⟨statements, ?_, rfl, rfl⟩
  rw [loop_history, statements]
  decide

end Console

end BoxScript
