import BoxScript.Source.Reader
import Mathlib.Data.List.TakeDrop

/-!
# Tokens and the bytes that spell them

What the lexemes of a source are, said without reading it. Names and numbers
are as long as they go: the byte behind a name does not continue it, and the
byte behind a number is no digit, point or underscore. So `1..x` spells no
tokens at all, while `1. .x` spells three. Texts run to the next quote of their
own kind. Blanks may stand before, between and behind tokens.

The reader's functions for names, texts and numbers cut off exactly these
tokens, and a source spells at most one list of them.
-/

set_option autoImplicit false

namespace BoxScript.Source

inductive Token where
  | name (letters : Bytes)
  | text (quote : UInt8) (contents : Bytes)
  | number (literal : Bytes)
  | mark (byte : UInt8)
deriving DecidableEq

/-- The bytes that are tokens by themselves. -/
def marks : List UInt8 :=
  [semicolon, equalSign, comma, point, openParen, closeParen, openBrace, closeBrace]

/-- A letter or underscore, then letters, digits and underscores. -/
def IsName : Bytes → Prop
  | [] => False
  | b :: rest => startsName b ∧ ∀ c ∈ rest, continuesName c

/-- The bytes of a number behind one of them: points and underscores stand
right behind a digit, and the last byte is no underscore. -/
def ContinuesNumber (last : UInt8) : Bytes → Prop
  | [] => last ≠ underscore
  | b :: rest => (isDigit b ∨ isSeparator b ∧ isDigit last) ∧ ContinuesNumber b rest

/-- A number without its sign. -/
def IsUnsigned : Bytes → Prop
  | [] => False
  | b :: rest => isDigit b ∧ ContinuesNumber b rest

def IsNumber (literal : Bytes) : Prop :=
  IsUnsigned literal ∨ ∃ sign digits, literal = sign :: digits ∧ isSign sign ∧ IsUnsigned digits

namespace Token

def lexeme : Token → Bytes
  | .name letters => letters
  | .text quote contents => quote :: contents ++ [quote]
  | .number literal => literal
  | .mark b => [b]

def WellFormed : Token → Prop
  | .name letters => IsName letters
  | .text quote contents => isQuote quote ∧ quote ∉ contents
  | .number literal => IsNumber literal
  | .mark b => b ∈ marks

/-- Whether a token is not cut short in front of the bytes behind it. -/
def Ends : Token → Bytes → Prop
  | .name _, rest => ∀ b ∈ rest.head?, ¬ continuesName b
  | .number _, rest => ∀ b ∈ rest.head?, ¬ (isDigit b ∨ isSeparator b)
  | _, _ => True

end Token

/-- A source consists of these tokens, with blanks between them. -/
inductive Spells : Bytes → List Token → Prop where
  | done : Spells [] []
  | blank {b : UInt8} {s : Bytes} {ts : List Token} (space : isSpace b) (rest : Spells s ts) :
      Spells (b :: s) ts
  | token {t : Token} {s : Bytes} {ts : List Token} (proper : t.WellFormed) (ends : t.Ends s)
      (rest : Spells s ts) : Spells (t.lexeme ++ s) (t :: ts)

/-- Tokens at the front of a source. What is left is known up to blanks. -/
def Reads (s : Bytes) : List Token → Bytes → Prop
  | [], rest => skipSpace s = skipSpace rest
  | t :: ts, rest => ∃ s', skipSpace s = t.lexeme ++ s' ∧ t.WellFormed ∧ t.Ends s' ∧ Reads s' ts rest

/-! ## Names, texts and numbers -/

theorem span_append {p : UInt8 → Bool} {front rest : Bytes} (all : ∀ b ∈ front, p b)
    (ends : ∀ b ∈ rest.head?, ¬ p b) : (front ++ rest).span p = (front, rest) := by
  rw [List.span_eq_takeWhile_dropWhile, List.takeWhile_append_of_pos all,
    List.dropWhile_append_of_pos all]
  cases rest with
  | nil => simp
  | cons b rest =>
    have stops : ¬ p b := ends b (by simp)
    simp [stops]

theorem of_span {p : UInt8 → Bool} {s front rest : Bytes} (cut : s.span p = (front, rest)) :
    s = front ++ rest ∧ (∀ b ∈ front, p b) ∧ ∀ b ∈ rest.head?, ¬ p b := by
  rw [List.span_eq_takeWhile_dropWhile] at cut
  obtain ⟨rfl, rfl⟩ := Prod.mk.inj cut
  refine ⟨List.takeWhile_append_dropWhile.symm, ?_, ?_⟩
  · exact List.all_eq_true.mp List.all_takeWhile
  · intro b head
    have stops := List.head?_dropWhile_not p s
    rw [Option.mem_def.mp head] at stops
    simpa using stops

theorem name_iff {s rest : Bytes} {found : String} :
    name s = .ok (found, rest) ↔ ∃ letters, s = letters ++ rest ∧ IsName letters ∧
      (Token.name letters).Ends rest ∧ found = Utf8.ascii letters := by
  constructor
  · intro read
    cases s with
    | nil => simp [name] at read
    | cons b s =>
      simp only [name] at read
      split at read
      · next starts =>
        cases cut : (b :: s).span continuesName with
        | mk letters after =>
          rw [cut] at read
          obtain ⟨rfl, rfl⟩ := Prod.mk.inj (Except.ok.inj read)
          obtain ⟨whole, all, ends⟩ := of_span cut
          refine ⟨letters, whole, ?_, ends, rfl⟩
          cases letters with
          | nil =>
            have stops := ends b (by rw [← List.nil_append after, ← whole]; rfl)
            simp [continuesName, starts] at stops
          | cons c letters =>
            obtain ⟨rfl, _⟩ := List.cons.inj whole
            exact ⟨starts, fun c member => all c (by simp [member])⟩
      · cases read
  · rintro ⟨letters, rfl, proper, ends, rfl⟩
    cases letters with
    | nil => cases proper
    | cons b letters =>
      have all : ∀ c ∈ b :: letters, continuesName c := by
        intro c member
        rcases List.mem_cons.mp member with rfl | member
        · simp [continuesName, proper.1]
        · exact proper.2 c member
      simp only [List.cons_append, name, if_pos proper.1]
      rw [← List.cons_append, span_append all ends]

theorem quotedText_iff {quote : UInt8} {s contents rest : Bytes} :
    quotedText quote s = .ok (contents, rest) ↔
      s = contents ++ quote :: rest ∧ quote ∉ contents := by
  constructor
  · intro read
    simp only [quotedText] at read
    split at read
    · next found b after cut =>
      cases read
      obtain ⟨rfl, all, ends⟩ := of_span cut
      have closes : b = quote := by simpa using ends b (by simp)
      refine ⟨by rw [closes], ?_⟩
      intro member
      simpa using all quote member
    · cases read
  · rintro ⟨rfl, absent⟩
    have all : ∀ b ∈ contents, (b != quote) = true := by
      intro b member
      simp only [bne_iff_ne]
      rintro rfl
      exact absent member
    rw [quotedText, span_append all (by simp)]

theorem numberEnd_sound {seen s literal rest : Bytes} {last : UInt8}
    (read : numberEnd seen last s = .ok (literal, rest)) :
    s = rest ∧ literal = seen.reverse ∧ last ≠ underscore := by
  simp only [numberEnd] at read
  split at read
  · cases read
  · next proper =>
    cases read
    exact ⟨rfl, rfl, by simpa using proper⟩

theorem numberTail_sound {seen s literal rest : Bytes} {last : UInt8}
    (read : numberTail seen last s = .ok (literal, rest)) :
    ∃ tail, s = tail ++ rest ∧ literal = seen.reverse ++ tail ∧ ContinuesNumber last tail ∧
      ∀ b ∈ rest.head?, ¬ (isDigit b ∨ isSeparator b) := by
  induction s generalizing seen last with
  | nil =>
    obtain ⟨rfl, rfl, proper⟩ := numberEnd_sound read
    exact ⟨[], rfl, (List.append_nil _).symm, proper, nofun⟩
  | cons b s ih =>
    have more : numberTail (b :: seen) b s = .ok (literal, rest) →
        (isDigit b ∨ isSeparator b ∧ isDigit last) →
        ∃ tail, b :: s = tail ++ rest ∧ literal = seen.reverse ++ tail ∧
          ContinuesNumber last tail ∧ ∀ b ∈ rest.head?, ¬ (isDigit b ∨ isSeparator b) := by
      intro read allowed
      obtain ⟨tail, rfl, rfl, proper, ends⟩ := ih read
      exact ⟨b :: tail, rfl, by simp, ⟨allowed, proper⟩, ends⟩
    simp only [numberTail] at read
    split at read
    · next digit => exact more read (.inl digit)
    · next noDigit =>
      split at read
      · next separator =>
        split at read
        · next behind => exact more read (.inr ⟨separator, behind⟩)
        · cases read
      · next noSeparator =>
        obtain ⟨rfl, rfl, proper⟩ := numberEnd_sound read
        refine ⟨[], rfl, (List.append_nil _).symm, proper, ?_⟩
        intro c head
        cases head
        simp [noDigit, noSeparator]

theorem numberTail_complete {seen tail rest : Bytes} {last : UInt8}
    (proper : ContinuesNumber last tail) (ends : ∀ b ∈ rest.head?, ¬ (isDigit b ∨ isSeparator b)) :
    numberTail seen last (tail ++ rest) = .ok (seen.reverse ++ tail, rest) := by
  induction tail generalizing seen last with
  | nil =>
    have stops : numberEnd seen last rest = .ok (seen.reverse ++ [], rest) := by
      rw [numberEnd, if_neg (by simpa [ContinuesNumber] using proper), List.append_nil]
    cases rest with
    | nil => exact stops
    | cons b rest =>
      have neither := ends b (by simp)
      rw [not_or] at neither
      rw [List.nil_append, numberTail, if_neg neither.1, if_neg neither.2]
      exact stops
  | cons b tail ih =>
    have more : numberTail (b :: seen) b (tail ++ rest) = .ok (seen.reverse ++ b :: tail, rest) := by
      rw [ih proper.2, List.reverse_cons, List.append_assoc, List.singleton_append]
    rw [List.cons_append, numberTail]
    by_cases digit : isDigit b = true
    · rw [if_pos digit]
      exact more
    · obtain ⟨separator, behind⟩ := proper.1.resolve_left digit
      rw [if_neg digit, if_pos separator, if_pos behind]
      exact more

theorem unsignedNumber_iff {s literal rest : Bytes} :
    unsignedNumber s = .ok (literal, rest) ↔
      s = literal ++ rest ∧ IsUnsigned literal ∧ (Token.number literal).Ends rest := by
  constructor
  · intro read
    cases s with
    | nil => cases read
    | cons b s =>
      simp only [unsignedNumber] at read
      split at read
      · next digit =>
        obtain ⟨tail, rfl, rfl, proper, ends⟩ := numberTail_sound read
        exact ⟨rfl, ⟨digit, proper⟩, ends⟩
      · cases read
  · rintro ⟨rfl, proper, ends⟩
    cases literal with
    | nil => cases proper
    | cons b tail =>
      rw [List.cons_append, unsignedNumber, if_pos proper.1, numberTail_complete proper.2 ends]
      rfl

theorem not_isSign_of_isDigit {b : UInt8} (digit : isDigit b) : ¬ isSign b := by
  intro sign
  simp only [isSign, Bool.or_eq_true, beq_iff_eq] at sign
  rcases sign with rfl | rfl <;> revert digit <;> decide

theorem numberLexeme_iff {s literal rest : Bytes} :
    numberLexeme s = .ok (literal, rest) ↔
      s = literal ++ rest ∧ IsNumber literal ∧ (Token.number literal).Ends rest := by
  constructor
  · intro read
    cases s with
    | nil => cases read
    | cons b s =>
      simp only [numberLexeme] at read
      split at read
      · next sign =>
        split at read
        · next digits after found =>
          cases read
          obtain ⟨rfl, proper, ends⟩ := unsignedNumber_iff.mp found
          exact ⟨rfl, .inr ⟨b, digits, rfl, sign, proper⟩, ends⟩
        · cases read
      · obtain ⟨whole, proper, ends⟩ := unsignedNumber_iff.mp read
        exact ⟨whole, .inl proper, ends⟩
  · rintro ⟨rfl, proper | ⟨sign, digits, rfl, isSign, proper⟩, ends⟩
    · have read := unsignedNumber_iff.mpr ⟨rfl, proper, ends⟩
      cases literal with
      | nil => cases proper
      | cons b tail =>
        rw [List.cons_append, numberLexeme, if_neg (not_isSign_of_isDigit proper.1)]
        exact read
    · have read := unsignedNumber_iff.mpr ⟨rfl, proper, ends⟩
      simp only [List.cons_append, numberLexeme, if_pos isSign, read]

/-- Behind its first byte a number has digits, points and underscores only. -/
theorem ContinuesNumber.mem {last b : UInt8} {tail : Bytes} (proper : ContinuesNumber last tail)
    (member : b ∈ tail) : isDigit b ∨ isSeparator b := by
  induction tail generalizing last with
  | nil => cases member
  | cons c rest ih =>
    rcases List.mem_cons.mp member with rfl | member
    · exact proper.1.imp_right And.left
    · exact ih proper.2 member

theorem IsNumber.bytes {literal : Bytes} (proper : IsNumber literal) :
    ∃ b rest, literal = b :: rest ∧ (isDigit b ∨ isSign b) ∧
      ∀ c ∈ rest, isDigit c ∨ isSeparator c := by
  have unsigned : ∀ {digits : Bytes}, IsUnsigned digits → ∃ b rest, digits = b :: rest ∧
      isDigit b ∧ ∀ c ∈ rest, isDigit c ∨ isSeparator c := by
    intro digits proper
    cases digits with
    | nil => cases proper
    | cons b rest => exact ⟨b, rest, rfl, proper.1, fun c => proper.2.mem⟩
  rcases proper with proper | ⟨sign, digits, rfl, isSign, proper⟩
  · obtain ⟨b, rest, rfl, digit, others⟩ := unsigned proper
    exact ⟨b, rest, rfl, .inl digit, others⟩
  · obtain ⟨b, rest, rfl, digit, others⟩ := unsigned proper
    refine ⟨sign, b :: rest, rfl, .inr isSign, ?_⟩
    intro c member
    rcases List.mem_cons.mp member with rfl | member
    · exact .inl digit
    · exact others c member

/-! ## The first byte of a token -/

inductive Kind where
  | text
  | number
  | name
  | mark
deriving DecidableEq

def Token.kind : Token → Kind
  | .text _ _ => .text
  | .number _ => .number
  | .name _ => .name
  | .mark _ => .mark

/-- The kind of token that a byte can start, with the tests in the order in
which they are made when an expression is read. -/
def kindOf (b : UInt8) : Kind :=
  if isQuote b then .text
  else if isDigit b || isSign b then .number
  else if startsName b then .name
  else .mark

theorem kindOf_digit {b : UInt8} (digit : isDigit b) : kindOf b = .number ∧ ¬ isSpace b := by
  have range : 0x30 ≤ b.toNat ∧ b.toNat ≤ 0x39 := by
    simpa [isDigit, UInt8.le_iff_toNat_le] using digit
  have noQuote : ¬ isQuote b := by
    simp only [isQuote, Bool.or_eq_true, beq_iff_eq]
    rintro (rfl | rfl) <;> revert range <;> decide
  refine ⟨by simp [kindOf, noQuote, digit], ?_⟩
  simp only [isSpace, Bool.or_eq_true, beq_iff_eq, Bool.and_eq_true, decide_eq_true_eq,
    UInt8.le_iff_toNat_le]
  rintro (rfl | ⟨_, below⟩)
  · revert range
    decide
  · have : b.toNat ≤ 0x0D := below
    omega

theorem kindOf_startsName {b : UInt8} (starts : startsName b) : kindOf b = .name ∧ ¬ isSpace b := by
  have range : 0x41 ≤ b.toNat := by
    simp only [startsName, Bool.or_eq_true, beq_iff_eq, Bool.and_eq_true, decide_eq_true_eq,
      UInt8.le_iff_toNat_le] at starts
    rcases starts with (⟨above, _⟩ | ⟨above, _⟩) | rfl
    · have : 0x61 ≤ b.toNat := above
      omega
    · exact above
    · decide
  have low : ∀ c : UInt8, c.toNat < 0x41 → b ≠ c := by
    rintro c below rfl
    omega
  have noQuote : ¬ isQuote b := by
    simp [isQuote, low doubleQuote (by decide), low apostrophe (by decide)]
  have noSign : ¬ isSign b := by
    simp [isSign, low plus (by decide), low minus (by decide)]
  have noDigit : ¬ isDigit b := by
    simp only [isDigit, Bool.and_eq_true, decide_eq_true_eq, UInt8.le_iff_toNat_le]
    rintro ⟨_, below⟩
    have : b.toNat ≤ 0x39 := below
    omega
  refine ⟨by simp [kindOf, noQuote, noDigit, noSign, starts], ?_⟩
  simp only [isSpace, Bool.or_eq_true, beq_iff_eq, low 0x20 (by decide), false_or,
    Bool.and_eq_true, decide_eq_true_eq, UInt8.le_iff_toNat_le]
  rintro ⟨_, below⟩
  have : b.toNat ≤ 0x0D := below
  omega

theorem kindOf_mark {b : UInt8} (member : b ∈ marks) : kindOf b = .mark ∧ ¬ isSpace b := by
  simp only [marks, List.mem_cons, List.not_mem_nil, or_false] at member
  rcases member with rfl | rfl | rfl | rfl | rfl | rfl | rfl | rfl <;> decide

/-- The first byte of a token tells its kind and is no blank. -/
theorem Token.first {t : Token} (proper : t.WellFormed) :
    ∃ b rest, t.lexeme = b :: rest ∧ kindOf b = t.kind ∧ ¬ isSpace b := by
  cases t with
  | name letters =>
    cases letters with
    | nil => cases proper
    | cons b rest => exact ⟨b, rest, rfl, kindOf_startsName proper.1⟩
  | text quote contents =>
    refine ⟨quote, contents ++ [quote], rfl, ?_⟩
    have quotes := proper.1
    simp only [isQuote, Bool.or_eq_true, beq_iff_eq] at quotes
    change kindOf quote = .text ∧ ¬ isSpace quote
    rcases quotes with rfl | rfl <;> decide
  | number literal =>
    rcases proper with proper | ⟨sign, digits, rfl, isSign, _⟩
    · cases literal with
      | nil => cases proper
      | cons b rest => exact ⟨b, rest, rfl, kindOf_digit proper.1⟩
    · refine ⟨sign, digits, rfl, ?_⟩
      simp only [Source.isSign, Bool.or_eq_true, beq_iff_eq] at isSign
      change kindOf sign = .number ∧ ¬ isSpace sign
      rcases isSign with rfl | rfl <;> decide
  | mark b =>
    refine ⟨b, [], rfl, ?_⟩
    exact kindOf_mark proper

/-- Two tokens at the front of a source, neither cut short, are one. -/
theorem Token.unique {t u : Token} {s s' : Bytes} (properT : t.WellFormed) (properU : u.WellFormed)
    (endsT : t.Ends s) (endsU : u.Ends s') (same : t.lexeme ++ s = u.lexeme ++ s') :
    t = u ∧ s = s' := by
  obtain ⟨b, restT, lexemeT, kindT, -⟩ := Token.first properT
  obtain ⟨c, restU, lexemeU, kindU, -⟩ := Token.first properU
  have start : b = c := by
    rw [lexemeT, lexemeU] at same
    exact (List.cons.inj same).1
  have kinds : t.kind = u.kind := by rw [← kindT, ← kindU, start]
  match t, u, kinds with
  | .name letters, .name letters', _ =>
    have first := name_iff.mpr ⟨letters, Eq.refl (letters ++ s), properT, endsT, rfl⟩
    have second := name_iff.mpr ⟨letters', same, properU, endsU, rfl⟩
    obtain ⟨-, rfl⟩ := Prod.mk.inj (Except.ok.inj (first.symm.trans second))
    exact ⟨congrArg Token.name (List.append_cancel_right same), rfl⟩
  | .text quote contents, .text quote' contents', _ =>
    simp only [lexeme, List.cons_append, List.append_assoc, List.nil_append] at same
    obtain ⟨rfl, same⟩ := List.cons.inj same
    have first := quotedText_iff.mpr ⟨Eq.refl (contents ++ quote :: s), properT.2⟩
    have second := quotedText_iff.mpr ⟨same, properU.2⟩
    obtain ⟨rfl, rfl⟩ := Prod.mk.inj (Except.ok.inj (first.symm.trans second))
    exact ⟨rfl, rfl⟩
  | .number literal, .number literal', _ =>
    have first := numberLexeme_iff.mpr ⟨Eq.refl (literal ++ s), properT, endsT⟩
    have second := numberLexeme_iff.mpr ⟨same, properU, endsU⟩
    obtain ⟨rfl, rfl⟩ := Prod.mk.inj (Except.ok.inj (first.symm.trans second))
    exact ⟨rfl, rfl⟩
  | .mark b, .mark b', _ =>
    obtain ⟨rfl, rfl⟩ := List.cons.inj same
    exact ⟨rfl, rfl⟩

/-! ## Reading tokens one after another -/

theorem skipSpace_eq_self {b : UInt8} {s : Bytes} (solid : ¬ isSpace b) :
    skipSpace (b :: s) = b :: s := by
  simp [skipSpace, solid]

theorem skipSpace_idem (s : Bytes) : skipSpace (skipSpace s) = skipSpace s := by
  induction s with
  | nil => rfl
  | cons b s ih =>
    by_cases blank : isSpace b = true
    · simpa [skipSpace, blank] using ih
    · rw [skipSpace_eq_self blank, skipSpace_eq_self blank]

namespace Reads

variable {s s' rest rest' : Bytes} {ts us : List Token}

/-- Blanks in front do not matter. -/
theorem of_skipSpace_eq (same : skipSpace s' = skipSpace s) (reads : Reads s ts rest) :
    Reads s' ts rest := by
  cases ts with
  | nil => exact same.trans reads
  | cons t ts =>
    obtain ⟨after, found, others⟩ := reads
    exact ⟨after, same.trans found, others⟩

/-- Nor do blanks behind. -/
theorem rest_of_skipSpace_eq (same : skipSpace rest = skipSpace rest') (reads : Reads s ts rest) :
    Reads s ts rest' := by
  induction ts generalizing s with
  | nil => exact Eq.trans reads same
  | cons t ts ih =>
    obtain ⟨after, found, proper, ends, others⟩ := reads
    exact ⟨after, found, proper, ends, ih others⟩

theorem append_iff : Reads s (ts ++ us) rest ↔ ∃ middle, Reads s ts middle ∧ Reads middle us rest := by
  induction ts generalizing s with
  | nil =>
    constructor
    · intro reads
      exact ⟨s, rfl, reads⟩
    · rintro ⟨middle, same, reads⟩
      exact reads.of_skipSpace_eq same
  | cons t ts ih =>
    constructor
    · rintro ⟨after, found, proper, ends, others⟩
      obtain ⟨middle, front, back⟩ := ih.mp others
      exact ⟨middle, ⟨after, found, proper, ends, front⟩, back⟩
    · rintro ⟨middle, ⟨after, found, proper, ends, front⟩, back⟩
      exact ⟨after, found, proper, ends, ih.mpr ⟨middle, front, back⟩⟩

theorem mark_iff {b : UInt8} (isMark : b ∈ marks) :
    Reads s (.mark b :: ts) rest ↔ ∃ after, skipSpace s = b :: after ∧ Reads after ts rest := by
  constructor
  · rintro ⟨after, found, -, -, others⟩
    exact ⟨after, found, others⟩
  · rintro ⟨after, found, others⟩
    exact ⟨after, found, isMark, trivial, others⟩

end Reads

theorem Spells.of_skipSpace {s : Bytes} {ts : List Token} (spells : Spells (skipSpace s) ts) :
    Spells s ts := by
  induction s with
  | nil => exact spells
  | cons b s ih =>
    by_cases blank : isSpace b = true
    · exact .blank blank (ih (by simpa [skipSpace, blank] using spells))
    · rwa [skipSpace_eq_self blank] at spells

theorem spells_iff_reads {s : Bytes} {ts : List Token} : Spells s ts ↔ Reads s ts [] := by
  constructor
  · intro spells
    induction spells with
    | done => rfl
    | blank space _ ih => exact ih.of_skipSpace_eq (by simp [skipSpace, space])
    | @token t s ts proper ends _ ih =>
      obtain ⟨b, rest, lexeme, -, solid⟩ := Token.first proper
      refine ⟨s, ?_, proper, ends, ih⟩
      rw [lexeme, List.cons_append, skipSpace_eq_self solid]
  · intro reads
    induction ts generalizing s with
    | nil =>
      apply Spells.of_skipSpace
      rw [show skipSpace s = [] from reads]
      exact .done
    | cons t ts ih =>
      obtain ⟨after, found, proper, ends, others⟩ := reads
      apply Spells.of_skipSpace
      rw [found]
      exact .token proper ends (ih others)

/-- A source spells at most one list of tokens. -/
theorem Reads.unique {s : Bytes} {ts us : List Token} (first : Reads s ts [])
    (second : Reads s us []) : ts = us := by
  induction ts generalizing s us with
  | nil =>
    cases us with
    | nil => rfl
    | cons u us =>
      obtain ⟨after, found, proper, -, -⟩ := second
      obtain ⟨b, rest, lexeme, -, -⟩ := Token.first proper
      rw [show skipSpace s = [] from first, lexeme] at found
      cases found
  | cons t ts ih =>
    obtain ⟨after, found, proper, ends, others⟩ := first
    cases us with
    | nil =>
      obtain ⟨b, rest, lexeme, -, -⟩ := Token.first proper
      rw [show skipSpace s = [] from second, lexeme] at found
      cases found
    | cons u us =>
      obtain ⟨after', found', proper', ends', others'⟩ := second
      obtain ⟨rfl, rfl⟩ := Token.unique proper proper' ends ends' (found.symm.trans found')
      rw [ih others others']

end BoxScript.Source
