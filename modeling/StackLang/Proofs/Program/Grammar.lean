import Mathlib.Data.List.Chain
import StackLang.Program.Parser

/-! # The grammar of programs

The grammar as relations between tokens and nodes, with no state of a parser in them. A program is
a row of segments, one for each statement. Nothing stands between two segments, so a cut also says
where a statement may not end: where its expression could go on. -/

namespace StackLang

def Token.terminal (t : Token) : Terminal := t.lexeme.terminal

namespace Grammar

/-- The terminals that a binary operator is written with. -/
def spelling : BinaryOp → List Terminal
  | .arith .add => [.sign .plus]
  | .arith .subtract => [.sign .minus]
  | .arith .multiply => [.sign .star]
  | .arith .divide => [.sign .slash]
  | .arith .modulo => [.sign .percent]
  | .logic .eq => [.sign .equal, .sign .equal]
  | .logic .ne => [.sign .bang, .sign .equal]
  | .logic .lt => [.sign .less]
  | .logic .le => [.sign .less, .sign .equal]
  | .logic .gt => [.sign .more]
  | .logic .ge => [.sign .more, .sign .equal]
  | .logic .and => [.and]
  | .logic .or => [.or]

def Spells (os : List Token) (op : BinaryOp) : Prop := os.map Token.terminal = spelling op

def IsAdditive (op : ArithOp) : Prop := op = .add ∨ op = .subtract

def IsMultiplicative (op : ArithOp) : Prop := op = .multiply ∨ op = .divide ∨ op = .modulo

/-- `unary := atom | "-" unary | "!" unary`, where an atom is a literal or a name. -/
inductive DerivesUnary : List Token → Expr → Prop where
  | number {t x} : t.terminal = .number x → DerivesUnary [t] (.number x t.line)
  | text {t} {s : String} : t.terminal = .text s → DerivesUnary [t] (.text s t.line)
  | boolean {t b} : t.terminal = .boolean b → DerivesUnary [t] (.boolean b t.line)
  | name {t} {s : String} : t.terminal = .name s → DerivesUnary [t] (.var s t.line)
  | minus {t ts e} : t.terminal = .sign .minus → DerivesUnary ts e →
      DerivesUnary (t :: ts) (.arith .subtract (.number .zero e.line) e e.line)
  | bang {t ts e} : t.terminal = .sign .bang → DerivesUnary ts e →
      DerivesUnary (t :: ts) (.not e e.line)

inductive Level where
  | expr | term
deriving DecidableEq

/-- `expr := term | unary ("+" | "-") expr` and
`term := unary | unary ("*" | "/" | "%") term | unary (comparison | "and" | "or") expr`.
The last index is the last binary operator, which decides whether the expression could go on. -/
inductive Derives : Level → List Token → Expr → Option BinaryOp → Prop where
  | unary {ts e} : DerivesUnary ts e → Derives .term ts e none
  | product {op ts os us left right last} : IsMultiplicative op → DerivesUnary ts left →
      Spells os (.arith op) → Derives .term us right last →
      Derives .term (ts ++ os ++ us) (.arith op left right left.line)
        (some (last.getD (.arith op)))
  | logic {op ts os us left right last} : DerivesUnary ts left → Spells os (.logic op) →
      Derives .expr us right last →
      Derives .term (ts ++ os ++ us) (.logic op left right left.line)
        (some (last.getD (.logic op)))
  | term {ts e last} : Derives .term ts e last → Derives .expr ts e last
  | sum {op ts os us left right last} : IsAdditive op → DerivesUnary ts left →
      Spells os (.arith op) → Derives .expr us right last →
      Derives .expr (ts ++ os ++ us) (.arith op left right left.line)
        (some (last.getD (.arith op)))

/-- How a statement ends: with its own words, or with an expression that has the given last
binary operator. -/
inductive SegmentEnd where
  | closed
  | expression (last : Option BinaryOp)
deriving DecidableEq

def IsName (t : Token) : Prop := ∃ s, t.terminal = .name s

inductive DerivesStmt : List Token → Stmt → SegmentEnd → Prop where
  | print {t} : t.terminal = .keyword .print → DerivesStmt [t] (.print t.line) .closed
  | pop {t} : t.terminal = .keyword .pop → DerivesStmt [t] (.pop t.line) .closed
  | dup {t} : t.terminal = .keyword .dup → DerivesStmt [t] (.dup t.line) .closed
  | read {t} : t.terminal = .keyword .read → DerivesStmt [t] (.read t.line) .closed
  | convert {t target} : t.terminal = .keyword (.convert target) →
      DerivesStmt [t] (.convert target t.line) .closed
  | store {t u} {s : String} : t.terminal = .keyword (.onLocal .store) → u.terminal = .name s →
      DerivesStmt [t, u] (.store s t.line) .closed
  | load {t u} {s : String} : t.terminal = .keyword (.onLocal .load) → u.terminal = .name s →
      DerivesStmt [t, u] (.load s t.line) .closed
  | remove {t u} {s : String} : t.terminal = .keyword (.onLocal .remove) → u.terminal = .name s →
      DerivesStmt [t, u] (.remove s t.line) .closed
  | push {t ts e last} : t.terminal = .keyword .push → Derives .expr ts e last →
      DerivesStmt (t :: ts) (.push e t.line) (.expression last)
  -- A name there would be taken for an unknown keyword.
  | bare {ts e last} : Derives .expr ts e last → (∀ t ∈ ts.head?, ¬ IsName t) →
      DerivesStmt ts (.bare e) (.expression last)

/-- Whether the next statement may begin with `t`. A `!` always goes on with an expression, as
half of `!=`; a `-` goes on unless the last operator is `*`, `/` or `%`. -/
def SegmentEnd.Allows : SegmentEnd → Token → Prop
  | closed, _ => True
  | expression last, t =>
    t.terminal ≠ .sign .bang ∧
      (t.terminal = .sign .minus → ∃ op, IsMultiplicative op ∧ last = some (.arith op))

/-- The tokens of one statement, with the statement that they derive. -/
@[ext]
structure Segment where
  tokens : List Token
  stmt : Stmt
  ending : SegmentEnd
  derives : DerivesStmt tokens stmt ending

def Segment.MayPrecede (a b : Segment) : Prop := ∀ t ∈ b.tokens.head?, a.ending.Allows t

/-- A cut of a token list into statements. -/
structure IsCut (ts : List Token) (segs : List Segment) : Prop where
  nonempty : segs ≠ []
  covers : segs.flatMap Segment.tokens = ts
  apart : segs.IsChain Segment.MayPrecede

/-! ### Terminals and lexemes -/

/-- What a lexeme is to the grammar, by its word or its sign. Words are keywords, `and` and `or`, or
else names; a sign may be of any kind that is none of the others. -/
inductive CountsAs : Lexeme → Terminal → Prop where
  | number {x} : CountsAs (.number x) (.number x)
  | text {s} : CountsAs (.text s) (.text s)
  | boolean {b} : CountsAs (.boolean b) (.boolean b)
  | keyword {s k} : (s, k) ∈ keywords → CountsAs (.word s) (.keyword k)
  | and : CountsAs (.word "and") .and
  | or : CountsAs (.word "or") .or
  | name {s} : s ∉ keywords.map Prod.fst → s ≠ "and" → s ≠ "or" → CountsAs (.word s) (.name s)
  | symbol {s g} : (s, g) ∈ signs → CountsAs (.symbol s) (.sign g)
  | other {kind s g} : (s, g) ∈ signs → CountsAs (.other kind s) (.sign g)
  | unknownSymbol {s} : s ∉ signs.map Prod.fst → CountsAs (.symbol s) .unknown
  | unknownOther {kind s} : s ∉ signs.map Prod.fst → CountsAs (.other kind s) .unknown

theorem mem_of_lookup {α : Type} {l : List (String × α)} {s : String} {x : α}
    (h : l.lookup s = some x) : (s, x) ∈ l := by
  obtain ⟨before, after, rfl, -⟩ := List.lookup_eq_some_iff.mp h
  simp

theorem lookup_eq_none_iff_not_mem {α : Type} {l : List (String × α)} {s : String} :
    l.lookup s = none ↔ s ∉ l.map Prod.fst := by
  rw [List.lookup_eq_none_iff, List.mem_map]
  constructor
  · intro h ⟨p, hp, heq⟩
    exact bne_iff_ne.mp (h p hp) heq.symm
  · intro h p hp
    exact bne_iff_ne.mpr fun heq => h ⟨p, hp, heq.symm⟩

/-- No word and no sign stands in its table twice. -/
theorem lookup_of_mem :
    (∀ p ∈ keywords, keywords.lookup p.1 = some p.2) ∧ ∀ p ∈ signs, signs.lookup p.1 = some p.2 := by
  decide

theorem countsAs_word (s : String) : CountsAs (.word s) (.ofWord s) := by
  unfold Terminal.ofWord
  split
  · exact .keyword (mem_of_lookup ‹_›)
  · rename_i hnone
    split
    · subst s
      exact .and
    · split
      · subst s
        exact .or
      · exact .name (lookup_eq_none_iff_not_mem.mp hnone) ‹_› ‹_›

theorem countsAs_terminal (l : Lexeme) : CountsAs l l.terminal := by
  cases l with
  | word s => exact countsAs_word s
  | number x => exact .number
  | text s => exact .text
  | boolean b => exact .boolean
  | symbol s =>
    simp only [Lexeme.terminal, Terminal.ofSymbol]
    split
    · exact .symbol (mem_of_lookup ‹_›)
    · exact .unknownSymbol (lookup_eq_none_iff_not_mem.mp ‹_›)
  | other kind s =>
    simp only [Lexeme.terminal, Terminal.ofSymbol]
    split
    · exact .other (mem_of_lookup ‹_›)
    · exact .unknownOther (lookup_eq_none_iff_not_mem.mp ‹_›)

theorem terminal_eq_iff {l : Lexeme} {x : Terminal} : l.terminal = x ↔ CountsAs l x := by
  constructor
  · intro h
    exact h ▸ countsAs_terminal l
  · intro h
    cases h with
    | number | text | boolean | and | or => rfl
    | keyword hk => simp [Lexeme.terminal, Terminal.ofWord, lookup_of_mem.1 _ hk]
    | name hk hand hor =>
      simp [Lexeme.terminal, Terminal.ofWord, lookup_eq_none_iff_not_mem.mpr hk, hand, hor]
    | symbol hg | other hg => simp [Lexeme.terminal, Terminal.ofSymbol, lookup_of_mem.2 _ hg]
    | unknownSymbol hs | unknownOther hs =>
      simp [Lexeme.terminal, Terminal.ofSymbol, lookup_eq_none_iff_not_mem.mpr hs]

theorem lexeme_of_name {l : Lexeme} {s : String} (h : l.terminal = .name s) :
    l = .word s ∧ s ∉ keywords.map Prod.fst ∧ s ≠ "and" ∧ s ≠ "or" := by
  cases terminal_eq_iff.mp h with
  | name hk hand hor => exact ⟨rfl, hk, hand, hor⟩

theorem lexeme_of_keyword {l : Lexeme} {k : Keyword} (h : l.terminal = .keyword k) :
    ∃ s, l = .word s ∧ (s, k) ∈ keywords := by
  cases terminal_eq_iff.mp h with
  | keyword hk => exact ⟨_, rfl, hk⟩

theorem symbol_of_sign {l : Lexeme} {g : Sign} (h : l.terminal = .sign g) :
    ∃ s : String, (s, g) ∈ signs ∧ (l = .symbol s ∨ ∃ kind, l = .other kind s) := by
  cases terminal_eq_iff.mp h with
  | symbol hg => exact ⟨_, hg, .inl rfl⟩
  | other hg => exact ⟨_, hg, .inr ⟨_, rfl⟩⟩

theorem quoted_of_sign {l : Lexeme} {g : Sign} (h : l.terminal = .sign g) :
    ∃ s : String, (s, g) ∈ signs ∧ l.quoted = Text.quoted s := by
  obtain ⟨s, hs, rfl | ⟨kind, rfl⟩⟩ := symbol_of_sign h
  · exact ⟨s, hs, rfl⟩
  · exact ⟨s, hs, rfl⟩

/-! ### First tokens -/

def opensOperand : Terminal → Bool
  | .number _ | .text _ | .boolean _ | .name _ | .sign .minus | .sign .bang => true
  | _ => false

def opensStmt : Terminal → Bool
  | .keyword _ => true
  | .name _ => false
  | x => opensOperand x

theorem DerivesUnary.opens {ts e} (h : DerivesUnary ts e) :
    ∃ t rest, ts = t :: rest ∧ opensOperand t.terminal = true := by
  cases h with
  | number ht | text ht | boolean ht | name ht => exact ⟨_, [], rfl, by rw [ht]; rfl⟩
  | minus ht _ | bang ht _ => exact ⟨_, _, rfl, by rw [ht]; rfl⟩

theorem Derives.opens {lvl ts e last} (h : Derives lvl ts e last) :
    ∃ t rest, ts = t :: rest ∧ opensOperand t.terminal = true := by
  induction h with
  | unary hu => exact hu.opens
  | product _ hu _ _ _ | logic hu _ _ _ | sum _ hu _ _ _ =>
    obtain ⟨t, rest, rfl, ht⟩ := hu.opens
    exact ⟨t, _, rfl, ht⟩
  | term _ ih => exact ih

theorem opensStmt_of_opensOperand {t : Token} (h : opensOperand t.terminal = true)
    (hn : ¬ IsName t) : opensStmt t.terminal = true := by
  unfold opensStmt
  split
  · rfl
  · exact absurd ⟨_, ‹_›⟩ hn
  · exact h

theorem DerivesStmt.opens {ts b ending} (h : DerivesStmt ts b ending) :
    ∃ t rest, ts = t :: rest ∧ opensStmt t.terminal = true := by
  cases h with
  | print ht | pop ht | dup ht | read ht | convert ht => exact ⟨_, [], rfl, by rw [ht]; rfl⟩
  | store ht _ | load ht _ | remove ht _ | push ht _ => exact ⟨_, _, rfl, by rw [ht]; rfl⟩
  | bare he hn =>
    obtain ⟨t, rest, rfl, ht⟩ := he.opens
    exact ⟨t, rest, rfl, opensStmt_of_opensOperand ht (hn t rfl)⟩

end Grammar

end StackLang
