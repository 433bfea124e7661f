import StackLang.Proofs.Program.Grammar

/-! # Runs of the parser

Reading is a fold over the tokens, so a run splits wherever its tokens do. Between two statements
the parser is settled: the tokens so far are a program, and what comes next begins a statement
unless the last expression can take it. -/

namespace StackLang.Parser

open StackLang.Grammar

def Reads (s : State) (ts : List Token) (s' : State) : Prop := ts.foldlM State.feed s = .ok s'

theorem reads_nil {s s' : State} : Reads s [] s' ↔ s = s' := by
  simp [Reads, pure, Except.pure]

theorem reads_cons {s s' : State} {t : Token} {ts : List Token} :
    Reads s (t :: ts) s' ↔ ∃ m, s.feed t = .ok m ∧ Reads m ts s' := by
  simp only [Reads, List.foldlM_cons, bind, Except.bind]
  cases s.feed t <;> simp

theorem reads_append {s s' : State} {ts us : List Token} :
    Reads s (ts ++ us) s' ↔ ∃ m, Reads s ts m ∧ Reads m us s' := by
  induction ts generalizing s with
  | nil => simp [reads_nil]
  | cons t ts ih =>
    simp only [List.cons_append, reads_cons, ih]
    constructor
    · intro h
      obtain ⟨m, hm, k, hk, hr⟩ := h
      exact ⟨k, ⟨m, hm, hk⟩, hr⟩
    · intro h
      obtain ⟨k, ⟨m, hm, hk⟩, hr⟩ := h
      exact ⟨m, hm, k, hk, hr⟩

theorem reads_singleton {s s' : State} {t : Token} : Reads s [t] s' ↔ s.feed t = .ok s' := by
  simp [reads_cons, reads_nil]

theorem Reads.trans {s m s' : State} {ts us : List Token} (h : Reads s ts m)
    (h' : Reads m us s') : Reads s (ts ++ us) s' := reads_append.mpr ⟨m, h, h'⟩

theorem Reads.cons {s m s' : State} {t : Token} {ts : List Token} (h : s.feed t = .ok m)
    (h' : Reads m ts s') : Reads s (t :: ts) s' := reads_cons.mpr ⟨m, h, h'⟩

theorem Reads.det {s a b : State} {ts : List Token} (ha : Reads s ts a) (hb : Reads s ts b) :
    a = b := Except.ok.inj (ha.symm.trans hb)

/-- Two states that take the first token alike read the whole list alike. -/
theorem Reads.of_head {s r s' : State} {ts : List Token} (h : Reads r ts s') (hne : ts ≠ [])
    (hf : ∀ t ∈ ts.head?, s.feed t = r.feed t) : Reads s ts s' := by
  cases ts with
  | nil => exact absurd rfl hne
  | cons t ts =>
    obtain ⟨m, hm, hr⟩ := reads_cons.mp h
    exact Reads.cons ((hf t rfl).trans hm) hr

/-! ### Between statements -/

/-- The newest binary operator of the expression. -/
def Chain.last? (c : Chain) : Option BinaryOp := c.pending.head?.map Pending.op

theorem isTight_eq_true {op : BinaryOp} :
    op.isTight = true ↔ ∃ a, IsMultiplicative a ∧ op = .arith a := by
  cases op with
  | arith a => cases a <;> simp [BinaryOp.isTight, IsMultiplicative]
  | logic o => simp [BinaryOp.isTight]

theorem Chain.isLoose_eq_false {c : Chain} :
    c.isLoose = false ↔ ∃ a, IsMultiplicative a ∧ c.last? = some (.arith a) := by
  unfold isLoose last?
  cases c.pending with
  | nil => simp
  | cons p ps => simpa using isTight_eq_true

/-- Whether the operator goes on behind the chain: behind `*`, `/` or `%` a `+` or `-` does not. -/
def Chain.Takes (c : Chain) (op : BinaryOp) : Prop :=
  ∀ a, op = .arith a → IsAdditive a → c.isLoose = true

section Takes

variable {c : Chain}

theorem Chain.takes_of_isLoose {op : BinaryOp} (h : c.isLoose = true) : c.Takes op :=
  fun _ _ _ => h

theorem Chain.takes_logic {op : LogicOp} : c.Takes (.logic op) := by
  intro a ha
  cases ha

theorem Chain.takes_of_multiplicative {op : ArithOp} (h : IsMultiplicative op) :
    c.Takes (.arith op) := by
  intro a ha hadd
  cases ha
  rcases hadd with rfl | rfl <;> simp [IsMultiplicative] at h

end Takes

/-- The tokens may end here: the statements, the newest first, and how the last one ends. -/
inductive Settled : State → List Stmt → SegmentEnd → Prop where
  | boundary {done} : Settled ⟨done, .boundary⟩ done .closed
  | complete {done c last} :
      Settled ⟨done, .complete c last⟩ (c.close last :: done) (.expression c.last?)

theorem exists_settled_iff {s : State} : (∃ done ending, Settled s done ending) ↔
    s.focus = .boundary ∨ ∃ c last, s.focus = .complete c last := by
  constructor
  · intro h
    obtain ⟨done, ending, hs⟩ := h
    cases hs with
    | boundary => exact .inl rfl
    | complete => exact .inr ⟨_, _, rfl⟩
  · intro h
    obtain ⟨done, focus⟩ := s
    rcases h with rfl | ⟨c, last, rfl⟩
    · exact ⟨_, _, .boundary⟩
    · exact ⟨_, _, .complete⟩

theorem Settled.det {s d d' e e'} (h : Settled s d e) (h' : Settled s d' e') :
    d = d' ∧ e = e' := by
  cases h <;> cases h' <;> exact ⟨rfl, rfl⟩

theorem Settled.finish? {s done ending} (h : Settled s done ending) :
    s.finish? = some ⟨done.reverse⟩ := by
  cases h <;> rfl

theorem settled_of_finish? {s : State} {p : Program} (h : s.finish? = some p) :
    ∃ done ending, Settled s done ending ∧ p = ⟨done.reverse⟩ := by
  obtain ⟨done, focus⟩ := s
  cases focus with
  | boundary => exact ⟨_, _, .boundary, (Option.some.inj h).symm⟩
  | complete c last => exact ⟨_, _, .complete, (Option.some.inj h).symm⟩
  | name _ _ | operand _ _ | operandOrEqual _ _ _ _ | equal _ _ _ => cases h

theorem goOn?_of_allows {c : Chain} {last : Expr} {t : Token}
    (ha : (SegmentEnd.expression c.last?).Allows t) (ho : opensStmt t.terminal = true) :
    State.goOn? c last t = none := by
  obtain ⟨hb, hm⟩ := ha
  unfold Token.terminal at hb hm ho
  unfold State.goOn?
  generalize t.lexeme.terminal = x at hb hm ho
  cases x with
  | sign g =>
    cases g with
    | minus => simp [Chain.isLoose_eq_false.mpr (by simpa using hm rfl)]
    | bang => exact absurd rfl hb
    | _ => cases ho
  | and | or | unknown | name _ => cases ho
  | _ => rfl

theorem Settled.feed {s done ending t} (h : Settled s done ending) (ha : ending.Allows t)
    (ho : opensStmt t.terminal = true) : s.feed t = State.begin done t := by
  cases h with
  | boundary => rfl
  | complete => simp [State.feed, goOn?_of_allows ha ho]

theorem begin_of_operand {done : List Stmt} {t : Token} (h : opensOperand t.terminal = true)
    (hn : ¬ IsName t) : State.begin done t = State.feed ⟨done, .operand ⟨.bare, []⟩ []⟩ t := by
  unfold IsName Token.terminal at hn
  unfold Token.terminal at h
  simp only [State.begin, State.feed]
  generalize t.lexeme.terminal = x at h hn
  cases x with
  | name s => exact absurd ⟨s, rfl⟩ hn
  | keyword k => cases h
  | _ => rfl

/-! ### Whole lists -/

theorem parse_eq_ok {ts : List Token} {p : Program} :
    parse ts = .ok p ↔ ts ≠ [] ∧ ∃ s, Reads State.initial ts s ∧ s.finish? = some p := by
  unfold parse
  cases hl : ts.getLast? with
  | none => simp [List.getLast?_eq_none_iff.mp hl]
  | some last =>
    have hne : ts ≠ [] := by rintro rfl; cases hl
    cases hf : ts.foldlM State.feed State.initial with
    | error e => simp [Reads, hf]
    | ok s => cases hs : s.finish? <;> simp [Reads, hf, hs, hne]

end StackLang.Parser
