import StackLang.Proofs.Program.Cuts

/-! # Where lines of nodes come from

Each node of a program was read from tokens that stand together. A statement is on the line of the
first one of its tokens. An expression is on the line of the first one that is no sign before an
operand, which is the first one of all unless such signs stand in front. -/

namespace StackLang

/-- The nodes of an expression: first itself, then the nodes of its operands from left to right. -/
def Expr.nodes : Expr → List Expr
  | e@(arith _ left right _) | e@(logic _ left right _) => e :: (left.nodes ++ right.nodes)
  | e@(not operand _) => e :: operand.nodes
  | e@(number ..) | e@(text ..) | e@(boolean ..) | e@(var ..) => [e]

def Stmt.expr? : Stmt → Option Expr
  | push e _ | bare e => some e
  | _ => none

theorem BinaryOp.line_build (op : BinaryOp) (left right : Expr) :
    (op.build left right).line = left.line := by
  cases op <;> rfl

theorem BinaryOp.nodes_build (op : BinaryOp) (left right : Expr) :
    (op.build left right).nodes = op.build left right :: (left.nodes ++ right.nodes) := by
  cases op <;> rfl

namespace Grammar

open StackLang.Parser (State.atom? State.unary?)

/-- A node with the tokens that it was read from. -/
structure Span where
  tokens : List Token
  node : Expr

/-- The spans of an expression that tokens derive, in the order of its nodes. The zero that a minus
is taken from has no token of its own, and is in the place of the minus. -/
inductive Spans : List Token → Expr → List Span → Prop where
  | atom {t e} : State.atom? t = some e → Spans [t] e [⟨[t], e⟩]
  | minus {t ts e spans} : t.terminal = .sign .minus → DerivesUnary ts e → Spans ts e spans →
      Spans (t :: ts) (Unary.minus.build e)
        (⟨t :: ts, Unary.minus.build e⟩ :: ⟨t :: ts, .number .zero e.line⟩ :: spans)
  | bang {t ts e spans} : t.terminal = .sign .bang → DerivesUnary ts e → Spans ts e spans →
      Spans (t :: ts) (Unary.bang.build e) (⟨t :: ts, Unary.bang.build e⟩ :: spans)
  | binary {op ts os us left right last spans more} : DerivesUnary ts left → Spells os op →
      Derives (rightLevel op) us right last → Spans ts left spans → Spans us right more →
      Spans (ts ++ os ++ us) (op.build left right)
        (⟨ts ++ os ++ us, op.build left right⟩ :: (spans ++ more))

/-- The tokens of a span derive its node, unless the node is the zero of a minus. -/
def Span.IsRead (s : Span) : Prop :=
  (∃ last, Derives .expr s.tokens s.node last) ∨
    ∃ t ts e, s.tokens = t :: ts ∧ t.terminal = .sign .minus ∧ DerivesUnary ts e ∧
      s.node = .number .zero e.line

/-- The line of the first token that is no sign before an operand. -/
def operandLine? (ts : List Token) : Option Int :=
  (ts.find? fun t => (State.unary? t).isNone).map Token.line

/-! ### Signs and operands -/

section

variable {t : Token} {ts : List Token} {e : Expr}

theorem unary?_of_atom? (h : State.atom? t = some e) : State.unary? t = none ∧ e.line = t.line := by
  unfold State.atom? at h
  unfold State.unary?
  split at h
  case h_5 => cases h
  all_goals
    rename_i hterminal
    cases h
    rw [hterminal]
    exact ⟨rfl, rfl⟩

theorem operandLine?_cons_of_unary? {u : Unary} (h : State.unary? t = some u) :
    operandLine? (t :: ts) = operandLine? ts := by
  simp [operandLine?, h]

theorem operandLine?_cons_of_none (h : State.unary? t = none) :
    operandLine? (t :: ts) = some t.line := by
  simp [operandLine?, h]

theorem unary?_of_minus (h : t.terminal = .sign .minus) : State.unary? t = some .minus := by
  have hterminal : t.lexeme.terminal = .sign .minus := h
  rw [State.unary?, hterminal]

theorem unary?_of_bang (h : t.terminal = .sign .bang) : State.unary? t = some .bang := by
  have hterminal : t.lexeme.terminal = .sign .bang := h
  rw [State.unary?, hterminal]

/-- What an operand derives from is an atom with signs in front. -/
theorem DerivesUnary.operandLine?_append (h : DerivesUnary ts e) (rest : List Token) :
    operandLine? (ts ++ rest) = some e.line := by
  induction h with
  | @number t x ht | @text t x ht | @boolean t x ht | @name t x ht =>
    have hterminal : t.lexeme.terminal = _ := ht
    have hunary : State.unary? t = none := by rw [State.unary?, hterminal]
    exact operandLine?_cons_of_none hunary
  | minus ht _ ih => exact (operandLine?_cons_of_unary? (unary?_of_minus ht)).trans ih
  | bang ht _ ih => exact (operandLine?_cons_of_unary? (unary?_of_bang ht)).trans ih

theorem DerivesUnary.operandLine?_eq (h : DerivesUnary ts e) : operandLine? ts = some e.line := by
  simpa using h.operandLine?_append []

end

/-! ### Spans -/

section

variable {ts : List Token} {e : Expr} {spans : List Span}

theorem DerivesUnary.exists_spans (h : DerivesUnary ts e) : ∃ spans, Spans ts e spans := by
  induction h with
  | @number t x ht | @text t x ht | @boolean t x ht | @name t x ht =>
    have hterminal : t.lexeme.terminal = _ := ht
    exact ⟨_, .atom (by rw [State.atom?, hterminal])⟩
  | minus ht hu ih =>
    obtain ⟨spans, hspans⟩ := ih
    exact ⟨_, .minus ht hu hspans⟩
  | bang ht hu ih =>
    obtain ⟨spans, hspans⟩ := ih
    exact ⟨_, .bang ht hu hspans⟩

theorem Derives.exists_spans {lvl : Level} {last : Option BinaryOp} (h : Derives lvl ts e last) :
    ∃ spans, Spans ts e spans := by
  have hbinary : ∀ {op ts os us left right last}, DerivesUnary ts left → Spells os op →
      Derives (rightLevel op) us right last → (∃ spans, Spans us right spans) →
      ∃ spans, Spans (ts ++ os ++ us) (op.build left right) spans := by
    rintro op ts os us left right last hu hos hright ⟨more, hmore⟩
    obtain ⟨spans, hspans⟩ := hu.exists_spans
    exact ⟨_, .binary hu hos hright hspans hmore⟩
  induction h with
  | unary hu => exact hu.exists_spans
  | term _ ih => exact ih
  | @product op _ _ _ _ _ _ hop hu hos hright ih =>
    have hlevel : rightLevel (.arith op) = .term := by
      rcases hop with rfl | rfl | rfl <;> rfl
    exact hbinary hu hos (hlevel ▸ hright) ih
  | logic hu hos hright ih => exact hbinary hu hos hright ih
  | @sum op _ _ _ _ _ _ hop hu hos hright ih =>
    have hlevel : rightLevel (.arith op) = .expr := by
      rcases hop with rfl | rfl <;> rfl
    exact hbinary hu hos (hlevel ▸ hright) ih

namespace Spans

/-- Each node has its span. -/
theorem map_node (h : Spans ts e spans) : spans.map Span.node = e.nodes := by
  induction h with
  | @atom t e ht =>
    unfold State.atom? at ht
    split at ht <;> cases ht <;> rfl
  | minus _ _ _ ih | bang _ _ _ ih => simp [ih, Unary.build, Expr.nodes]
  | binary _ _ _ _ _ ihl ihr => simp [ihl, ihr, BinaryOp.nodes_build]

theorem isRead (h : Spans ts e spans) : ∀ s ∈ spans, s.IsRead := by
  induction h with
  | atom ht =>
    rw [List.forall_mem_singleton]
    exact .inl ⟨_, .term (.unary (atom_derives ht))⟩
  | minus ht hu _ ih =>
    simp only [List.forall_mem_cons]
    exact ⟨.inl ⟨_, .term (.unary (.minus ht hu))⟩, .inr ⟨_, _, _, rfl, ht, hu, rfl⟩, ih⟩
  | bang ht hu _ ih =>
    simp only [List.forall_mem_cons]
    exact ⟨.inl ⟨_, .term (.unary (.bang ht hu))⟩, ih⟩
  | binary hu hos hright _ _ ihl ihr =>
    simp only [List.forall_mem_cons, List.forall_mem_append]
    exact ⟨.inl ⟨_, Derives.extend hu hos (fun _ _ _ => rfl) hright⟩, ihl, ihr⟩

/-- The tokens of a node stand together. -/
theorem isInfix (h : Spans ts e spans) : ∀ s ∈ spans, s.tokens <:+: ts := by
  induction h with
  | atom _ => simp
  | minus _ _ _ ih | bang _ _ _ ih =>
    have hrest := fun t s hs => (ih s hs).trans (List.suffix_cons t _).isInfix
    simpa using hrest _
  | @binary _ ts os us _ _ _ _ _ _ _ _ _ _ ihl ihr =>
    simp only [List.forall_mem_cons, List.forall_mem_append]
    refine ⟨List.infix_refl _, fun s hs => (ihl s hs).trans ?_, fun s hs => (ihr s hs).trans ?_⟩
    · rw [List.append_assoc]
      exact (List.prefix_append _ _).isInfix
    · exact (List.suffix_append _ _).isInfix

/-- Each node is on the line of the first token of its span that is no sign before an operand. -/
theorem operandLine?_eq (h : Spans ts e spans) :
    ∀ s ∈ spans, operandLine? s.tokens = some s.node.line := by
  induction h with
  | @atom t e ht =>
    obtain ⟨hunary, hline⟩ := unary?_of_atom? ht
    simp [operandLine?_cons_of_none hunary, hline]
  | minus ht hu _ ih =>
    have hline := (DerivesUnary.minus ht hu).operandLine?_eq
    simp only [List.forall_mem_cons]
    exact ⟨hline, hline, ih⟩
  | bang ht hu _ ih =>
    simp only [List.forall_mem_cons]
    exact ⟨(DerivesUnary.bang ht hu).operandLine?_eq, ih⟩
  | @binary op ts os us left right _ _ _ hu _ _ _ _ ihl ihr =>
    simp only [List.forall_mem_cons, List.forall_mem_append]
    refine ⟨?_, ihl, ihr⟩
    rw [List.append_assoc, hu.operandLine?_append, BinaryOp.line_build]

end Spans

end

/-! ### Segments -/

/-- The tokens of the expression in a statement: all but the word `push`. -/
def Segment.exprTokens (seg : Segment) : List Token :=
  match seg.stmt with
  | .push .. => seg.tokens.tail
  | _ => seg.tokens

variable {seg : Segment}

theorem Segment.line_eq (h : ∀ e, seg.stmt ≠ .bare e) :
    seg.tokens.head?.map Token.line = some seg.stmt.line := by
  obtain ⟨tokens, stmt, ending, hderives⟩ := seg
  cases hderives with
  | @bare _ e => exact absurd rfl (h e)
  | print | pop | dup | read | convert | store | load | remove | push => rfl

theorem Segment.exprTokens_isSuffix (seg : Segment) : seg.exprTokens <:+ seg.tokens := by
  unfold exprTokens
  split
  · exact List.tail_suffix _
  · exact List.suffix_refl _

theorem Segment.exists_spans {e : Expr} (h : seg.stmt.expr? = some e) :
    ∃ spans, Spans seg.exprTokens e spans := by
  obtain ⟨tokens, stmt, ending, hderives⟩ := seg
  cases hderives with
  | push _ hexpr =>
    cases h
    exact hexpr.exists_spans
  | bare hexpr _ =>
    cases h
    exact hexpr.exists_spans
  | print | pop | dup | read | convert | store | load | remove => cases h

end Grammar

/-- An accepted token list is cut into statements. A statement with a word of its own is on the line
of its first token. Each node of the expression in a statement has a span of tokens that stand
together, and is on the line of the first one of them that is no sign before an operand. So it is on
the line of the very first one whenever that is no such sign. -/
theorem node_line_of_operand {ts : List Token} {p : Program} (h : parse ts = .ok p) :
    ∃ segs : List Grammar.Segment, Grammar.IsCut ts segs ∧ segs.map Grammar.Segment.stmt = p.body ∧
      ∀ seg ∈ segs,
        ((∀ e, seg.stmt ≠ .bare e) → seg.tokens.head?.map Token.line = some seg.stmt.line) ∧
        ∀ e, seg.stmt.expr? = some e → (∃ spans, Grammar.Spans seg.exprTokens e spans) ∧
          ∀ spans, Grammar.Spans seg.exprTokens e spans →
            spans.map Grammar.Span.node = e.nodes ∧
            ∀ s ∈ spans, s.IsRead ∧ s.tokens <:+: seg.tokens ∧
              Grammar.operandLine? s.tokens = some s.node.line ∧
              ∀ t ∈ s.tokens.head?, Parser.State.unary? t = none → s.node.line = t.line := by
  obtain ⟨segs, hcut, hbody⟩ := Grammar.exists_isCut_of_parse h
  refine ⟨segs, hcut, hbody, fun seg _ => ⟨seg.line_eq, fun e he => ⟨seg.exists_spans he, ?_⟩⟩⟩
  intro spans hspans
  refine ⟨hspans.map_node, fun s hs => ?_⟩
  have hline := hspans.operandLine?_eq s hs
  have hinfix := (hspans.isInfix s hs).trans seg.exprTokens_isSuffix.isInfix
  refine ⟨hspans.isRead s hs, hinfix, hline, fun t ht hunary => ?_⟩
  cases htokens : s.tokens with
  | nil =>
    rw [htokens] at ht
    cases ht
  | cons u rest =>
    rw [htokens] at ht hline
    cases ht
    rw [Grammar.operandLine?_cons_of_none hunary] at hline
    exact (Option.some.inj hline).symm

theorem node_line_of_operand_sum :
    let ts : List Token := [⟨.word "push", 1⟩, ⟨.number .one, 2⟩, ⟨.symbol "+", 3⟩, ⟨.symbol "!", 4⟩,
      ⟨.boolean true, 5⟩]
    let e : Expr := .arith .add (.number .one 2) (.not (.boolean true 5) 5) 2
    parse ts = .ok ⟨[.push e 1]⟩ ∧
      ∃ spans, Grammar.Spans ts.tail e spans ∧ spans.map Grammar.Span.node = e.nodes ∧
        ∀ s ∈ spans, Grammar.operandLine? s.tokens = some s.node.line := by
  intro ts e
  have hparse : parse ts = .ok ⟨[.push e 1]⟩ := by decide +kernel
  obtain ⟨segs, hcut, hbody, hsegs⟩ := node_line_of_operand hparse
  obtain ⟨seg, rfl, hstmt⟩ := List.map_eq_singleton_iff.mp hbody
  have htokens : seg.tokens = ts := by simpa using hcut.covers
  have hexpr : seg.exprTokens = ts.tail := by
    rw [Grammar.Segment.exprTokens, hstmt]
    exact congrArg List.tail htokens
  obtain ⟨⟨spans, hspans⟩, hlines⟩ := (hsegs seg List.mem_cons_self).2 e (by rw [hstmt]; rfl)
  obtain ⟨hnodes, hspan⟩ := hlines spans hspans
  exact ⟨hparse, spans, hexpr ▸ hspans, hnodes, fun s hs => (hspan s hs).2.2.1⟩

/-- A minus is the first token of a difference that is on the line of its operand. -/
theorem difference_not_on_line_of_minus :
    let ts : List Token := [⟨.symbol "-", 1⟩, ⟨.number .one, 2⟩]
    let e : Expr := .arith .subtract (.number .zero 2) (.number .one 2) 2
    parse ts = .ok ⟨[.bare e]⟩ ∧
      Grammar.Spans ts e [⟨ts, e⟩, ⟨ts, .number .zero 2⟩, ⟨ts.tail, .number .one 2⟩] ∧
      ¬ ∀ t ∈ ts.head?, e.line = t.line := by
  intro ts e
  exact ⟨by decide +kernel, .minus rfl (.number rfl) (.atom rfl), by simp [ts, e, Expr.line]⟩

end StackLang
