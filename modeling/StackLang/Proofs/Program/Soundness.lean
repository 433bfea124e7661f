import StackLang.Proofs.Program.Reading

/-! # Every run reads a derivation

What has been read is a row of whole segments and, inside a statement, a part of the next one. The
part is described focus by focus; each token either grows it, or ends it and begins the next. -/

namespace StackLang.Grammar

open StackLang.Parser

/-- The tokens before the current operand, from the beginning of its statement. -/
inductive OpenChain : List Token → Chain → Prop where
  | bare : OpenChain [] ⟨.bare, []⟩
  | push {t} : t.terminal = .keyword .push → OpenChain [t] ⟨.push t.line, []⟩
  | extend {pre us os c left op} : OpenChain pre c → DerivesUnary us left → Spells os op →
      c.Takes op → OpenChain (pre ++ us ++ os) (c.extend left op)

/-- The signs before an operand, which the parser keeps with the newest first. -/
inductive Signed : List Token → List Unary → Prop where
  | nil : Signed [] []
  | snoc {ts signs t u} : Signed ts signs → State.unary? t = some u →
      Signed (ts ++ [t]) (u :: signs)

/-- The tokens of a statement that has begun. -/
inductive Partial : List Token → Focus → Prop where
  | name {t action} : t.terminal = .keyword (.onLocal action) → Partial [t] (.name action t.line)
  | operand {pre ss c signs} : OpenChain pre c → Signed ss signs →
      Partial (pre ++ ss) (.operand c signs)
  | less {pre us c left t} : OpenChain pre c → DerivesUnary us left → t.terminal = .sign .less →
      Partial (pre ++ us ++ [t]) (.operandOrEqual c left .lt .le)
  | more {pre us c left t} : OpenChain pre c → DerivesUnary us left → t.terminal = .sign .more →
      Partial (pre ++ us ++ [t]) (.operandOrEqual c left .gt .ge)
  | equal {pre us c left t} : OpenChain pre c → DerivesUnary us left → t.terminal = .sign .equal →
      Partial (pre ++ us ++ [t]) (.equal c left .eq)
  | bang {pre us c left t} : OpenChain pre c → DerivesUnary us left → t.terminal = .sign .bang →
      Partial (pre ++ us ++ [t]) (.equal c left .ne)
  | complete {pre us c last} : OpenChain pre c → DerivesUnary us last →
      Partial (pre ++ us) (.complete c last)

/-! ### Closing a chain -/

/-- What the right operand of an operator is. -/
def rightLevel (op : BinaryOp) : Level := if op.isTight then .term else .expr

/-- What may stand behind a chain. -/
def Chain.level (c : Chain) : Level := if c.isLoose then .expr else .term

theorem level_extend (c : Chain) (left : Expr) (op : BinaryOp) :
    Chain.level (c.extend left op) = rightLevel op := by
  simp only [Chain.level, rightLevel, Chain.isLoose, Chain.extend]
  by_cases h : op.isTight = true <;> simp [h]

theorem Derives.lift {lvl ts e last} (h : Derives .term ts e last) : Derives lvl ts e last := by
  cases lvl with
  | term => exact h
  | expr => exact .term h

theorem Derives.extend {lvl ts os us left right last} {op : BinaryOp} (hu : DerivesUnary ts left)
    (hs : Spells os op) (hl : ∀ a, op = .arith a → IsAdditive a → lvl = .expr)
    (hd : Derives (rightLevel op) us right last) :
    Derives lvl (ts ++ os ++ us) (op.build left right) (some (last.getD op)) := by
  cases op with
  | arith a =>
    cases a with
    | add =>
      rw [hl .add rfl (.inl rfl)]
      exact .sum (.inl rfl) hu hs hd
    | subtract =>
      rw [hl .subtract rfl (.inr rfl)]
      exact .sum (.inr rfl) hu hs hd
    | multiply => exact (Derives.product (.inl rfl) hu hs hd).lift
    | divide => exact (Derives.product (.inr (.inl rfl)) hu hs hd).lift
    | modulo => exact (Derives.product (.inr (.inr rfl)) hu hs hd).lift
  | logic o => exact (Derives.logic hu hs hd).lift

theorem OpenChain.derives {pre c} (h : OpenChain pre c) {us e last}
    (hd : Derives (Chain.level c) us e last) (hn : ∀ t ∈ (pre ++ us).head?, ¬ IsName t) :
    DerivesStmt (pre ++ us) (c.close e) (.expression (last.or c.last?)) := by
  induction h generalizing us e last with
  | bare =>
    change DerivesStmt us (.bare e) (.expression (last.or none))
    rw [Option.or_none]
    exact .bare hd hn
  | @push t ht =>
    change DerivesStmt (t :: us) (.push e t.line) (.expression (last.or none))
    rw [Option.or_none]
    exact .push ht hd
  | @extend pre vs os c left op hc hu hs hl ih =>
    rw [level_extend] at hd
    have hlevel : ∀ a, op = .arith a → IsAdditive a → Chain.level c = .expr := fun a ha hadd => by
      rw [Chain.level, hl a ha hadd, if_pos rfl]
    have hstmt := ih (Derives.extend hu hs hlevel hd) (by simpa using hn)
    have hlast : (some (last.getD op)).or c.last? = last.or (c.extend left op).last? := by
      cases last <;> rfl
    rw [hlast] at hstmt
    rw [List.append_assoc, List.append_assoc, ← List.append_assoc vs os us]
    exact hstmt

theorem Signed.derives {ss signs} (h : Signed ss signs) {us e} (hu : DerivesUnary us e) :
    DerivesUnary (ss ++ us) (signs.foldl (fun e u => u.build e) e) := by
  induction h generalizing us e with
  | nil => exact hu
  | @snoc ts signs t u _ ht ih =>
    rw [List.append_assoc]
    refine ih ?_
    unfold State.unary? at ht
    split at ht
    · cases ht
      exact .minus ‹_› hu
    · cases ht
      exact .bang ‹_› hu
    · cases ht

theorem Partial.complete_derives {part c last} (h : Partial part (.complete c last))
    (hn : ∀ t ∈ part.head?, ¬ IsName t) :
    DerivesStmt part (c.close last) (.expression c.last?) := by
  cases h with
  | complete hc hu => simpa using hc.derives (Derives.lift (.unary hu)) hn

/-! ### What one token does -/

theorem atom_derives {t : Token} {e : Expr} (h : State.atom? t = some e) : DerivesUnary [t] e := by
  unfold State.atom? at h
  split at h
  · cases h; exact .number ‹_›
  · cases h; exact .text ‹_›
  · cases h; exact .boolean ‹_›
  · cases h; exact .name ‹_›
  · cases h

/-- An operand, or one more sign before it. -/
theorem feedOperand_ok {done : List Stmt} {pre ss : List Token} {c : Chain} {signs : List Unary}
    {t : Token} {s' : State} (hc : OpenChain pre c) (hs : Signed ss signs)
    (h : State.feedOperand done c signs t = .ok s') :
    ∃ focus, s' = ⟨done, focus⟩ ∧ Partial (pre ++ ss ++ [t]) focus := by
  unfold State.feedOperand at h
  split at h
  · cases h
    refine ⟨_, rfl, ?_⟩
    rw [List.append_assoc]
    exact .complete hc (hs.derives (atom_derives ‹_›))
  · cases h
    refine ⟨_, rfl, ?_⟩
    rw [List.append_assoc]
    exact .operand hc (.snoc hs ‹_›)
  · cases h

/-- A word that is a statement, or the first token of a longer one. -/
theorem begin_ok {done : List Stmt} {t : Token} {s' : State} (h : State.begin done t = .ok s') :
    ¬ IsName t ∧ ((∃ b, s' = ⟨b :: done, .boundary⟩ ∧ DerivesStmt [t] b .closed) ∨
      ∃ focus, s' = ⟨done, focus⟩ ∧ Partial [t] focus) := by
  have hkey : ∀ k, t.terminal = .keyword k → ¬ IsName t := by
    intro k hk hn
    obtain ⟨s, hs⟩ := hn
    rw [hk] at hs
    cases hs
  unfold State.begin at h
  split at h
  · cases h
  · cases h
    have hp := Partial.operand (.push ‹t.terminal = _›) .nil
    exact ⟨hkey _ ‹_›, .inr ⟨_, rfl, hp⟩⟩
  · cases h; exact ⟨hkey _ ‹_›, .inl ⟨_, rfl, .print ‹_›⟩⟩
  · cases h; exact ⟨hkey _ ‹_›, .inl ⟨_, rfl, .pop ‹_›⟩⟩
  · cases h; exact ⟨hkey _ ‹_›, .inl ⟨_, rfl, .dup ‹_›⟩⟩
  · cases h; exact ⟨hkey _ ‹_›, .inl ⟨_, rfl, .read ‹_›⟩⟩
  · cases h; exact ⟨hkey _ ‹_›, .inl ⟨_, rfl, .convert ‹_›⟩⟩
  · cases h; exact ⟨hkey _ ‹_›, .inr ⟨_, rfl, .name ‹_›⟩⟩
  · refine ⟨?_, .inr (feedOperand_ok .bare .nil h)⟩
    intro hn
    obtain ⟨s, hs⟩ := hn
    exact absurd hs (‹∀ s, t.lexeme.terminal = .name s → False› s)

theorem feedName_ok {done : List Stmt} {t u : Token} {action : LocalAction} {s' : State}
    (ht : t.terminal = .keyword (.onLocal action))
    (h : State.feedName done action t.line u = .ok s') :
    ∃ b, s' = ⟨b :: done, .boundary⟩ ∧ DerivesStmt [t, u] b .closed := by
  unfold State.feedName at h
  split at h
  · cases h; exact ⟨_, rfl, .store ht ‹_›⟩
  · cases h; exact ⟨_, rfl, .load ht ‹_›⟩
  · cases h; exact ⟨_, rfl, .remove ht ‹_›⟩
  · cases h

/-- An operator that is whole, ready for its right operand. -/
theorem Partial.extend {pre us os c left op} (hc : OpenChain pre c) (hu : DerivesUnary us left)
    (hs : Spells os op) (hl : c.Takes op) :
    Partial (pre ++ us ++ os) (.operand (c.extend left op) []) := by
  simpa using Partial.operand (.extend hc hu hs hl) .nil

theorem goOn?_some {pre us : List Token} {c : Chain} {last : Expr} {t : Token} {focus : Focus}
    (hc : OpenChain pre c) (hu : DerivesUnary us last) (h : State.goOn? c last t = some focus) :
    Partial (pre ++ us ++ [t]) focus := by
  unfold State.goOn? at h
  have hs : ∀ {x op}, t.lexeme.terminal = x → spelling op = [x] → Spells [t] op := by
    intro x op hx hop
    rw [Spells, hop, ← hx]
    rfl
  have hm : ∀ {op}, IsMultiplicative op → c.Takes (.arith op) := Chain.takes_of_multiplicative
  split at h
  · split at h
    · cases h; exact .extend hc hu (hs ‹_› rfl) (Chain.takes_of_isLoose ‹_›)
    · cases h
  · split at h
    · cases h; exact .extend hc hu (hs ‹_› rfl) (Chain.takes_of_isLoose ‹_›)
    · cases h
  · cases h; exact .extend hc hu (hs ‹_› rfl) (hm (by simp [IsMultiplicative]))
  · cases h; exact .extend hc hu (hs ‹_› rfl) (hm (by simp [IsMultiplicative]))
  · cases h; exact .extend hc hu (hs ‹_› rfl) (hm (by simp [IsMultiplicative]))
  · cases h; exact .extend hc hu (hs ‹_› rfl) Chain.takes_logic
  · cases h; exact .extend hc hu (hs ‹_› rfl) Chain.takes_logic
  · cases h; exact .less hc hu ‹_›
  · cases h; exact .more hc hu ‹_›
  · cases h; exact .equal hc hu ‹_›
  · cases h; exact .bang hc hu ‹_›
  · cases h

/-- What does not go on with an expression may follow it. -/
theorem allows_of_goOn? {c : Chain} {last : Expr} {t : Token} (h : State.goOn? c last t = none) :
    (SegmentEnd.expression c.last?).Allows t := by
  constructor
  · intro hb
    simp [State.goOn?, show t.lexeme.terminal = _ from hb] at h
  · intro hm
    simp only [State.goOn?, show t.lexeme.terminal = _ from hm] at h
    exact Chain.isLoose_eq_false.mp (by simpa using h)

section Comparisons

variable {done : List Stmt} {pre us : List Token} {c : Chain} {left : Expr} {t u : Token}
  {s' : State} (hc : OpenChain pre c) (hu : DerivesUnary us left)
include hc hu

theorem feed_equal_ok {op : LogicOp}
    (he : ∀ v : Token, v.terminal = .sign .equal → Spells [u, v] (.logic op))
    (h : State.feed ⟨done, .equal c left op⟩ t = .ok s') :
    ∃ focus, s' = ⟨done, focus⟩ ∧ Partial (pre ++ us ++ [u] ++ [t]) focus := by
  simp only [State.feed, State.isEqual, beq_iff_eq] at h
  split at h
  · cases h
    have hp := Partial.extend hc hu (he t ‹_›) Chain.takes_logic
    exact ⟨_, rfl, by simpa using hp⟩
  · cases h

theorem feed_operandOrEqual_ok {op orEqual : LogicOp} (hs : Spells [u] (.logic op))
    (he : ∀ v : Token, v.terminal = .sign .equal → Spells [u, v] (.logic orEqual))
    (h : State.feed ⟨done, .operandOrEqual c left op orEqual⟩ t = .ok s') :
    ∃ focus, s' = ⟨done, focus⟩ ∧ Partial (pre ++ us ++ [u] ++ [t]) focus := by
  simp only [State.feed, State.isEqual, beq_iff_eq] at h
  split at h
  · cases h
    have hp := Partial.extend hc hu (he t ‹_›) Chain.takes_logic
    exact ⟨_, rfl, by simpa using hp⟩
  · simpa using feedOperand_ok (.extend hc hu hs Chain.takes_logic) .nil h

end Comparisons

/-- Inside a statement a token makes its part longer, ends it, or begins the next statement. -/
theorem feed_partial {done : List Stmt} {part : List Token} {focus : Focus} {t : Token}
    {s' : State} (hp : Partial part focus) (h : State.feed ⟨done, focus⟩ t = .ok s') :
    (∃ focus', s' = ⟨done, focus'⟩ ∧ Partial (part ++ [t]) focus') ∨
      (∃ b, s' = ⟨b :: done, .boundary⟩ ∧ DerivesStmt (part ++ [t]) b .closed) ∨
      ∃ c last, focus = .complete c last ∧ State.goOn? c last t = none ∧
        State.begin (c.close last :: done) t = .ok s' := by
  cases hp with
  | name ht => exact .inr (.inl (feedName_ok ht h))
  | operand hc hs => exact .inl (feedOperand_ok hc hs h)
  | less hc hu ht | more hc hu ht =>
    refine .inl (feed_operandOrEqual_ok hc hu ?_ ?_ h)
    · simp [Spells, spelling, ht]
    · intro v hv
      simp [Spells, spelling, ht, hv]
  | equal hc hu ht | bang hc hu ht =>
    refine .inl (feed_equal_ok hc hu ?_ h)
    intro v hv
    simp [Spells, spelling, ht, hv]
  | @complete pre us c last hc hu =>
    cases hg : State.goOn? c last t with
    | some focus =>
      simp only [State.feed, hg] at h
      cases h
      exact .inl ⟨focus, rfl, goOn?_some hc hu hg⟩
    | none =>
      simp only [State.feed, hg] at h
      exact .inr (.inr ⟨c, last, rfl, hg, h⟩)

/-! ### Whole runs -/

/-- Statements that cover a token list, the last of which ends as given. -/
structure Whole (ts : List Token) (segs : List Segment) (done : List Stmt) (ending : SegmentEnd) :
    Prop where
  covers : segs.flatMap Segment.tokens = ts
  stmts : (segs.map Segment.stmt).reverse = done
  apart : segs.IsChain Segment.MayPrecede
  ends : ∀ a ∈ segs.getLast?, a.ending = ending

theorem Whole.snoc {ts us segs done ending b e} (h : Whole ts segs done ending)
    (hb : DerivesStmt us b e) (ha : ∀ t ∈ us.head?, ending.Allows t) :
    Whole (ts ++ us) (segs ++ [⟨us, b, e, hb⟩]) (b :: done) e where
  covers := by simp [h.covers]
  stmts := by simp [h.stmts]
  apart := by
    refine List.isChain_append.mpr ⟨h.apart, .singleton _, ?_⟩
    intro x hx y hy t ht
    cases hy
    rw [h.ends x hx]
    exact ha t ht
  ends := by simp

/-- What the tokens read so far are. -/
inductive Progress : List Token → State → Prop where
  | boundary {ts segs done} : Whole ts segs done .closed → Progress ts ⟨done, .boundary⟩
  | inside {ts segs done ending part focus} : Whole ts segs done ending → Partial part focus →
      (∀ t ∈ part.head?, ending.Allows t ∧ ¬ IsName t) → part ≠ [] →
      Progress (ts ++ part) ⟨done, focus⟩

theorem Progress.settled {ts s done ending} (h : Progress ts s) (hs : Settled s done ending) :
    ∃ segs, Whole ts segs done ending := by
  cases h with
  | boundary hw =>
    cases hs
    exact ⟨_, hw⟩
  | inside hw hp hh _ =>
    cases hs with
    | boundary => cases hp
    | complete =>
      have hb := hp.complete_derives fun t ht => (hh t ht).2
      exact ⟨_, hw.snoc hb fun t ht => (hh t ht).1⟩

theorem Progress.begin {ts segs done ending t s'} (hw : Whole ts segs done ending)
    (ha : ending.Allows t) (h : State.begin done t = .ok s') : Progress (ts ++ [t]) s' := by
  rcases begin_ok h with ⟨hn, ⟨b, rfl, hb⟩ | ⟨focus, rfl, hp⟩⟩
  · refine .boundary (hw.snoc hb ?_)
    intro u hu
    cases hu
    exact ha
  · refine .inside hw hp ?_ (List.cons_ne_nil _ _)
    intro u hu
    cases hu
    exact ⟨ha, hn⟩

theorem Progress.feed {ts s t s'} (h : Progress ts s) (hf : s.feed t = .ok s') :
    Progress (ts ++ [t]) s' := by
  cases h with
  | boundary hw => exact .begin hw trivial hf
  | @inside ts segs done ending part focus hw hp hh hne =>
    have hhead : (part ++ [t]).head? = part.head? := by
      cases part with
      | nil => exact absurd rfl hne
      | cons _ _ => rfl
    rw [← hhead] at hh
    rcases feed_partial hp hf with ⟨focus', rfl, hp'⟩ | ⟨b, rfl, hb⟩ | ⟨c, last, rfl, hg, hb⟩
    · rw [List.append_assoc]
      exact .inside hw hp' hh (by simp)
    · rw [List.append_assoc]
      exact .boundary (hw.snoc hb fun u hu => (hh u hu).1)
    · rw [hhead] at hh
      have hstmt := hp.complete_derives fun u hu => (hh u hu).2
      exact .begin (hw.snoc hstmt fun u hu => (hh u hu).1) (allows_of_goOn? hg) hb

theorem Progress.reads {ts us s s'} (h : Progress ts s) (hr : Reads s us s') :
    Progress (ts ++ us) s' := by
  induction us generalizing ts s with
  | nil =>
    cases reads_nil.mp hr
    rwa [List.append_nil]
  | cons t us ih =>
    obtain ⟨m, hm, hr⟩ := reads_cons.mp hr
    simpa using ih (h.feed hm) hr

theorem Whole.nil {ending} : Whole [] [] [] ending := ⟨rfl, rfl, .nil, by simp⟩

theorem progress_of_reads {ts s} (h : Reads State.initial ts s) : Progress ts s :=
  Progress.reads (.boundary .nil) h

theorem exists_isCut {ts s done ending} (hne : ts ≠ []) (h : Reads State.initial ts s)
    (hs : Settled s done ending) :
    ∃ segs, IsCut ts segs ∧ (segs.map Segment.stmt).reverse = done := by
  obtain ⟨segs, hw⟩ := (progress_of_reads h).settled hs
  refine ⟨segs, ⟨?_, hw.covers, hw.apart⟩, hw.stmts⟩
  rintro rfl
  exact hne hw.covers.symm

end StackLang.Grammar
