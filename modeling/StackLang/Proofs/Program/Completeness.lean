import StackLang.Proofs.Program.Reading

/-! # Every derivation is read

An operand is read into the chain that waits for it, an operator puts the operand before it on the
chain, and closing the chain builds the nodes in the order of the grammar. -/

namespace StackLang.Grammar

open StackLang.Parser

theorem DerivesUnary.reads {ts e} (h : DerivesUnary ts e) (done : List Stmt) (c : Chain)
    (signs : List Unary) :
    Reads ⟨done, .operand c signs⟩ ts
      ⟨done, .complete c (signs.foldl (fun e u => u.build e) e)⟩ := by
  induction h generalizing signs with
  | number ht | text ht | boolean ht | name ht =>
    unfold Token.terminal at ht
    rw [reads_singleton]
    simp [State.feed, State.feedOperand, State.atom?, ht]
  | minus ht _ ih =>
    unfold Token.terminal at ht
    refine Reads.cons ?_ (ih (.minus :: signs))
    simp [State.feed, State.feedOperand, State.atom?, State.unary?, ht]
  | bang ht _ ih =>
    unfold Token.terminal at ht
    refine Reads.cons ?_ (ih (.bang :: signs))
    simp [State.feed, State.feedOperand, State.atom?, State.unary?, ht]

/-! ### Operators -/

section Operators

variable {done : List Stmt} {c : Chain} {left : Expr} {os us : List Token} {s' : State}

theorem reads_goOn {t : Token} {f : Focus} (hg : State.goOn? c left t = some f)
    (h : Reads ⟨done, f⟩ us s') : Reads ⟨done, .complete c left⟩ (t :: us) s' :=
  Reads.cons (by simp [State.feed, hg]) h

theorem goOn?_less {t : Token} (ht : t.terminal = .sign .less) :
    State.goOn? c left t = some (.operandOrEqual c left .lt .le) := by
  simp [State.goOn?, show t.lexeme.terminal = _ from ht]

theorem goOn?_more {t : Token} (ht : t.terminal = .sign .more) :
    State.goOn? c left t = some (.operandOrEqual c left .gt .ge) := by
  simp [State.goOn?, show t.lexeme.terminal = _ from ht]

theorem reads_equal {t : Token} {op : LogicOp} (ht : t.terminal = .sign .equal)
    (h : Reads ⟨done, .operand (c.extend left (.logic op)) []⟩ us s') :
    Reads ⟨done, .equal c left op⟩ (t :: us) s' :=
  Reads.cons (by simp [State.feed, State.isEqual, show t.lexeme.terminal = _ from ht]) h

theorem reads_orEqual {t : Token} {strict op : LogicOp} (ht : t.terminal = .sign .equal)
    (h : Reads ⟨done, .operand (c.extend left (.logic op)) []⟩ us s') :
    Reads ⟨done, .operandOrEqual c left strict op⟩ (t :: us) s' :=
  Reads.cons (by simp [State.feed, State.isEqual, show t.lexeme.terminal = _ from ht]) h

theorem isEqual_of_operand {t : Token} (h : opensOperand t.terminal = true) :
    State.isEqual t = false := by
  unfold Token.terminal at h
  rw [State.isEqual, beq_eq_false_iff_ne]
  intro he
  rw [he] at h
  cases h

/-- Behind a `<` or `>` an operand is read as if the operator had been complete. -/
theorem reads_strict {op orEqual : LogicOp}
    (hu : ∃ t rest, us = t :: rest ∧ opensOperand t.terminal = true)
    (h : Reads ⟨done, .operand (c.extend left (.logic op)) []⟩ us s') :
    Reads ⟨done, .operandOrEqual c left op orEqual⟩ us s' := by
  obtain ⟨t, rest, rfl, ht⟩ := hu
  refine h.of_head (List.cons_ne_nil _ _) ?_
  intro u hm
  cases hm
  simp [State.feed, isEqual_of_operand ht]

theorem spells_one {op : BinaryOp} {x : Terminal} (hs : Spells os op) (hx : spelling op = [x]) :
    ∃ t, os = [t] ∧ t.terminal = x := by
  rw [Spells, hx] at hs
  obtain ⟨t, rfl, ht⟩ := List.map_eq_singleton_iff.mp hs
  exact ⟨t, rfl, ht⟩

theorem spells_two {op : BinaryOp} {x y : Terminal} (hs : Spells os op)
    (hx : spelling op = [x, y]) : ∃ t u, os = [t, u] ∧ t.terminal = x ∧ u.terminal = y := by
  rw [Spells, hx] at hs
  obtain ⟨t, rest, rfl, ht, hr⟩ := List.map_eq_cons_iff.mp hs
  obtain ⟨u, rfl, hu⟩ := List.map_eq_singleton_iff.mp hr
  exact ⟨t, u, rfl, ht, hu⟩

theorem Spells.reads {op : BinaryOp} (hs : Spells os op)
    (hl : c.Takes op)
    (hu : ∃ t rest, us = t :: rest ∧ opensOperand t.terminal = true)
    (h : Reads ⟨done, .operand (c.extend left op) []⟩ us s') :
    Reads ⟨done, .complete c left⟩ (os ++ us) s' := by
  cases op with
  | arith a =>
    cases a with
    | add | subtract =>
      obtain ⟨t, rfl, ht⟩ := spells_one hs rfl
      have hc := hl _ rfl (by simp [IsAdditive])
      exact reads_goOn (by simp [State.goOn?, show t.lexeme.terminal = _ from ht, hc]) h
    | multiply | divide | modulo =>
      obtain ⟨t, rfl, ht⟩ := spells_one hs rfl
      exact reads_goOn (by simp [State.goOn?, show t.lexeme.terminal = _ from ht]) h
  | logic o =>
    cases o with
    | and | or =>
      obtain ⟨t, rfl, ht⟩ := spells_one hs rfl
      exact reads_goOn (by simp [State.goOn?, show t.lexeme.terminal = _ from ht]) h
    | lt =>
      obtain ⟨t, rfl, ht⟩ := spells_one hs rfl
      exact reads_goOn (goOn?_less ht) (reads_strict hu h)
    | gt =>
      obtain ⟨t, rfl, ht⟩ := spells_one hs rfl
      exact reads_goOn (goOn?_more ht) (reads_strict hu h)
    | le =>
      obtain ⟨t, u, rfl, ht, he⟩ := spells_two hs rfl
      exact reads_goOn (goOn?_less ht) (reads_orEqual he h)
    | ge =>
      obtain ⟨t, u, rfl, ht, he⟩ := spells_two hs rfl
      exact reads_goOn (goOn?_more ht) (reads_orEqual he h)
    | eq | ne =>
      obtain ⟨t, u, rfl, ht, he⟩ := spells_two hs rfl
      refine reads_goOn ?_ (reads_equal he h)
      simp [State.goOn?, show t.lexeme.terminal = _ from ht]

end Operators

/-! ### Expressions -/

/-- The chain ends with what the derivation says, whatever waited before it. -/
theorem Derives.reads {lvl ts e last} (h : Derives lvl ts e last) {c : Chain}
    (hc : lvl = .expr → c.isLoose = true) (done : List Stmt) :
    ∃ c' x, Reads ⟨done, .operand c []⟩ ts ⟨done, .complete c' x⟩ ∧ c'.close x = c.close e ∧
      c'.last? = last.or c.last? := by
  induction h generalizing c with
  | unary hu => exact ⟨c, _, hu.reads done c [], rfl, by simp⟩
  | @product op ts os us left right last hm hu hs hd ih =>
    obtain ⟨c', x, hr, hx, hl⟩ := ih (c := c.extend left (.arith op)) (by simp)
    refine ⟨c', x, ?_, hx, by rw [hl]; cases last <;> rfl⟩
    rw [List.append_assoc]
    exact (hu.reads done c []).trans (hs.reads (Chain.takes_of_multiplicative hm) hd.opens hr)
  | @logic op ts os us left right last hu hs hd ih =>
    obtain ⟨c', x, hr, hx, hl⟩ := ih (c := c.extend left (.logic op)) fun _ => rfl
    refine ⟨c', x, ?_, hx, by rw [hl]; cases last <;> rfl⟩
    rw [List.append_assoc]
    exact (hu.reads done c []).trans (hs.reads Chain.takes_logic hd.opens hr)
  | term _ ih => exact ih (by simp)
  | @sum op ts os us left right last ha hu hs hd ih =>
    have hloose : (c.extend left (.arith op)).isLoose = true := by
      rcases ha with rfl | rfl <;> rfl
    obtain ⟨c', x, hr, hx, hl⟩ := ih (c := c.extend left (.arith op)) fun _ => hloose
    refine ⟨c', x, ?_, hx, by rw [hl]; cases last <;> rfl⟩
    rw [List.append_assoc]
    exact (hu.reads done c []).trans (hs.reads (Chain.takes_of_isLoose (hc rfl)) hd.opens hr)

/-! ### Statements and programs -/

theorem reads_local {s s' : State} {done : List Stmt} {t u : Token} {action : LocalAction}
    (hf : s.feed t = State.begin done t) (ht : t.terminal = .keyword (.onLocal action))
    (hu : State.feedName done action t.line u = .ok s') : Reads s [t, u] s' := by
  have hb : State.begin done t = .ok ⟨done, .name action t.line⟩ := by
    simp [State.begin, show t.lexeme.terminal = _ from ht]
  exact Reads.cons (hf.trans hb) (reads_singleton.mpr hu)

theorem settled_of_close {done : List Stmt} {c : Chain} {x : Expr} {b : Stmt}
    {last : Option BinaryOp} (hx : c.close x = b) (hl : c.last? = last) :
    Settled ⟨done, .complete c x⟩ (b :: done) (.expression last) := by
  subst hx hl
  exact .complete

theorem DerivesStmt.reads {ts b ending} (h : DerivesStmt ts b ending) {s : State}
    {done : List Stmt} {before : SegmentEnd} (hs : Settled s done before)
    (ha : ∀ t ∈ ts.head?, before.Allows t) :
    ∃ s', Reads s ts s' ∧ Settled s' (b :: done) ending := by
  obtain ⟨t, rest, rfl, ho⟩ := h.opens
  have hf := hs.feed (ha t rfl) ho
  cases h with
  | print ht | pop ht | dup ht | read ht | convert ht =>
    refine ⟨_, reads_singleton.mpr (hf.trans ?_), .boundary⟩
    simp [State.begin, show t.lexeme.terminal = _ from ht]
  | store ht hu | load ht hu | remove ht hu =>
    refine ⟨_, reads_local hf ht ?_, .boundary⟩
    simp only [State.feedName, show Lexeme.terminal _ = _ from hu]
  | push ht he =>
    obtain ⟨c, x, hr, hx, hl⟩ := he.reads (c := ⟨.push t.line, []⟩) (fun _ => rfl) done
    refine ⟨_, Reads.cons (hf.trans ?_) hr, ?_⟩
    · simp [State.begin, show t.lexeme.terminal = _ from ht]
    · exact settled_of_close hx (by simpa [Chain.last?] using hl)
  | bare he hn =>
    obtain ⟨c, x, hr, hx, hl⟩ := he.reads (c := ⟨.bare, []⟩) (fun _ => rfl) done
    obtain ⟨_, _, hts, hop⟩ := he.opens
    cases hts
    refine ⟨_, hr.of_head (List.cons_ne_nil _ _) ?_, ?_⟩
    · intro u hu
      cases hu
      exact hf.trans (begin_of_operand hop (hn t rfl))
    · exact settled_of_close hx (by simpa [Chain.last?] using hl)

/-- Segments that may follow one another are read one after the other. -/
theorem reads_segments {segs : List Segment} (hc : segs.IsChain Segment.MayPrecede) {s : State}
    {done : List Stmt} {before : SegmentEnd} (hs : Settled s done before)
    (ha : ∀ a ∈ segs.head?, ∀ t ∈ a.tokens.head?, before.Allows t) :
    ∃ s' ending, Reads s (segs.flatMap Segment.tokens) s' ∧
      Settled s' ((segs.map Segment.stmt).reverse ++ done) ending := by
  induction segs generalizing s done before with
  | nil => exact ⟨s, before, reads_nil.mpr rfl, hs⟩
  | cons a rest ih =>
    obtain ⟨hnext, hrest⟩ := List.isChain_cons.mp hc
    obtain ⟨m, hm, hset⟩ := a.derives.reads hs (ha a rfl)
    obtain ⟨s', ending, hr, hend⟩ := ih hrest hset hnext
    refine ⟨s', ending, hm.trans hr, ?_⟩
    simpa using hend

theorem IsCut.reads {ts : List Token} {segs : List Segment} (h : IsCut ts segs) :
    ∃ s ending, Reads State.initial ts s ∧
      Settled s (segs.map Segment.stmt).reverse ending := by
  obtain ⟨s, ending, hr, hs⟩ := reads_segments h.apart (s := State.initial) .boundary
    fun _ _ _ _ => trivial
  rw [h.covers] at hr
  rw [List.append_nil] at hs
  exact ⟨s, ending, hr, hs⟩

end StackLang.Grammar
