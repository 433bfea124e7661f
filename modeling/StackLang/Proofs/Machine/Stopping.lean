import StackLang.Proofs.Machine.Tracing

/-! # Where a run stops

A fault ends a run at one statement. Those in front of it have been executed, none behind it has, and
what is left is the state that the statement found. Only a conversion has taken its operand off the
stack, and an expression has left there the right operands that were finished. -/

namespace StackLang

/-- What a statement that fails leaves of the state. There is no way to fail for a removal. -/
inductive Stmt.Leaves (m : Machine) : Stmt → Machine → Prop where
  | push {e line} : Leaves m (.push e line) (m.withStack ((e.stranded m.locals).reverse ++ m.stack))
  | bare {e} : Leaves m (.bare e) (m.withStack ((e.stranded m.locals).reverse ++ m.stack))
  | print {line} : Leaves m (.print line) m
  | pop {line} : Leaves m (.pop line) m
  | dup {line} : Leaves m (.dup line) m
  | read {line} : Leaves m (.read line) m
  | convert {target line} : Leaves m (.convert target line) (m.withStack m.stack.tail)
  | store {name line} : Leaves m (.store name line) m
  | load {name line} : Leaves m (.load name line) m

namespace Machine

variable {m m' : Machine} {s : Stmt} {f : Failure}

/-! ### One statement -/

/-- A step that needs the top of the stack leaves the state as it is where there is none. -/
theorem popThen_failed {next : Value → Machine → Outcome Machine}
    (h : m.popThen next = .failed f m') :
    m.stack = [] ∧ m' = m ∨
      ∃ v rest, m.stack = v :: rest ∧ next v (m.withStack rest) = .failed f m' := by
  unfold popThen pop at h
  cases hstack : m.stack with
  | nil =>
    simp only [hstack, fail, Outcome.failed.injEq] at h
    exact .inl ⟨rfl, h.2.symm⟩
  | cons v rest =>
    simp only [hstack] at h
    exact .inr ⟨v, rest, rfl, h⟩

theorem eval_failed {e : Expr} (h : m.eval e = .failed f m') :
    m' = m.withStack ((e.stranded m.locals).reverse ++ m.stack) := by
  rw [eval, push_eq_leaves] at h
  cases he : e.value m.locals with
  | ok v =>
    rw [leaves_of_ok he] at h
    cases h
  | error g =>
    rw [leaves_of_error he] at h
    cases h
    rfl

theorem leaves_of_exec (h : s.exec 0 m = .failed f m') : s.Leaves m m' := by
  cases s with
  | push e line =>
    obtain rfl := eval_failed h
    exact .push
  | bare e =>
    obtain rfl := eval_failed h
    exact .bare
  | print line =>
    have hm : m' = m := by
      simp only [Stmt.exec, printTop] at h
      split at h
      · cases h
        rfl
      · split at h
        · cases h
          rfl
        · split at h <;> cases h
          rfl
    exact hm ▸ .print
  | pop line =>
    rcases popThen_failed h with ⟨-, rfl⟩ | ⟨v, rest, -, hnext⟩
    · exact .pop
    · cases hnext
  | dup line =>
    rcases popThen_failed h with ⟨-, rfl⟩ | ⟨v, rest, -, hnext⟩
    · exact .dup
    · cases hnext
  | read line =>
    have hm : m' = m := by
      simp only [Stmt.exec, readLine] at h
      split at h <;> cases h
      rfl
    exact hm ▸ .read
  | convert target line =>
    have hm : m' = m.withStack m.stack.tail := by
      rcases popThen_failed h with ⟨hstack, rfl⟩ | ⟨v, rest, hstack, hnext⟩
      · rw [hstack, List.tail_nil, ← hstack]
        rfl
      · rw [hstack, List.tail_cons]
        split at hnext <;> cases hnext
        rfl
    exact hm ▸ .convert
  | store name line =>
    rcases popThen_failed h with ⟨-, rfl⟩ | ⟨v, rest, -, hnext⟩
    · exact .store
    · rw [tell_zero] at hnext
      cases hnext
  | load name line =>
    have hm : m' = m := by
      simp only [Stmt.exec, loadLocal] at h
      split at h <;> cases h
      rfl
    exact hm ▸ .load
  | remove name line =>
    rw [Stmt.exec, dropLocal, tell_zero] at h
    cases h

theorem runItem_eq_settle_zero (s : Stmt) (m : Machine) :
    m.runItem 0 s = settle 0 s.line (s.exec 0 m) := by
  rw [runItem_eq_settle, tell_zero, Outcome.andThen_ok]

theorem exists_report_failed (detail : Nat) (f : Failure) (m : Machine) :
    ∃ g m', m.report detail f = .failed g m' := by
  cases f with
  | fault fault line =>
    simp only [report]
    cases (fault.diagnostic line).text? with
    | none => exact ⟨_, _, rfl⟩
    | some t => cases m.tell detail (.failed (fault.diagnostic line)) <;> exact ⟨_, _, rfl⟩
  | digitLimit | unencodable e | unsupported u => exact ⟨_, _, rfl⟩

/-- With nothing told, an item succeeds only if its statement does. -/
theorem exec_of_runItem (h : m.runItem 0 s = .ok m') : s.exec 0 m = .ok m' := by
  rw [runItem_eq_settle_zero] at h
  cases hrun : s.exec 0 m with
  | ok m₁ =>
    rw [hrun, settle, tell_zero] at h
    exact h
  | failed g m₁ =>
    obtain ⟨g', m₂, hreport⟩ := exists_report_failed 0 (g.atLine (some s.line)) m₁
    rw [hrun, settle, hreport] at h
    cases h

theorem runItem_of_exec (h : s.exec 0 m = .ok m') : m.runItem 0 s = .ok m' := by
  rw [runItem_eq_settle_zero, h, settle, tell_zero]

/-- A fault of an item is that of its statement, with the line of the statement. -/
theorem fault_of_runItem {fault : Fault} {line : Option Int}
    (h : m.runItem 0 s = .failed (.fault fault line) m') :
    line = some s.line ∧ s.exec 0 m = .failed (.fault fault none) m' := by
  rw [runItem_eq_settle_zero] at h
  cases hrun : s.exec 0 m with
  | ok m₁ =>
    rw [hrun, settle, tell_zero] at h
    cases h
  | failed g m₁ =>
    rw [hrun, settle] at h
    cases (exec_failed_iff.mp ⟨m₁, hrun⟩).isRaised with
    | digitLimit => cases h
    | unencodable e => cases h
    | @fault g hname =>
      simp only [Failure.atLine, report, tell_zero, Outcome.andThen_ok] at h
      split at h
      · cases h
        exact ⟨rfl, rfl⟩
      · cases h

theorem tracing_exec (s : Stmt) (m : Machine) : (s.exec 0 m).state.tracing = m.tracing := by
  have h : s.exec 0 m = (s.exec 0 m).map (·.withTrace m.tracing m.events) :=
    exec_withTrace s m m.tracing m.events
  rw [h, Outcome.state_map]
  rfl

end Machine

/-- A statement that fails changes nothing but the stack, and takes no more than one value off it,
which it was to convert. -/
theorem Stmt.Leaves.frame {m m' : Machine} {s : Stmt} (h : s.Leaves m m') :
    m'.printed = m.printed ∧ m'.locals = m.locals ∧ m'.input = m.input ∧
      (m.stack <:+ m'.stack ∨ ∃ target line v, s = .convert target line ∧ m.stack = v :: m'.stack) := by
  cases h with
  | push | bare => exact ⟨rfl, rfl, rfl, .inl (List.suffix_append _ _)⟩
  | print | pop | dup | read | store | load => exact ⟨rfl, rfl, rfl, .inl (List.suffix_refl _)⟩
  | @convert target line =>
    refine ⟨rfl, rfl, rfl, ?_⟩
    cases hstack : m.stack with
    | nil => exact .inl List.nil_suffix
    | cons v rest => exact .inr ⟨target, line, v, rfl, rfl⟩

/-! ### The whole run -/

namespace Program

/-- Without a trace, the statements in front of the one with the index `k` are executed, and this one
fails. -/
structure StopsAt (p : Program) (start : Machine) (k : Nat) (s : Stmt) (before : Machine)
    (f : Fault) : Prop where
  stmt : p.body[k]? = some s
  completed : start.runBlock 0 (p.body.take k) = .ok before
  breaks : s.Breaks before (.fault f none)

variable {p : Program} {start : Machine}

/-- Nothing is executed behind a statement that has failed. -/
theorem StopsAt.le {k k' : Nat} {s s' : Stmt} {before before' : Machine} {f f' : Fault}
    (h : p.StopsAt start k s before f) (h' : p.StopsAt start k' s' before' f') : k' ≤ k := by
  by_contra hlt
  have hnext : p.body.take (k + 1) = p.body.take k ++ [s] := by
    rw [List.take_add_one, h.stmt, Option.toList_some]
  have htake : p.body.take k' = p.body.take k ++ s :: (p.body.take k').drop (k + 1) := by
    have hcut := List.take_append_drop (k + 1) (p.body.take k')
    rw [List.take_take, Nat.min_eq_left (Nat.lt_of_not_le hlt), hnext, List.append_assoc] at hcut
    exact hcut.symm
  have hcompleted := h'.completed
  rw [htake, Machine.runBlock_append, h.completed, Outcome.andThen_ok] at hcompleted
  obtain ⟨m, hitem, -⟩ := Machine.runBlock_cons_ok_iff.mp hcompleted
  obtain ⟨m', hfailed⟩ := Machine.exec_failed_iff.mpr h.breaks
  cases hfailed.symm.trans (Machine.exec_of_runItem hitem)

/-- A fault at level 0 comes from one statement. -/
theorem stopsAt_of_run {f : Fault} {line : Option Int} {after : Machine}
    (h : p.run 0 start = .failed (.fault f line) after) :
    ∃ k s before m, p.StopsAt start k s before f ∧ line = some s.line ∧
      s.exec 0 before = .failed (.fault f none) m ∧ after = m.closeTrace := by
  rw [run_zero] at h
  cases hblock : start.runBlock 0 p.body with
  | ok m =>
    rw [hblock, Outcome.andThen_ok] at h
    cases hfinish : m.finish 0 with
    | ok m' =>
      rw [hfinish] at h
      cases h
    | failed g m' =>
      obtain ⟨rfl, -⟩ := Machine.finish_failed_iff.mp ⟨m', hfinish⟩
      rw [hfinish] at h
      cases h
  | failed g m =>
    rw [hblock] at h
    cases h
    obtain ⟨k, s, before, hs, hbefore, hfail⟩ := Machine.runBlock_failed_iff.mp hblock
    obtain ⟨hline, hexec⟩ := Machine.fault_of_runItem hfail
    exact ⟨k, s, before, m, ⟨hs, hbefore, Machine.exec_failed_iff.mp ⟨m, hexec⟩⟩, hline, hexec, rfl⟩

/-- No trace is opened at level 0. -/
theorem StopsAt.closeTrace_eq {k : Nat} {s : Stmt} {before m : Machine} {f : Fault} {g : Failure}
    (h : p.StopsAt start k s before f) (hexec : s.exec 0 before = .failed g m)
    (hstart : start.tracing = false) : m.closeTrace = m := by
  have hbefore : before.tracing = false := by
    refine Machine.runBlock_invariant (P := fun m => m.tracing = false) ?_ hstart h.completed
    intro item _ m₁ m₂ hm hitem
    have hkept := Machine.tracing_exec item m₁
    rw [Machine.exec_of_runItem hitem] at hkept
    exact hkept.trans hm
  have hm := Machine.tracing_exec s before
  rw [hexec, hbefore] at hm
  rw [Machine.closeTrace, ← hm]
  rfl

end Program

theorem Machine.upTo_zero (m : Machine) : m.upTo 0 = { m with events := [] } := by
  have hlevel : ∀ e : Event, ¬ e.level ≤ 0 := by
    intro e
    cases e <;> simp [Event.level]
  simp [upTo, hlevel]

/-- A run that ends with a fault, at any level of detail, was stopped by one statement. The ones in
front of it have been executed, and its line is that of the fault. Of what they left only the stack
may have changed: a conversion has taken its operand, and above what was there stand the right
operands that an expression had finished. No removal stops a run. -/
theorem failed_run_stops_at_one_statement (p : Program) (stack : List Value) (locals : Locals)
    (input : List Text) (sink : Sink) (detail : Nat) {f : Fault} {line : Option Int}
    {after : Machine} :
    let start : Machine := { Machine.startOn sink input with stack, locals }
    p.run detail start = .failed (.fault f line) after →
    ∃ k s before, p.StopsAt start k s before f ∧
      (∀ k' s' before' f', p.StopsAt start k' s' before' f' → k' = k) ∧
      line = some s.line ∧ s.Leaves before { after with events := [] } ∧
      after.printed = before.printed ∧ after.locals = before.locals ∧ after.input = before.input ∧
      (before.stack <:+ after.stack ∨
        ∃ target cline v, s = .convert target cline ∧ before.stack = v :: after.stack) ∧
      ∀ name rline, s ≠ .remove name rline := by
  intro start h
  have hzero : p.run 0 start = .failed (.fault f line) { after with events := [] } := by
    have htracing : start.tracing = false := rfl
    rcases p.run_alike (Nat.zero_le detail) htracing rfl with hsame | ⟨g, m, hmore, hg, -⟩
    · rw [hsame, h, ← Machine.upTo_zero]
      rfl
    · cases h.symm.trans hmore
      exact hg.elim
  obtain ⟨k, s, before, m, hstops, hline, hexec, hm⟩ := Program.stopsAt_of_run hzero
  rw [hstops.closeTrace_eq hexec rfl] at hm
  have hleaves : s.Leaves before { after with events := [] } := hm ▸ Machine.leaves_of_exec hexec
  obtain ⟨hprinted, hlocals, hinput, hstack⟩ := hleaves.frame
  refine ⟨k, s, before, hstops, fun k' s' before' f' h' => ?_, hline, hleaves, hprinted, hlocals,
    hinput, hstack, fun name rline hs => ?_⟩
  · exact Nat.le_antisymm (hstops.le h') (h'.le hstops)
  · subst hs
    cases hleaves

/-- The right operand of a sum is left on the stack; the line is that of the `push`. -/
theorem failed_run_stops_at_one_statement_unbound :
    let p : Program := ⟨[.push (.boolean true 1) 1, .print 1,
      .push (.arith .add (.var "x" 3) (.number .one 3) 3) 2, .pop 4]⟩
    let start := Machine.start []
    ∃ after, p.run 2 start = .failed (.fault (.unbound "x") (some 2)) after ∧
      after.stack = [.float .one, .boolean true] ∧
      ∃ k s before, p.StopsAt start k s before (.unbound "x") ∧ s.line = 2 ∧
        s.Leaves before { after with events := [] } := by
  intro p start
  have hfailure : (p.run 2 start).failure? = some (.fault (.unbound "x") (some 2)) := by
    decide +kernel
  have hstack : (p.run 2 start).state.stack = [.float .one, .boolean true] := by decide +kernel
  cases hrun : p.run 2 start with
  | ok after =>
    rw [hrun] at hfailure
    cases hfailure
  | failed f after =>
    rw [hrun] at hfailure hstack
    obtain rfl := Option.some.inj hfailure
    obtain ⟨k, s, before, hstops, -, hline, hleaves, -⟩ :=
      failed_run_stops_at_one_statement p [] .empty [] .memory 2 hrun
    exact ⟨after, rfl, hstack, k, s, before, hstops, (Option.some.inj hline).symm, hleaves⟩

end StackLang
