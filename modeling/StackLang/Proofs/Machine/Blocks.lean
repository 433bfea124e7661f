import StackLang.Proofs.Machine.Statements

/-! # Blocks, statement by statement

A block fails at the first item that fails, in the state that the items before it leave. What each
item preserves, a block preserves. -/

namespace StackLang

/-- Lines of a single digit can be written. -/
theorem Stmt.short_lines {body : List Stmt} (h : ∀ s ∈ body, s.line.natAbs < Nat.pow 10 1) :
    ∀ s ∈ body, s.line.natAbs < Integer.textLimit :=
  fun s hs => Integer.lt_textLimit (h s hs) (by decide)

/-- A fault can be reported on a line that can be written. -/
theorem Fault.text?_of_short (fault : Fault) {line : Int} (h : line.natAbs < Integer.textLimit) :
    ∃ t, (fault.diagnostic (some line)).text? = some t := by
  simp [Diagnostic.text?, diagnostic, Integer.text?, h]

namespace Failure

variable {f : Failure} {line : Option Int}

theorem atLine_eq_digitLimit_iff : f.atLine line = .digitLimit ↔ f = .digitLimit := by
  rcases f with ⟨g, - | old⟩ | - | e | u <;> simp [atLine]

theorem atLine_eq_unencodable_iff {e : Text.EncodeError} :
    f.atLine line = .unencodable e ↔ f = .unencodable e := by
  rcases f with ⟨g, - | old⟩ | - | e | u <;> simp [atLine]

end Failure

namespace Machine

variable {ι : Type} [Executable ι] {detail : Nat} {body : List ι} {m m' : Machine} {f : Failure}

theorem runBlock_cons_ok_iff {item : ι} {rest : List ι} :
    m.runBlock detail (item :: rest) = .ok m' ↔
      ∃ m₁, m.runItem detail item = .ok m₁ ∧ m₁.runBlock detail rest = .ok m' := by
  rw [runBlock]
  cases m.runItem detail item <;> simp

/-- A block in two parts goes on with the second part where the first one ends. -/
theorem runBlock_append (items rest : List ι) :
    m.runBlock detail (items ++ rest) = (m.runBlock detail items).andThen (runBlock detail rest) := by
  induction items generalizing m with
  | nil => rfl
  | cons item items ih =>
    rw [List.cons_append, runBlock, runBlock, Outcome.andThen_assoc]
    exact congrArg _ (funext fun m' => ih)

/-- A block fails at the first item that fails. -/
theorem runBlock_failed_iff : m.runBlock detail body = .failed f m' ↔
    ∃ k item before, body[k]? = some item ∧ m.runBlock detail (body.take k) = .ok before ∧
      before.runItem detail item = .failed f m' := by
  induction body generalizing m with
  | nil => simp [runBlock]
  | cons first rest ih =>
    rw [runBlock]
    cases hfirst : m.runItem detail first with
    | failed g m₁ =>
      constructor
      · intro h
        exact ⟨0, first, m, rfl, rfl, hfirst.trans h⟩
      · rintro ⟨k, item, before, hitem, hbefore, hfail⟩
        cases k with
        | zero =>
          cases hitem
          cases hbefore
          exact hfirst.symm.trans hfail
        | succ k =>
          rw [List.take_succ_cons, runBlock, hfirst] at hbefore
          cases hbefore
    | ok m₁ =>
      rw [Outcome.andThen_ok, ih]
      constructor
      · rintro ⟨k, item, before, hitem, hbefore, hfail⟩
        refine ⟨k + 1, item, before, hitem, ?_, hfail⟩
        rw [List.take_succ_cons, runBlock, hfirst]
        exact hbefore
      · rintro ⟨k, item, before, hitem, hbefore, hfail⟩
        cases k with
        | zero =>
          cases hitem
          cases hbefore
          cases hfirst.symm.trans hfail
        | succ k =>
          rw [List.take_succ_cons, runBlock, hfirst] at hbefore
          exact ⟨k, item, before, hitem, hbefore, hfail⟩

/-- What each item preserves when it succeeds, a block preserves. -/
theorem runBlock_invariant {P : Machine → Prop}
    (hstep : ∀ item ∈ body, ∀ m m', P m → m.runItem detail item = .ok m' → P m') (h : P m)
    (hrun : m.runBlock detail body = .ok m') : P m' := by
  induction body generalizing m with
  | nil =>
    cases hrun
    exact h
  | cons first rest ih =>
    obtain ⟨m₁, hfirst, hrest⟩ := runBlock_cons_ok_iff.mp hrun
    have h₁ : P m₁ := hstep first List.mem_cons_self m m₁ h hfirst
    exact ih (fun item hitem => hstep item (List.mem_cons_of_mem _ hitem)) h₁ hrest

/-! ### Without a trace -/

/-- With nothing told an item is a statement whose fault gets the line. -/
theorem runItem_zero {s : Stmt} (hline : s.line.natAbs < Integer.textLimit) (m : Machine) :
    m.runItem 0 s =
      match s.exec 0 m with
      | .ok m => .ok m
      | .failed f m => .failed (f.atLine (some s.line)) m := by
  have htold : (m.tell 0 (.entered (some s.line) s.typeName)).andThen (s.exec 0) = s.exec 0 m := by
    rw [tell_zero, Outcome.andThen_ok]
  have hitem : m.runItem 0 s =
      match s.exec 0 m with
      | .ok m => m.tell 0 (.stack m.stack)
      | .failed f m => m.report 0 (f.atLine (some s.line)) := by
    rw [← htold]
    rfl
  rw [hitem]
  cases hrun : s.exec 0 m with
  | ok m₁ => exact tell_zero _ m₁
  | failed g m₁ =>
    have hraised := (exec_failed_iff.mp ⟨m₁, hrun⟩).isRaised
    cases hraised with
    | digitLimit => rfl
    | unencodable e => rfl
    | @fault fault hname =>
      obtain ⟨t, ht⟩ := fault.text?_of_short hline
      have hreport : m₁.report 0 (.fault fault (some s.line)) =
          (m₁.tell 0 (.failed (fault.diagnostic (some s.line)))).andThen
            (.failed (.fault fault (some s.line))) := by
        simp only [report, ht]
      rw [tell_zero, Outcome.andThen_ok] at hreport
      exact hreport

theorem runItem_ok_iff {s : Stmt} (hline : s.line.natAbs < Integer.textLimit) :
    m.runItem 0 s = .ok m' ↔ s.Yields m m' := by
  rw [runItem_zero hline, ← exec_ok_iff]
  cases s.exec 0 m <;> simp

theorem runItem_failed_iff {s : Stmt} (hline : s.line.natAbs < Integer.textLimit) :
    (∃ m', m.runItem 0 s = .failed f m') ↔ ∃ g, s.Breaks m g ∧ f = g.atLine (some s.line) := by
  simp only [runItem_zero hline, ← exec_failed_iff]
  cases s.exec 0 m <;> simp [eq_comm]

/-- A statement that succeeds hands its state to the rest of the block. -/
theorem runBlock_zero_cons {s : Stmt} {rest : List Stmt} (h : s.exec 0 m = .ok m')
    (hline : s.line.natAbs < Integer.textLimit) :
    m.runBlock 0 (s :: rest) = m'.runBlock 0 rest := by
  rw [runBlock, runItem_zero hline, h]
  rfl

theorem finish_failed_iff :
    (∃ m', m.finish 0 = .failed f m') ↔ f = .digitLimit ∧ ∃ v ∈ m.stack, v.IsLong := by
  rw [← describeStack?_eq_none_iff]
  unfold finish
  cases describeStack? m.stack with
  | none => simp [eq_comm]
  | some t => simp [tell_zero]

end Machine

/-! ### Programs -/

namespace Program

variable {p : Program} {start : Machine} {f : Failure}

/-- The run comes to a statement in a state: the statements before it succeed. -/
def Comes (p : Program) (start before : Machine) (s : Stmt) : Prop :=
  ∃ k, p.body[k]? = some s ∧ start.runBlock 0 (p.body.take k) = .ok before

theorem Comes.mem {before : Machine} {s : Stmt} (h : p.Comes start before s) : s ∈ p.body := by
  obtain ⟨k, hs, -⟩ := h
  exact List.mem_of_getElem? hs

/-- What each step preserves holds wherever the run comes to. -/
theorem Comes.invariant {P : Machine → Prop}
    (hlines : ∀ s ∈ p.body, s.line.natAbs < Integer.textLimit)
    (hstep : ∀ s ∈ p.body, ∀ m m', P m → s.Yields m m' → P m') (hstart : P start)
    {before : Machine} {s : Stmt} (h : p.Comes start before s) : P before := by
  obtain ⟨k, -, hbefore⟩ := h
  refine Machine.runBlock_invariant (fun s hs m m' hm hrun => ?_) hstart hbefore
  have hmem : s ∈ p.body := List.mem_of_mem_take hs
  exact hstep s hmem m m' hm ((Machine.runItem_ok_iff (hlines s hmem)).mp hrun)

/-- Without a trace, the first `k` statements of the program are executed, and no more: there are no
more, or the next one fails. -/
structure Completes (p : Program) (start : Machine) (k : Nat) (before : Machine) : Prop where
  le : k ≤ p.body.length
  completed : start.runBlock 0 (p.body.take k) = .ok before
  ends : ∀ s, p.body[k]? = some s → ∃ f m, before.runItem 0 s = .failed f m

theorem exists_completes (p : Program) (start : Machine) : ∃ k before, p.Completes start k before := by
  cases hblock : start.runBlock 0 p.body with
  | ok after =>
    refine ⟨p.body.length, after, Nat.le_refl _, ?_, fun s hs => ?_⟩
    · rwa [List.take_length]
    · simp at hs
  | failed f m =>
    obtain ⟨k, s, before, hs, hbefore, hfail⟩ := Machine.runBlock_failed_iff.mp hblock
    refine ⟨k, before, ?_, hbefore, fun s' hs' => ?_⟩
    · exact Nat.le_of_lt (List.getElem?_eq_some_iff.mp hs).1
    · cases hs.symm.trans hs'
      exact ⟨f, m, hfail⟩

theorem run_zero (p : Program) (start : Machine) :
    p.run 0 start =
      ((start.runBlock 0 p.body).andThen (Machine.finish 0)).map Machine.closeTrace := by
  have hopen : start.openTrace 0 = start := by simp [Machine.openTrace]
  rw [run, Machine.traced, hopen, Machine.runBody, Machine.tell_zero, Outcome.andThen_ok]

/-- A run fails at a statement that it comes to, or at its end over an integer that is too long. -/
theorem run_failed_iff (hlines : ∀ s ∈ p.body, s.line.natAbs < Integer.textLimit) :
    (∃ m', p.run 0 start = .failed f m') ↔
      (∃ before s g, p.Comes start before s ∧ s.Breaks before g ∧ f = g.atLine (some s.line)) ∨
        f = .digitLimit ∧ ∃ after, start.runBlock 0 p.body = .ok after ∧
          ∃ v ∈ after.stack, v.IsLong := by
  have hmap : (∃ m', p.run 0 start = .failed f m') ↔
      ∃ m', (start.runBlock 0 p.body).andThen (Machine.finish 0) = .failed f m' := by
    rw [run_zero]
    cases (start.runBlock 0 p.body).andThen (Machine.finish 0) <;> simp [Outcome.map]
  have hblock : (∃ m', start.runBlock 0 p.body = .failed f m') ↔
      ∃ before s g, p.Comes start before s ∧ s.Breaks before g ∧ f = g.atLine (some s.line) := by
    constructor
    · rintro ⟨m', h⟩
      obtain ⟨k, s, before, hs, hbefore, hfail⟩ := Machine.runBlock_failed_iff.mp h
      have hline := hlines s (List.mem_of_getElem? hs)
      obtain ⟨g, hg, hf⟩ := (Machine.runItem_failed_iff hline).mp ⟨m', hfail⟩
      exact ⟨before, s, g, ⟨k, hs, hbefore⟩, hg, hf⟩
    · rintro ⟨before, s, g, hcomes, hg, hf⟩
      obtain ⟨m', hfail⟩ := (Machine.runItem_failed_iff (hlines s hcomes.mem)).mpr ⟨g, hg, hf⟩
      obtain ⟨k, hs, hbefore⟩ := hcomes
      exact ⟨m', Machine.runBlock_failed_iff.mpr ⟨k, s, before, hs, hbefore, hfail⟩⟩
  rw [hmap, ← hblock]
  cases start.runBlock 0 p.body with
  | failed g m' => simp
  | ok after => simp [Machine.finish_failed_iff]

end Program

end StackLang
