import StackLang.Proofs.Machine.Stopping

/-! # Lines of input

Each read that is executed takes one line, and nothing else looks at the input. So a program does the
same when there are more lines behind those that it takes, up to the read that finds none. -/

namespace StackLang

/-- There was no line left to be read. -/
def Failure.IsEndOfInput : Failure → Prop
  | .fault f _ => f.name = "EndOfInput"
  | _ => False

/-- The same state with more lines of input behind those that are left. -/
def Machine.withMore (more : List Text) (m : Machine) : Machine :=
  { m with input := m.input ++ more }

theorem Failure.isEndOfInput_atLine {f : Failure} {line : Option Int} :
    (f.atLine line).IsEndOfInput ↔ f.IsEndOfInput := by
  rcases f with ⟨g, - | old⟩ | - | e | u <;> rfl

/-- Only a read needs the input, not an expression. -/
theorem Expr.not_isEndOfInput {locals : Locals} {e : Expr} {f : Failure}
    (h : e.value locals = .error f) : ¬ f.IsEndOfInput := by
  intro hend
  obtain ⟨x, -, hbreaks⟩ := value_eq_error_iff.mp h
  cases f with
  | fault f line =>
    have hname : f.name = "EndOfInput" := hend
    rcases hbreaks.unbound_or with ⟨name, vline, rfl, -⟩ | hother
    · cases hbreaks
      simp [Fault.name] at hname
    · simp [hname] at hother
  | digitLimit | unencodable | unsupported => exact hend

/-! ### One statement -/

namespace Stmt

def isRead : Stmt → Bool
  | read _ => true
  | _ => false

/-- How many of the statements read a line. -/
def reads (body : List Stmt) : Nat := body.countP isRead

variable {m m' : Machine} {s : Stmt} {f : Failure} {more : List Text}

theorem Yields.input_eq (h : s.Yields m m') :
    reads [s] ≤ m.input.length ∧ m'.input = m.input.drop (reads [s]) := by
  cases h with
  | push | bare | print | pop | dup | convert | store | load | remove =>
    exact ⟨Nat.zero_le _, rfl⟩
  | @read line text rest hinput => simp [reads, isRead, hinput, Machine.push, Machine.withStack]

/-- The input ends where a read is to be executed and no line is left. -/
theorem Breaks.exists_read (h : s.Breaks m f) (hend : f.IsEndOfInput) :
    ∃ line, s = .read line ∧ m.input = [] ∧ f = .fault .endOfInput none := by
  cases h with
  | push he | bare he => exact absurd hend (Expr.not_isEndOfInput he)
  | readNothing hinput => exact ⟨_, rfl, hinput, rfl⟩
  | printLong | printRefused => exact hend.elim
  | printEmpty | popEmpty | dupEmpty | convertEmpty | convert | storeEmpty | load =>
    simp [Failure.IsEndOfInput, Fault.name] at hend

theorem Yields.withMore (h : s.Yields m m') : s.Yields (m.withMore more) (m'.withMore more) := by
  cases h with
  | push hv => exact .push hv
  | bare hv => exact .bare hv
  | print hstack ht he => exact .print hstack ht he
  | pop hstack => exact .pop hstack
  | dup hstack => exact .dup hstack
  | @read line text rest hinput =>
    have hmore : (m.withMore more).input = text :: (rest ++ more) := congrArg (· ++ more) hinput
    exact .read hmore
  | convert hstack hv => exact .convert hstack hv
  | store hstack => exact .store hstack
  | load hv => exact .load hv
  | remove => exact .remove

theorem Breaks.withMore (h : s.Breaks m f) (hf : ¬ f.IsEndOfInput) :
    s.Breaks (m.withMore more) f := by
  cases h with
  | push he => exact .push he
  | bare he => exact .bare he
  | printEmpty hstack => exact .printEmpty hstack
  | printLong hstack ht => exact .printLong hstack ht
  | printRefused hstack ht he => exact .printRefused hstack ht he
  | popEmpty hstack => exact .popEmpty hstack
  | dupEmpty hstack => exact .dupEmpty hstack
  | readNothing => exact absurd rfl hf
  | convertEmpty hstack => exact .convertEmpty hstack
  | convert hstack hv => exact .convert hstack hv
  | storeEmpty hstack => exact .storeEmpty hstack
  | load hname => exact .load hname

theorem Leaves.withMore {m₂ : Machine} (h : s.Leaves m m') (h₂ : s.Leaves (m.withMore more) m₂) :
    m₂ = m'.withMore more := by
  cases h <;> cases h₂ <;> rfl

end Stmt

namespace Machine

variable {m m' : Machine} {s : Stmt} {body : List Stmt} {more : List Text}

theorem exec_withMore (h : ∀ f m', s.exec 0 m = .failed f m' → ¬ f.IsEndOfInput) :
    s.exec 0 (m.withMore more) = (s.exec 0 m).map (withMore more) := by
  cases hrun : s.exec 0 m with
  | ok m' => exact exec_ok_iff.mpr (exec_ok_iff.mp hrun).withMore
  | failed f m' =>
    have hbreaks : s.Breaks m f := exec_failed_iff.mp ⟨m', hrun⟩
    have hmore : s.Breaks (m.withMore more) f := hbreaks.withMore (h f m' hrun)
    obtain ⟨m₂, hrun₂⟩ := exec_failed_iff.mpr hmore
    rw [hrun₂, (leaves_of_exec hrun).withMore (leaves_of_exec hrun₂)]
    rfl

/-- A read takes the first line that is left, and fails when there is none. -/
theorem runItem_read {line : Int} (hline : line.natAbs < Integer.textLimit) (m : Machine) :
    m.runItem 0 (Stmt.read line) =
      match m.input with
      | [] => .failed (.fault .endOfInput (some line)) m
      | text :: rest => .ok ({ m with input := rest }.push (.text text)) := by
  have hs : (Stmt.read line).line.natAbs < Integer.textLimit := hline
  rw [runItem_zero hs]
  simp only [Stmt.exec, readLine]
  cases m.input <;> rfl

/-! ### Statements in a row -/

theorem input_of_runBlock (h : m.runBlock 0 body = .ok m') :
    Stmt.reads body ≤ m.input.length ∧ m'.input = m.input.drop (Stmt.reads body) := by
  induction body generalizing m with
  | nil =>
    cases h
    exact ⟨Nat.zero_le _, rfl⟩
  | cons s rest ih =>
    obtain ⟨m₁, hitem, h⟩ := runBlock_cons_ok_iff.mp h
    obtain ⟨hlen, hinput⟩ := (exec_ok_iff.mp (exec_of_runItem hitem)).input_eq
    obtain ⟨hlen', hinput'⟩ := ih h
    have hreads : Stmt.reads (s :: rest) = Stmt.reads [s] + Stmt.reads rest :=
      @List.countP_append _ _ [s] rest
    rw [hinput, List.length_drop] at hlen'
    rw [hreads, hinput', hinput, List.drop_drop]
    exact ⟨by omega, rfl⟩

theorem leaves_of_runItem {f : Failure} (hline : s.line.natAbs < Integer.textLimit)
    (h : m.runItem 0 s = .failed f m') : s.Leaves m m' := by
  rw [runItem_zero hline] at h
  cases hrun : s.exec 0 m with
  | ok m₁ =>
    rw [hrun] at h
    cases h
  | failed g m₁ =>
    rw [hrun] at h
    cases h
    exact leaves_of_exec hrun

theorem runItem_withMore (hline : s.line.natAbs < Integer.textLimit)
    (h : ∀ f m', m.runItem 0 s = .failed f m' → ¬ f.IsEndOfInput) :
    (m.withMore more).runItem 0 s = (m.runItem 0 s).map (withMore more) := by
  rw [runItem_zero hline] at h
  have hexec : s.exec 0 (m.withMore more) = (s.exec 0 m).map (withMore more) := by
    refine exec_withMore fun f m' hrun hend => ?_
    rw [hrun] at h
    exact h _ _ rfl (Failure.isEndOfInput_atLine.mpr hend)
  rw [runItem_zero hline, runItem_zero hline, hexec]
  cases s.exec 0 m <;> rfl

theorem runBlock_withMore (hlines : ∀ s ∈ body, s.line.natAbs < Integer.textLimit)
    (h : ∀ f m', m.runBlock 0 body = .failed f m' → ¬ f.IsEndOfInput) :
    (m.withMore more).runBlock 0 body = (m.runBlock 0 body).map (withMore more) := by
  induction body generalizing m with
  | nil => rfl
  | cons s rest ih =>
    obtain ⟨hline, hrest⟩ := List.forall_mem_cons.mp hlines
    rw [runBlock] at h
    have hitem : (m.withMore more).runItem 0 s = (m.runItem 0 s).map (withMore more) := by
      refine runItem_withMore hline fun f m' hrun => ?_
      rw [hrun] at h
      exact h f m' rfl
    rw [runBlock, runBlock, hitem]
    cases hrun : m.runItem 0 s with
    | failed f m₁ => rfl
    | ok m₁ =>
      rw [hrun] at h
      exact ih hrest h

theorem runBlock_withMore_ok (hlines : ∀ s ∈ body, s.line.natAbs < Integer.textLimit)
    (h : m.runBlock 0 body = .ok m') :
    (m.withMore more).runBlock 0 body = .ok (m'.withMore more) := by
  rw [runBlock_withMore hlines (by simp [h]), h]
  rfl

theorem finish_withMore (m : Machine) :
    (m.withMore more).finish 0 = (m.finish 0).map (withMore more) := by
  have hstack : (m.withMore more).stack = m.stack := rfl
  simp only [finish, hstack, tell_zero]
  cases describeStack? m.stack <;> rfl

theorem input_finish (m : Machine) : (m.finish 0).state.input = m.input := by
  simp only [finish, tell_zero]
  cases describeStack? m.stack <;> rfl

end Machine

/-! ### The whole run -/

namespace Program

variable {p : Program} {start : Machine} {more : List Text}

/-- The end of a run leaves the input of the state behind the statements that are executed. -/
theorem Completes.input_run {k : Nat} {before : Machine}
    (hlines : ∀ s ∈ p.body, s.line.natAbs < Integer.textLimit) (h : p.Completes start k before) :
    (p.run 0 start).state.input = before.input := by
  have hclose : ∀ m : Machine, m.closeTrace.input = m.input := fun m => rfl
  rw [run_zero, Outcome.state_map, hclose]
  cases hs : p.body[k]? with
  | none =>
    have hall : p.body.take k = p.body := List.take_of_length_le (List.getElem?_eq_none_iff.mp hs)
    have hblock := h.completed
    rw [hall] at hblock
    rw [hblock, Outcome.andThen_ok, Machine.input_finish]
  | some s =>
    obtain ⟨f, m, hfail⟩ := h.ends s hs
    have hleaves := Machine.leaves_of_runItem (hlines s (List.mem_of_getElem? hs)) hfail
    rw [Machine.runBlock_failed_iff.mpr ⟨k, s, before, hs, h.completed, hfail⟩]
    exact hleaves.frame.2.2.1

theorem run_withMore (hlines : ∀ s ∈ p.body, s.line.natAbs < Integer.textLimit)
    (h : ∀ f, (p.run 0 start).failure? = some f → ¬ f.IsEndOfInput) :
    p.run 0 (start.withMore more) = (p.run 0 start).map (Machine.withMore more) := by
  rw [run_zero] at h
  have hblock : (start.withMore more).runBlock 0 p.body =
      (start.runBlock 0 p.body).map (Machine.withMore more) := by
    refine Machine.runBlock_withMore hlines fun f m hrun => ?_
    rw [hrun] at h
    exact h f rfl
  rw [run_zero, run_zero, hblock]
  cases start.runBlock 0 p.body with
  | failed f m => rfl
  | ok m =>
    have hfinish : (m.withMore more).finish 0 = (m.finish 0).map (Machine.withMore more) :=
      m.finish_withMore
    simp only [Outcome.map, Outcome.andThen_ok] at hfinish ⊢
    rw [hfinish]
    cases m.finish 0 <;> rfl

/-- A run goes on from where its first statements lead. -/
theorem extends_run {before : Machine} {k : Nat}
    (h : start.runBlock 0 (p.body.take k) = .ok before) : before.Extends (p.run 0 start).state := by
  have hblock : start.runBlock 0 p.body = before.runBlock 0 (p.body.drop k) := by
    conv_lhs => rw [← List.take_append_drop k p.body, Machine.runBlock_append, h]
    rfl
  rw [run_zero, Outcome.state_map, hblock]
  exact (Machine.extends_runBlock _).andThen fun m => Machine.extends_finish

end Program

/-- The read that comes behind `n` others takes the line with the index `n`, and as many lines are
gone at the end as reads have been executed. A run that no read stops does the same with more lines
behind its input, to its end. One that a read stops has taken all lines; with more of them it comes to
that read in the same state, and goes on from there. -/
theorem reads_take_lines_in_order (p : Program)
    (hlines : ∀ s ∈ p.body, s.line.natAbs < Integer.textLimit) (start : Machine)
    (more : List Text) :
    let little := p.run 0 start
    let longer := p.run 0 (start.withMore more)
    (∀ k before, start.runBlock 0 (p.body.take k) = .ok before →
      before.input = start.input.drop (Stmt.reads (p.body.take k)) ∧
      ∀ line, p.body[k]? = some (.read line) →
        (∀ text, start.input[Stmt.reads (p.body.take k)]? = some text →
          ∃ after, before.runItem 0 (Stmt.read line) = .ok after ∧
            after.stack = .text text :: before.stack) ∧
        (start.input[Stmt.reads (p.body.take k)]? = none →
          before.runItem 0 (Stmt.read line) = .failed (.fault .endOfInput (some line)) before)) ∧
    (∃ k before, p.Completes start k before ∧
      start.input.length = Stmt.reads (p.body.take k) + little.state.input.length ∧
      little.state.input = start.input.drop (Stmt.reads (p.body.take k))) ∧
    ((∀ f, little.failure? = some f → ¬ f.IsEndOfInput) →
      longer = little.map (Machine.withMore more)) ∧
    (∀ f, little.failure? = some f → f.IsEndOfInput →
      little.state.input = [] ∧
      (∃ k line before, p.StopsAt start k (.read line) before .endOfInput ∧
        (start.withMore more).runBlock 0 (p.body.take k) = .ok (before.withMore more)) ∧
      little.state.Extends longer.state) := by
  intro little longer
  refine ⟨fun k before hrun => ?_, ?_, Program.run_withMore hlines, fun f hf hend => ?_⟩
  · obtain ⟨-, hinput⟩ := Machine.input_of_runBlock hrun
    have hnext : before.input[0]? = start.input[Stmt.reads (p.body.take k)]? := by
      rw [hinput, List.getElem?_drop, Nat.add_zero]
    refine ⟨hinput, fun line hs => ?_⟩
    have hline : line.natAbs < Integer.textLimit := hlines _ (List.mem_of_getElem? hs)
    rw [← hnext, Machine.runItem_read hline]
    cases before.input with
    | nil => exact ⟨fun text h => absurd h (by simp), fun _ => rfl⟩
    | cons text rest =>
      refine ⟨fun text' h => ⟨_, rfl, ?_⟩, fun h => absurd h (by simp)⟩
      cases h
      rfl
  · obtain ⟨k, before, hcompletes⟩ := p.exists_completes start
    obtain ⟨hlen, hinput⟩ := Machine.input_of_runBlock hcompletes.completed
    have hend : little.state.input = start.input.drop (Stmt.reads (p.body.take k)) :=
      (hcompletes.input_run hlines).trans hinput
    refine ⟨k, before, hcompletes, ?_, hend⟩
    rw [hend, List.length_drop]
    omega
  · cases hrun : p.run 0 start with
    | ok m =>
      have hok : little.failure? = none := congrArg Outcome.failure? hrun
      cases hok.symm.trans hf
    | failed g after =>
      have hg : little.failure? = some g := congrArg Outcome.failure? hrun
      cases hg.symm.trans hf
      have hstate : little.state = after := congrArg Outcome.state hrun
      cases f with
      | digitLimit | unencodable | unsupported => exact hend.elim
      | fault g line =>
        obtain ⟨k, s, before, m, hstops, -, hexec, rfl⟩ := Program.stopsAt_of_run hrun
        obtain ⟨rline, rfl, hinput, heq⟩ := hstops.breaks.exists_read hend
        cases heq
        have hleaves := Machine.leaves_of_exec hexec
        cases hleaves
        have hmore : (start.withMore more).runBlock 0 (p.body.take k) = .ok (before.withMore more) :=
          Machine.runBlock_withMore_ok (fun s hs => hlines s (List.mem_of_mem_take hs))
            hstops.completed
        have hextends : (before.withMore more).Extends longer.state := Program.extends_run hmore
        rw [hstate]
        exact ⟨hinput, ⟨k, rline, before, hstops, hmore⟩, hextends⟩

/-- The second of two reads finds no line, and the line behind one. -/
theorem reads_take_lines_in_order_echo :
    let p : Program := ⟨[.read 1, .print 2, .read 3, .print 4]⟩
    let start := Machine.start ["a"]
    let little := p.run 0 start
    let longer := p.run 0 (start.withMore ["b"])
    little.failure? = some (.fault .endOfInput (some 3)) ∧ little.state.input = [] ∧
      little.state.Extends longer.state ∧ longer.state.output = "ab" := by
  intro p start little longer
  have hfailure : little.failure? = some (.fault .endOfInput (some 3)) := by decide +kernel
  obtain ⟨-, -, -, hend⟩ :=
    reads_take_lines_in_order p (Stmt.short_lines (by decide)) start ["b"]
  obtain ⟨hinput, -, hextends⟩ := hend _ hfailure rfl
  exact ⟨hfailure, hinput, hextends, by decide +kernel⟩

end StackLang
