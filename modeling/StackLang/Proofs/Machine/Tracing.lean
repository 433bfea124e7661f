import StackLang.Proofs.Machine.Encoding

/-! # Runs at two levels of detail

A run that tells more does the same as one that tells less, and tells all that this one tells. Only
where something cannot be told does it stop early: over an integer that is too long to be shown, or
over half of a surrogate pair, which no trace file takes. -/

namespace StackLang

/-- What an event cannot be told over. -/
def Failure.IsUntold : Failure → Prop
  | .digitLimit | .unencodable _ => True
  | .fault .. | .unsupported _ => False

namespace Machine

/-- Nothing that has been printed is taken back. -/
def Extends (m m' : Machine) : Prop := m.printed.codes <+: m'.printed.codes

/-- The state with what is told up to a level of all that has been told. -/
def upTo (detail : Nat) (m : Machine) : Machine :=
  { m with events := m.events.filter (·.level ≤ detail) }

/-- The state inside of a run that is told less. -/
def hushed (detail : Nat) (m : Machine) : Machine :=
  m.withTrace (detail != 0) (m.events.filter (·.level ≤ detail))

/-! ### Output only grows -/

section Output

variable {detail : Nat} {m : Machine}

theorem Extends.refl (m : Machine) : m.Extends m := List.prefix_refl _

theorem Extends.andThen {o : Outcome Machine} {next : Machine → Outcome Machine}
    (h : m.Extends o.state) (hnext : ∀ m' : Machine, m'.Extends (next m').state) :
    m.Extends (o.andThen next).state := by
  cases o with
  | ok m' => exact h.trans (hnext m')
  | failed f m' => exact h

theorem extends_tell (e : Event) : m.Extends (m.tell detail e).state := by
  unfold tell
  split
  · split
    · exact .refl m
    · split <;> exact List.prefix_refl _
  · exact .refl m

theorem extends_popThen {next : Value → Machine → Outcome Machine}
    (hnext : ∀ v (m' : Machine), m'.Extends (next v m').state) :
    m.Extends (m.popThen next).state := by
  unfold popThen pop
  cases m.stack with
  | nil => exact .refl m
  | cons v rest => exact hnext v (m.withStack rest)

theorem extends_exec (s : Stmt) : m.Extends (s.exec detail m).state := by
  cases s with
  | push e line | bare e =>
    simp only [Stmt.exec, eval, Outcome.state_map]
    exact .refl m
  | print line =>
    simp only [Stmt.exec, printTop]
    split
    · exact .refl m
    · split
      · exact .refl m
      · split
        · exact List.prefix_append _ _
        · exact .refl m
  | pop line | dup line => exact extends_popThen fun v m' => .refl m'
  | read line =>
    simp only [Stmt.exec, readLine]
    split <;> exact .refl m
  | convert target line =>
    refine extends_popThen fun v m' => ?_
    split <;> exact .refl m'
  | store name line => exact extends_popThen fun v m' => extends_tell (m := m'.setLocal name v) _
  | load name line =>
    simp only [Stmt.exec, loadLocal]
    split <;> exact .refl m
  | remove name line => exact extends_tell (m := (m.removeLocal name).2) _

theorem extends_report (f : Failure) : m.Extends (m.report detail f).state := by
  cases f with
  | fault g line =>
    simp only [report]
    cases (g.diagnostic line).text? with
    | none => exact .refl m
    | some t => exact (extends_tell _).andThen fun m' => .refl m'
  | digitLimit | unencodable e | unsupported u => exact .refl m

theorem extends_settle {line : Int} (o : Outcome Machine) :
    o.state.Extends (settle detail line o).state := by
  cases o with
  | ok m' => exact extends_tell _
  | failed f m' => exact extends_report _

theorem extends_runItem (s : Stmt) : m.Extends (m.runItem detail s).state := by
  rw [runItem_eq_settle]
  exact ((extends_tell _).andThen fun m' => extends_exec s).trans (extends_settle _)

theorem extends_runBlock (body : List Stmt) : m.Extends (m.runBlock detail body).state := by
  induction body generalizing m with
  | nil => exact .refl m
  | cons s rest ih => exact (extends_runItem s).andThen fun m' => ih

theorem extends_finish : m.Extends (m.finish detail).state := by
  unfold finish
  split
  · exact extends_tell _
  · exact .refl m

end Output

/-! ### Step by step -/

/-- How a step that tells little and one that tells more end from states that correspond. -/
inductive Follows (detail : Nat) (little more : Outcome Machine) : Prop where
  | same : little = more.map (hushed detail) → Follows detail little more
  | stopped {f : Failure} {m : Machine} : more = .failed f m → f.IsUntold →
      m.Extends little.state → Follows detail little more

section Steps

variable {detail detail' : Nat}

theorem Follows.andThen {little more : Outcome Machine} (h : Follows detail little more)
    {next next' : Machine → Outcome Machine}
    (hnext : ∀ m, Follows detail (next (m.hushed detail)) (next' m))
    (hgrows : ∀ m : Machine, m.Extends (next m).state) :
    Follows detail (little.andThen next) (more.andThen next') := by
  cases h with
  | same heq =>
    subst heq
    cases more with
    | ok m => exact hnext m
    | failed f m => exact .same rfl
  | stopped hmore hf hm =>
    subst hmore
    exact .stopped rfl hf (hm.andThen hgrows)

variable (hle : detail ≤ detail') (m : Machine)
include hle

/-- What the lower level tells the higher one tells as well. What only the higher one tells may stop
it. -/
theorem follows_tell (e : Event) :
    Follows detail ((m.hushed detail).tell detail e) (m.tell detail' e) := by
  by_cases hlow : e.level ≤ detail
  · have hhigh : e.level ≤ detail' := Nat.le_trans hlow hle
    simp only [tell, if_pos hlow, if_pos hhigh]
    cases e.text? with
    | none => exact .same rfl
    | some t =>
      simp only
      cases t.encodable with
      | error problem => exact .same rfl
      | ok s => exact .same (by simp [Outcome.map, hushed, withTrace, hlow])
  · rw [tell_of_lt (Nat.lt_of_not_le hlow)]
    by_cases hhigh : e.level ≤ detail'
    · simp only [tell, if_pos hhigh]
      cases e.text? with
      | none => exact .stopped rfl trivial (.refl m)
      | some t =>
        simp only
        cases t.encodable with
        | error problem => exact .stopped rfl trivial (.refl m)
        | ok s => exact .same (by simp [Outcome.map, hushed, withTrace, hlow])
    · rw [tell_of_lt (Nat.lt_of_not_le hhigh)]
      exact .same rfl

theorem follows_tellSome (e : Option Event) :
    Follows detail (tellSome detail e (m.hushed detail)) (tellSome detail' e m) := by
  cases e with
  | none => exact .same rfl
  | some e => exact follows_tell hle m e

theorem follows_exec (s : Stmt) :
    Follows detail (s.exec detail (m.hushed detail)) (s.exec detail' m) := by
  rw [exec_eq_tellSome detail, exec_eq_tellSome detail']
  have hchange : s.change? (m.hushed detail) = s.change? m := by cases s <;> rfl
  have hexec : Follows detail (s.exec 0 (m.hushed detail)) (s.exec 0 m) := by
    refine .same ((exec_withTrace s m _ _).trans ?_)
    have hevents := events_exec s m
    cases hrun : s.exec 0 m with
    | ok m' | failed f m' =>
      rw [hrun] at hevents
      simp only [Outcome.map, hushed, ← hevents, Outcome.state]
  rw [hchange]
  exact hexec.andThen (fun m' => follows_tellSome hle m' _) fun m' => by
    cases s.change? m with
    | none => exact .refl m'
    | some e => exact extends_tell e

theorem follows_report (f : Failure) :
    Follows detail ((m.hushed detail).report detail f) (m.report detail' f) := by
  cases f with
  | fault g line =>
    simp only [report]
    cases (g.diagnostic line).text? with
    | none => exact .same rfl
    | some t => exact (follows_tell hle m _).andThen (fun m' => .same rfl) fun m' => .refl m'
  | digitLimit | unencodable e | unsupported u => exact .same rfl

theorem follows_settle (line : Int) {little more : Outcome Machine} (h : Follows detail little more) :
    Follows detail (settle detail line little) (settle detail' line more) := by
  cases h with
  | same heq =>
    subst heq
    cases more with
    | ok m' => exact follows_tell hle m' _
    | failed f m' => exact follows_report hle m' _
  | @stopped f m' hmore hf hm =>
    subst hmore
    cases f with
    | digitLimit => exact .stopped rfl hf (hm.trans (extends_settle little))
    | unencodable e => exact .stopped rfl hf (hm.trans (extends_settle little))
    | fault g l => exact hf.elim
    | unsupported u => exact hf.elim

theorem follows_runItem (s : Stmt) :
    Follows detail ((m.hushed detail).runItem detail s) (m.runItem detail' s) := by
  rw [runItem_eq_settle, runItem_eq_settle]
  exact follows_settle hle _ <|
    (follows_tell hle m _).andThen (fun m' => follows_exec hle m' s) fun m' => extends_exec s

theorem follows_runBlock (body : List Stmt) :
    Follows detail ((m.hushed detail).runBlock detail body) (m.runBlock detail' body) := by
  induction body generalizing m with
  | nil => exact .same rfl
  | cons s rest ih => exact (follows_runItem hle m s).andThen ih fun m' => extends_runBlock rest

theorem follows_finish :
    Follows detail ((m.hushed detail).finish detail) (m.finish detail') := by
  have hstack : (m.hushed detail).stack = m.stack := rfl
  simp only [finish, hstack]
  cases describeStack? m.stack with
  | none => exact .same rfl
  | some t => exact follows_tell hle m _

theorem follows_runBody (body : List Stmt) :
    Follows detail (runBody detail body (m.hushed detail)) (runBody detail' body m) := by
  have hstarted := follows_tell hle m (.started body.length)
  have hblock := hstarted.andThen (fun m' => follows_runBlock hle m' body) fun m' =>
    extends_runBlock body
  exact hblock.andThen (follows_finish hle) fun m' => extends_finish

end Steps

end Machine

namespace Program

variable {detail detail' : Nat} {start : Machine}

theorem tracing_run (p : Program) (detail : Nat) (start : Machine) :
    (p.run detail start).state.tracing = false := by
  rw [run, Machine.traced, Outcome.state_map]
  rfl

/-- Before a run no trace is open and nothing has been told. -/
theorem run_alike (p : Program) (hle : detail ≤ detail') (htracing : start.tracing = false)
    (hevents : start.events = []) :
    p.run detail start = (p.run detail' start).map (Machine.upTo detail) ∨
      ∃ f m, p.run detail' start = .failed f m ∧ f.IsUntold ∧
        m.Extends (p.run detail start).state := by
  have hopen : start.openTrace detail = (start.openTrace detail').hushed detail := by
    simp [Machine.openTrace, Machine.hushed, Machine.withTrace, htracing, hevents]
  have hfollows := Machine.follows_runBody hle (start.openTrace detail') p.body
  rw [← hopen] at hfollows
  simp only [run, Machine.traced]
  cases hfollows with
  | same heq =>
    left
    rw [heq]
    cases Machine.runBody detail' p.body (start.openTrace detail') <;> rfl
  | stopped hmore hf hm =>
    right
    rw [hmore, Outcome.state_map]
    exact ⟨_, _, rfl, hf, hm⟩

end Program

/-- The trace of a run changes nothing but how far it comes: at two levels of detail a program ends
the same, with the same output, stack and variables, and what the lower level tells is what the
higher one tells up to it. Otherwise the higher level has stopped, at no other output than a
beginning of that of the lower one, over an integer that is too long, or over half of a surrogate
pair that some name, some text or some line of the input had. The trace file is closed after every
run. -/
theorem trace_changes_nothing (p : Program) (stack : List Value) (locals : Locals)
    (input : List Text) (sink : Sink) {detail detail' : Nat} (h : detail < detail') :
    let start : Machine := { Machine.startOn sink input with stack, locals }
    let little := p.run detail start
    let more := p.run detail' start
    (little = more.map (Machine.upTo detail) ∨
      more.state.Extends little.state ∧
        (more.failure? = some .digitLimit ∨
          (∃ e, more.failure? = some (.unencodable e)) ∧
            ¬ (start.HoldsStrings ∧ ∀ s ∈ p.body, s.Meets .spelled))) ∧
    little.state.tracing = false ∧ more.state.tracing = false := by
  intro start little more
  refine ⟨?_, Program.tracing_run _ _ _, Program.tracing_run _ _ _⟩
  have halike : little = more.map (Machine.upTo detail) ∨
      ∃ f m, more = .failed f m ∧ f.IsUntold ∧ m.Extends little.state :=
    p.run_alike (Nat.le_of_lt h) rfl rfl
  rcases halike with hsame | ⟨f, m, hmore, hf, hm⟩
  · exact .inl hsame
  · have hstate : more.state = m := congrArg Outcome.state hmore
    have hfailure : more.failure? = some f := congrArg Outcome.failure? hmore
    rw [hstate, hfailure]
    refine .inr ⟨hm, ?_⟩
    cases f with
    | digitLimit => exact .inl rfl
    | unencodable e => exact .inr ⟨⟨e, rfl⟩, Program.not_strings_of_unencodable hfailure⟩
    | fault g line => exact hf.elim
    | unsupported u => exact hf.elim

/-- A fault over a variable is told at level 3 and not at level 0. -/
theorem trace_changes_nothing_unbound :
    let p : Program := ⟨[.push (.boolean true 1) 1, .print 2, .load "x" 3]⟩
    let start := Machine.start []
    0 < 3 ∧ p.run 0 start = (p.run 3 start).map (Machine.upTo 0) := by
  intro p start
  have hfailure : (p.run 3 start).failure? = some (.fault (.unbound "x") (some 3)) := by
    decide +kernel
  obtain ⟨hsame | ⟨-, hlong | ⟨⟨e, he⟩, -⟩⟩, -⟩ :=
    trace_changes_nothing p [] .empty [] .memory (by decide : 0 < 3)
  · exact ⟨by decide, hsame⟩
  · cases hfailure.symm.trans hlong
  · cases hfailure.symm.trans he

/-- A trace stops a program that removes a variable whose name is half of a surrogate pair. -/
theorem trace_stops_program :
    let p : Program := ⟨[.remove ⟨[.half 0]⟩ 1, .push (.text "x" 2) 2, .print 3]⟩
    let start := Machine.startOn .encoded []
    let little := p.run 1 start
    let more := p.run 2 start
    ¬ (little = more.map (Machine.upTo 1) ∨
      more.failure? = some .digitLimit ∧ more.state.Extends little.state) := by
  intro p start little more
  have hlittle : little.failure? = none := by decide +kernel
  have hmore : more.failure? = some (.unencodable ⟨6, 0, 1⟩) := by decide +kernel
  rintro (hsame | ⟨hlong, -⟩)
  · have hstopped : little.failure? = more.failure? := by
      rw [hsame]
      cases more <;> rfl
    cases hlittle.symm.trans (hstopped.trans hmore)
  · cases hmore.symm.trans hlong

end StackLang
