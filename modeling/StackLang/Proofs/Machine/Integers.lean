import StackLang.Proofs.Machine.Strings
import StackLang.Proofs.Machine.Telling

/-! # Where integers come from

No literal is an integer, nothing that is read is one, and operators make integers of integers only.
So a program that converts nothing to an integer never holds one, in any state and on any stack that
an evaluation passes through, and it meets none of the faults that integers bring. -/

namespace StackLang

/-! ### Values that are no integers -/

namespace Value

variable {v : Value}

/-- Only an integer may be too long to be shown. -/
theorem exists_text?_eq (h : v.kind ≠ .integer) : ∃ t, v.text? = some t := by
  cases v with
  | integer n => exact absurd rfl h
  | float | text | boolean => exact ⟨_, rfl⟩

theorem exists_shown?_eq (h : v.kind ≠ .integer) : ∃ t, v.shown? = some t := by
  cases v with
  | integer n => exact absurd rfl h
  | float | text | boolean => exact ⟨_, rfl⟩

end Value

/-- No value is an integer. -/
def IntegerFree (values : List Value) : Prop := ∀ v ∈ values, v.kind ≠ .integer

theorem IntegerFree.describeStack? {stack : List Value} (h : IntegerFree stack) :
    ∃ t, describeStack? stack = some t := by
  rw [← Option.ne_none_iff_exists', ne_eq, describeStack?_eq_none_iff]
  rintro ⟨v, hv, hlong⟩
  cases v with
  | integer n => exact h _ hv rfl
  | float | text | boolean => exact hlong

/-! ### Faults of integers -/

/-- A conversion from an integer or to one. -/
@[simp] def ConversionFault.NeedsInteger : ConversionFault → Prop
  | notInteger _ | notFinite _ | tooLarge _ | tooManyDigits _ | digitLimit => True
  | notFloat _ | notBoolean _ => False

/-- A fault that nothing but an integer leads to. -/
@[simp] def Fault.NeedsInteger : Fault → Prop
  | comparisonOperand _ .tooLarge => True
  | conversion f => f.NeedsInteger
  | f => f.name = "DivisionByZero"

/-- A failure that nothing but an integer leads to, on a line that can be written. -/
@[simp] def Failure.NeedsInteger : Failure → Prop
  | fault f _ => f.NeedsInteger
  | digitLimit => True
  | unencodable _ | unsupported _ => False

section Operators

variable {a b : Value} (ha : a.kind ≠ .integer)
include ha

theorem ArithOp.not_needsInteger {op : ArithOp} {f : Fault} (h : op.apply a b = .error f) :
    ¬ f.NeedsInteger := by
  cases ArithOp.refuses_of_apply h with
  | zeroDivisor hinteger | zeroModulus hinteger => exact absurd hinteger ha
  | kinds => simp [Fault.name]

theorem LogicOp.operand_ne_tooLarge : LogicOp.operand a ≠ .error .tooLarge := by
  cases a with
  | integer n => exact absurd rfl ha
  | float x =>
    have hok : operand (.float x) = .ok x := rfl
    rw [hok]
    exact nofun
  | text t => exact nofun
  | boolean b => exact nofun

theorem Value.not_needsInteger_of_negate {f : Failure} (h : a.negate = .error f) :
    ¬ f.NeedsInteger := by
  obtain ⟨t, ht⟩ := exists_text?_eq ha
  rcases negate_error h with ⟨u, rfl⟩ | ⟨hnone, -⟩
  · simp [Fault.name]
  · cases ht.symm.trans hnone

/-- A value that is no integer and is not to become one. -/
theorem Value.not_needsInteger_of_convert {target : Kind} (htarget : target ≠ .integer)
    {f : ConversionFault} (h : a.convert target = .error f) : ¬ f.NeedsInteger := by
  cases target with
  | integer => exact absurd rfl htarget
  | text =>
    obtain ⟨t, ht⟩ := exists_text?_eq ha
    simp [convert, toText, ht, Except.map] at h
  | float =>
    cases a with
    | integer n => exact absurd rfl ha
    | float x =>
      have hok : (Value.float x).convert .float = .ok (.float x) := rfl
      cases hok.symm.trans h
    | boolean b =>
      have hok : (Value.boolean b).convert .float = .ok (.float (if b then .one else .zero)) := rfl
      cases hok.symm.trans h
    | text t =>
      have hread : (Value.text t).convert .float = (parseFloat t).map float := rfl
      rw [hread, parseFloat] at h
      cases hx : Numeral.readTyped? t.chars <;> rw [hx] at h <;> cases h
      exact id
  | boolean =>
    cases a with
    | integer n => exact absurd rfl ha
    | float x =>
      have hok : (Value.float x).convert .boolean = .ok (.boolean !x.isZero) := rfl
      cases hok.symm.trans h
    | boolean b => cases h
    | text t =>
      simp only [convert, toBoolean] at h
      cases hx : readBoolean? t.chars <;> rw [hx] at h <;> cases h
      exact id

variable (hb : b.kind ≠ .integer)
include hb

theorem LogicOp.not_needsInteger {op : LogicOp} {f : Fault} (h : op.apply a b = .error f) :
    ¬ f.NeedsInteger := by
  have hoperand : ∀ {v : Value} {g}, v.kind ≠ .integer → operand v = .error g →
      ¬ (Fault.comparisonOperand op.name g).NeedsInteger := by
    intro v g hv hg
    cases g with
    | tooLarge => exact absurd hg (operand_ne_tooLarge hv)
    | notNumber => simp [Fault.name]
  cases LogicOp.refuses_of_apply h with
  | left hf => exact hoperand ha hf
  | right hf => exact hoperand hb hf
  | notBooleans => simp [Fault.name]

end Operators

/-! ### Expressions -/

/-- A step that leaves no integer and meets no fault that needs one. -/
abbrev Outcome.KeepsFree {σ : Type} (P : σ → Prop) (o : Outcome σ) : Prop :=
  o.Keeps P (¬ ·.NeedsInteger)

/-- The stacks that the evaluation of an expression passes through, from the one that it finds to
the one that it leaves. A left operand is evaluated on the stack that the right one leaves. -/
inductive Expr.Passes (locals : Locals) : Expr → List Value → List Value → Prop where
  | found {e stack} : Passes locals e stack stack
  | left {e : Expr} {stack} : Passes locals e stack (e.push locals stack).state
  | arithRight {op left right line stack passed} : Passes locals right stack passed →
      Passes locals (.arith op left right line) stack passed
  | arithLeft {op left right line stack between passed} :
      Expr.push locals right stack = .ok between → Passes locals left between passed →
      Passes locals (.arith op left right line) stack passed
  | logicRight {op left right line stack passed} : Passes locals right stack passed →
      Passes locals (.logic op left right line) stack passed
  | logicLeft {op left right line stack between passed} :
      Expr.push locals right stack = .ok between → Passes locals left between passed →
      Passes locals (.logic op left right line) stack passed
  | operand {e line stack passed} : Passes locals e stack passed →
      Passes locals (.not e line) stack passed

section Expressions

variable {stack : List Value}

theorem keepsFree_negateTop (h : IntegerFree stack) : (negateTop stack).KeepsFree IntegerFree := by
  cases stack with
  | nil => exact .failed (by simp [Fault.name]) h
  | cons v rest =>
    obtain ⟨hv, hrest⟩ := List.forall_mem_cons.mp h
    rw [negateTop]
    cases hnegate : v.negate with
    | error f => exact .failed (Value.not_needsInteger_of_negate hv hnegate) hrest
    | ok w =>
      refine .ok (List.forall_mem_cons.mpr ⟨?_, hrest⟩)
      rw [Value.kind_of_negate hnegate]
      decide

/-- What holds of an operator holds of its use on the stack. -/
theorem keepsFree_combineTop {apply : Value → Value → Except Fault Value}
    (happly : ∀ a b v, a.kind ≠ .integer → apply a b = .ok v → v.kind ≠ .integer)
    (hfault : ∀ a b f, a.kind ≠ .integer → b.kind ≠ .integer → apply a b = .error f →
      ¬ f.NeedsInteger)
    (h : IntegerFree stack) : (combineTop apply stack).KeepsFree IntegerFree := by
  rcases stack with - | ⟨a, - | ⟨b, rest⟩⟩
  · exact .failed (by simp [Fault.name]) h
  · refine .failed (by simp [Fault.name]) ?_
    simp [IntegerFree]
  · obtain ⟨ha, hb, hrest⟩ : a.kind ≠ .integer ∧ b.kind ≠ .integer ∧ IntegerFree rest := by
      simpa [IntegerFree] using h
    rw [combineTop]
    cases hcombined : apply a b with
    | error f => exact .failed (hfault a b f ha hb hcombined) hrest
    | ok v => exact .ok (List.forall_mem_cons.mpr ⟨happly a b v ha hcombined, hrest⟩)

theorem keepsFree_arith (op : ArithOp) (h : IntegerFree stack) :
    (combineTop op.apply stack).KeepsFree IntegerFree := by
  refine keepsFree_combineTop (fun a b v ha hv => ?_) (fun a b f ha _ hf => ?_) h
  · rwa [(ArithOp.kind_of_apply hv).1]
  · exact ArithOp.not_needsInteger ha hf

theorem keepsFree_logic (op : LogicOp) (h : IntegerFree stack) :
    (combineTop op.apply stack).KeepsFree IntegerFree := by
  refine keepsFree_combineTop (fun a b v _ hv => ?_) (fun a b f ha hb hf => ?_) h
  · rw [LogicOp.kind_of_apply hv]
    decide
  · exact LogicOp.not_needsInteger ha hb hf

variable {locals : Locals} (hlocals : ∀ name v, locals.get? name = some v → v.kind ≠ .integer)
include hlocals

theorem keepsFree_push (e : Expr) (h : IntegerFree stack) :
    (e.push locals stack).KeepsFree IntegerFree := by
  induction e generalizing stack with
  | number x line | text t line | boolean b line =>
    exact .ok (List.forall_mem_cons.mpr ⟨by simp [Value.kind], h⟩)
  | var name line =>
    rw [Expr.push]
    cases hname : locals.get? name with
    | none => exact .failed (by simp [Fault.name]) h
    | some v => exact .ok (List.forall_mem_cons.mpr ⟨hlocals name v hname, h⟩)
  | arith op left right line ihl ihr =>
    exact ((ihr h).andThen fun s hs => ihl hs).andThen fun s hs => keepsFree_arith op hs
  | logic op left right line ihl ihr =>
    exact ((ihr h).andThen fun s hs => ihl hs).andThen fun s hs => keepsFree_logic op hs
  | not e line ih => exact (ih h).andThen fun s hs => keepsFree_negateTop hs

theorem Expr.Passes.integerFree {e : Expr} {passed : List Value} (h : e.Passes locals stack passed)
    (hstack : IntegerFree stack) : IntegerFree passed := by
  induction h with
  | found => exact hstack
  | left => exact (keepsFree_push hlocals _ hstack).state
  | arithRight _ ih | logicRight _ ih | operand _ ih => exact ih hstack
  | @arithLeft _ _ right _ _ _ _ hbetween _ ih | @logicLeft _ _ right _ _ _ _ hbetween _ ih =>
    have hright := (keepsFree_push hlocals right hstack).state
    rw [hbetween] at hright
    exact ih hright

end Expressions

/-! ### Statements -/

/-- Neither on the stack nor in the variables is an integer. -/
structure Machine.IntegerFree (m : Machine) : Prop where
  stack : StackLang.IntegerFree m.stack
  locals : ∀ name v, m.locals.get? name = some v → v.kind ≠ .integer

namespace Machine

variable {m : Machine} {detail : Nat}

theorem IntegerFree.push (h : m.IntegerFree) {v : Value} (hv : v.kind ≠ .integer) :
    (m.push v).IntegerFree :=
  ⟨List.forall_mem_cons.mpr ⟨hv, h.stack⟩, h.locals⟩

theorem IntegerFree.setLocal (h : m.IntegerFree) {v : Value} (hv : v.kind ≠ .integer) (name : Text) :
    (m.setLocal name v).IntegerFree :=
  ⟨h.stack, Locals.forall_set h.locals hv name⟩

theorem IntegerFree.removeLocal (h : m.IntegerFree) (name : Text) :
    (m.removeLocal name).2.IntegerFree :=
  ⟨h.stack, Locals.forall_erase h.locals name⟩

theorem integerFree_opened (detail : Nat) (sink : Sink) (input : List Text) :
    ((startOn sink input).openTrace detail).IntegerFree := by
  refine ⟨fun v hv => ?_, fun name v hname => ?_⟩
  · cases hv
  · cases hname

variable (h : m.IntegerFree)
include h

/-- An event that has a text is told, unless it holds half of a surrogate pair. -/
theorem keepsFree_tell {e : Event} (he : ∃ t, e.text? = some t) :
    (m.tell detail e).KeepsFree IntegerFree := by
  obtain ⟨t, ht⟩ := he
  unfold tell
  split
  · rw [ht]
    simp only
    split
    · exact .ok ⟨h.stack, h.locals⟩
    · exact .failed id h
  · exact .ok h

theorem keepsFree_fail {f : Fault} (hf : ¬ f.NeedsInteger) : (m.fail f).KeepsFree IntegerFree :=
  .failed hf h

theorem keepsFree_popThen {next : Value → Machine → Outcome Machine}
    (hnext : ∀ v (m' : Machine), v.kind ≠ .integer → m'.IntegerFree →
      (next v m').KeepsFree IntegerFree) : (m.popThen next).KeepsFree IntegerFree := by
  unfold popThen pop
  cases hstack : m.stack with
  | nil => exact keepsFree_fail h (by simp [Fault.name])
  | cons v rest =>
    obtain ⟨hv, hrest⟩ := List.forall_mem_cons.mp (hstack ▸ h.stack)
    exact hnext v (m.withStack rest) hv ⟨hrest, h.locals⟩

theorem keepsFree_eval (e : Expr) : (m.eval e).KeepsFree IntegerFree :=
  (keepsFree_push h.locals e h.stack).map fun _ hs => ⟨hs, h.locals⟩

theorem keepsFree_printTop : m.printTop.KeepsFree IntegerFree := by
  unfold printTop peek
  cases hstack : m.stack with
  | nil => exact keepsFree_fail h (by simp [Fault.name])
  | cons v rest =>
    obtain ⟨t, ht⟩ := Value.exists_text?_eq (h.stack v (by simp [hstack]))
    simp only [ht]
    split
    · exact .ok ⟨h.stack, h.locals⟩
    · exact .failed id h

theorem keepsFree_exec {s : Stmt} (hs : ∀ line, s ≠ .convert .integer line) :
    (s.exec detail m).KeepsFree IntegerFree := by
  cases s with
  | push e line | bare e => exact keepsFree_eval h e
  | print line => exact keepsFree_printTop h
  | pop line => exact keepsFree_popThen h fun v m' _ hm' => .ok hm'
  | dup line => exact keepsFree_popThen h fun v m' hv hm' => .ok ((hm'.push hv).push hv)
  | read line =>
    simp only [Stmt.exec, readLine]
    split
    · exact keepsFree_fail h (by simp [Fault.name])
    · exact .ok ⟨List.forall_mem_cons.mpr ⟨by simp [Value.kind], h.stack⟩, h.locals⟩
  | convert target line =>
    have htarget : target ≠ .integer := fun heq => hs line (heq ▸ rfl)
    refine keepsFree_popThen h fun v m' hv hm' => ?_
    cases hconvert : v.convert target with
    | ok w => exact .ok (hm'.push (Value.kind_of_convert hconvert ▸ htarget))
    | error f => exact keepsFree_fail hm' (Value.not_needsInteger_of_convert hv htarget hconvert)
  | store name line =>
    refine keepsFree_popThen h fun v m' hv hm' => ?_
    refine keepsFree_tell (hm'.setLocal hv name) ?_
    obtain ⟨t, ht⟩ := Value.exists_shown?_eq hv
    exact ⟨_, by rw [Event.text?, ht]; rfl⟩
  | load name line =>
    simp only [Stmt.exec, loadLocal, getLocal]
    cases hname : m.locals.get? name with
    | some v => exact .ok (h.push (h.locals name v hname))
    | none => exact keepsFree_fail h (by simp [Fault.name])
  | remove name line =>
    refine keepsFree_tell (h.removeLocal name) ?_
    have hold : ∃ t, Event.oldText? (m.locals.get? name) = some t := by
      cases hname : m.locals.get? name with
      | none => exact ⟨_, rfl⟩
      | some v => exact Value.exists_shown?_eq (h.locals name v hname)
    obtain ⟨t, ht⟩ := hold
    exact ⟨_, by rw [removeLocal, Event.text?, ht]; rfl⟩

theorem keepsFree_report {f : Failure} {line : Int} (hline : line.natAbs < Integer.textLimit)
    (hf : ¬ f.NeedsInteger) (hraised : f.IsRaised) :
    (m.report detail (f.atLine (some line))).KeepsFree IntegerFree := by
  cases hraised with
  | digitLimit => exact absurd trivial hf
  | unencodable e => exact .failed id h
  | @fault g hname =>
    obtain ⟨t, ht⟩ := g.text?_of_short hline
    simp only [Failure.atLine, report, ht]
    refine (keepsFree_tell h ⟨_, by rw [Event.text?, ht]; rfl⟩).andThen fun m' hm' => ?_
    exact .failed hf hm'

omit h in
theorem keepsFree_settle {o : Outcome Machine} (ho : o.KeepsFree IntegerFree)
    (hraised : o.Keeps (fun _ => True) Failure.IsRaised) {line : Int}
    (hline : line.natAbs < Integer.textLimit) :
    (settle detail line o).KeepsFree IntegerFree := by
  cases ho with
  | ok hm => exact keepsFree_tell hm (by simpa [Event.text?] using hm.stack.describeStack?)
  | failed hf hm => exact keepsFree_report hm hline hf (hraised.failure rfl)

/-! ### Runs -/

theorem keepsFree_runItem {s : Stmt} (hline : s.line.natAbs < Integer.textLimit)
    (hs : ∀ line, s ≠ .convert .integer line) : (m.runItem detail s).KeepsFree IntegerFree := by
  have hentered : ∃ t, (Event.entered (some s.line) s.typeName).text? = some t := by
    simp [Event.text?, Integer.text?, hline]
  rw [runItem_eq_settle]
  refine keepsFree_settle ?_ ?_ hline
  · exact (keepsFree_tell h hentered).andThen fun m' hm' => keepsFree_exec hm' hs
  · exact (isRaised_tell _ m).andThen fun m' _ => isRaised_exec s m'

theorem keepsFree_runBlock {body : List Stmt}
    (hlines : ∀ s ∈ body, s.line.natAbs < Integer.textLimit)
    (hbody : ∀ s ∈ body, ∀ line, s ≠ .convert .integer line) :
    (m.runBlock detail body).KeepsFree IntegerFree := by
  induction body generalizing m with
  | nil => exact .ok h
  | cons s rest ih =>
    obtain ⟨hline, hlines⟩ := List.forall_mem_cons.mp hlines
    obtain ⟨hs, hrest⟩ := List.forall_mem_cons.mp hbody
    exact (keepsFree_runItem h hline hs).andThen fun m' hm' => ih hm' hlines hrest

theorem keepsFree_finish : (m.finish detail).KeepsFree IntegerFree := by
  obtain ⟨t, ht⟩ := h.stack.describeStack?
  simp only [finish, ht]
  exact keepsFree_tell h (by simp [Event.text?, ht])

end Machine

/-- A program that converts nothing to an integer holds none. In each state that its run reaches, at
any level of detail, neither the stack nor the variables have one, and no stack that the evaluation
of an expression there passes through has one. The run does not divide an integer by zero, meets no
integer that is too long to be shown, and no other fault that an integer brings. -/
theorem integers_need_conversion (p : Program)
    (hlines : ∀ s ∈ p.body, s.line.natAbs < Integer.textLimit)
    (hconvert : ∀ s ∈ p.body, ∀ line, s ≠ .convert .integer line) (detail : Nat) (sink : Sink)
    (input : List Text) :
    let opened := (Machine.startOn sink input).openTrace detail
    let reached := fun k => (opened.tell detail (.started p.body.length)).andThen
      (Machine.runBlock detail (p.body.take k))
    let result := p.run detail (.startOn sink input)
    (∀ k, (reached k).state.IntegerFree ∧
      ∀ m s e, reached k = .ok m → p.body[k]? = some s → (∃ line, s = .push e line) ∨ s = .bare e →
        ∀ stack, e.Passes m.locals m.stack stack → IntegerFree stack) ∧
    result.state.IntegerFree ∧
    ∀ f, result.failure? = some f → f ≠ .digitLimit ∧ ¬ f.NeedsInteger ∧
      ∀ fault line, f = .fault fault line → fault.name ≠ "DivisionByZero" := by
  intro opened reached result
  have hopened : opened.IntegerFree := Machine.integerFree_opened detail sink input
  have hstarted : (opened.tell detail (.started p.body.length)).KeepsFree Machine.IntegerFree :=
    Machine.keepsFree_tell hopened ⟨_, rfl⟩
  have hreached : ∀ k, (reached k).KeepsFree Machine.IntegerFree := fun k =>
    hstarted.andThen fun m hm => Machine.keepsFree_runBlock hm
      (fun s hs => hlines s (List.mem_of_mem_take hs))
      fun s hs => hconvert s (List.mem_of_mem_take hs)
  have hresult : result.KeepsFree Machine.IntegerFree := by
    refine Outcome.Keeps.map (P := Machine.IntegerFree) ?_ fun m hm => ⟨hm.stack, hm.locals⟩
    refine Outcome.Keeps.andThen ?_ fun m hm => Machine.keepsFree_finish hm
    exact hstarted.andThen fun m hm => Machine.keepsFree_runBlock hm hlines hconvert
  refine ⟨fun k => ⟨(hreached k).state, fun m s e hm _ _ stack hpasses => ?_⟩, hresult.state,
    fun f hf => ?_⟩
  · have hm' : m.IntegerFree := by
      have hstate := (hreached k).state
      rwa [hm] at hstate
    exact hpasses.integerFree hm'.locals hm'.stack
  · have hneeds : ¬ f.NeedsInteger := hresult.failure hf
    refine ⟨?_, hneeds, ?_⟩
    · rintro rfl
      exact hneeds trivial
    · rintro fault line rfl hname
      refine hneeds ?_
      cases fault <;> simp_all [Fault.name]

/-- One divided by zero is a float, which is kept as text. -/
theorem integers_need_conversion_quotient :
    let p : Program := ⟨[.push (.arith .divide (.number .one 1) (.number .zero 1) 1) 1,
      .convert .text 2, .store "x" 3]⟩
    let result := p.run 3 (.startOn .encoded [])
    result.state.locals.get? "x" = some (.text "Infinity") ∧ result.state.IntegerFree ∧
      ∀ f, result.failure? = some f → ¬ f.NeedsInteger := by
  intro p result
  have hlimit : 3 < Integer.textLimit :=
    Integer.lt_textLimit (by decide : _ < Nat.pow 10 1) (by decide)
  have hlines : ∀ s ∈ p.body, s.line.natAbs < Integer.textLimit := by
    simp only [p, List.forall_mem_cons, Stmt.line]
    generalize Integer.textLimit = limit at hlimit ⊢
    refine ⟨?_, ?_, ?_, by simp⟩ <;> omega
  have hconvert : ∀ s ∈ p.body, ∀ line, s ≠ .convert .integer line := by simp [p]
  obtain ⟨-, hfree, hfailure⟩ := integers_need_conversion p hlines hconvert 3 .encoded []
  exact ⟨by decide +kernel, hfree, fun f hf => (hfailure f hf).2.1⟩

end StackLang
