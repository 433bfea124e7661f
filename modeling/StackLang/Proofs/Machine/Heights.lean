import StackLang.Proofs.Machine.Blocks

/-! # Heights of the stack

Each statement changes the height of the stack by a number that depends on the statement alone. So
the height behind a statement is known before the program runs, whatever the values are, and with
it whether the next statement finds the stack too short. -/

namespace StackLang

namespace Stmt

/-- What a statement adds to the height of the stack when it succeeds. -/
def effect : Stmt → Int
  | push .. | bare _ | read _ | load .. | dup _ => 1
  | pop _ | store .. => -1
  | print _ | convert .. | remove .. => 0

/-- Whether a statement needs a value on the stack. -/
def needsTop : Stmt → Bool
  | print _ | pop _ | dup _ | convert .. | store .. => true
  | push .. | bare _ | read _ | load .. | remove .. => false

/-- What the statements of a block add to the height, one after the other. -/
def effects : List Stmt → Int
  | [] => 0
  | s :: body => s.effect + effects body

variable {m m' : Machine} {s : Stmt}

theorem Yields.height_eq (h : s.Yields m m') : (m'.stack.length : Int) = m.stack.length + s.effect := by
  cases h with
  | push _ | bare _ | read _ | load _ => simp [Machine.push, Machine.withStack, effect]
  | pop hstack | store hstack =>
    simp only [Machine.setLocal, Machine.withStack, effect, hstack, List.length_cons]
    omega
  | dup hstack => simp [Machine.withStack, effect, hstack]
  | convert hstack _ => simp [Machine.withStack, effect, hstack]
  | print _ _ _ => simp [Machine.print, effect]
  | remove => simp [Machine.removeLocal, effect]

/-- No other step than the one that takes the top finds the stack too short: neither the operands
of an expression, which it puts there itself, nor a conversion. -/
theorem breaks_underflow_iff :
    (∃ f, s.Breaks m f ∧ f.IsUnderflow) ↔ m.stack = [] ∧ s.needsTop = true := by
  constructor
  · rintro ⟨f, hf, hunder⟩
    cases hf with
    | push he | bare he => exact absurd hunder (Expr.not_isUnderflow he)
    | printEmpty hstack | popEmpty hstack | dupEmpty hstack | convertEmpty hstack
    | storeEmpty hstack => exact ⟨hstack, rfl⟩
    | printLong _ _ | printRefused _ _ _ => exact hunder.elim
    | readNothing _ | convert _ _ | load _ => simp [Failure.IsUnderflow, Fault.name] at hunder
  · rintro ⟨hstack, hneeds⟩
    cases s with
    | print line => exact ⟨_, .printEmpty hstack, rfl⟩
    | pop line => exact ⟨_, .popEmpty hstack, rfl⟩
    | dup line => exact ⟨_, .dupEmpty hstack, rfl⟩
    | convert target line => exact ⟨_, .convertEmpty hstack, rfl⟩
    | store name line => exact ⟨_, .storeEmpty hstack, rfl⟩
    | push e line | bare e | read line | load name line | remove name line => cases hneeds

end Stmt

theorem Failure.isUnderflow_atLine {f : Failure} {line : Option Int} :
    (f.atLine line).IsUnderflow ↔ f.IsUnderflow := by
  rcases f with ⟨g, - | old⟩ | - | e | u <;> rfl

namespace Machine

variable {m m' : Machine} {body : List Stmt}

theorem runItem_underflow_iff {s : Stmt} (hline : s.line.natAbs < Integer.textLimit) :
    (∃ f m', m.runItem 0 s = .failed f m' ∧ f.IsUnderflow) ↔ m.stack = [] ∧ s.needsTop = true := by
  rw [← Stmt.breaks_underflow_iff]
  constructor
  · rintro ⟨f, m', hfail, hunder⟩
    obtain ⟨g, hg, rfl⟩ := (runItem_failed_iff hline).mp ⟨m', hfail⟩
    exact ⟨g, hg, Failure.isUnderflow_atLine.mp hunder⟩
  · rintro ⟨g, hg, hunder⟩
    obtain ⟨m', hfail⟩ := (runItem_failed_iff hline).mpr ⟨g, hg, rfl⟩
    exact ⟨_, m', hfail, Failure.isUnderflow_atLine.mpr hunder⟩

theorem runBlock_height (hlines : ∀ s ∈ body, s.line.natAbs < Integer.textLimit)
    (h : m.runBlock 0 body = .ok m') :
    (m'.stack.length : Int) = m.stack.length + Stmt.effects body := by
  induction body generalizing m with
  | nil =>
    cases h
    simp [Stmt.effects]
  | cons s rest ih =>
    obtain ⟨hline, hrest⟩ := List.forall_mem_cons.mp hlines
    obtain ⟨m₁, hfirst, h⟩ := runBlock_cons_ok_iff.mp h
    have hstep := ((runItem_ok_iff hline).mp hfirst).height_eq
    rw [ih hrest h, hstep, Stmt.effects, Int.add_assoc]

end Machine

/-- When the first `k` statements have succeeded, the height of the stack is the one at the start and
their effects, and the next statement finds the stack too short exactly when it needs a value and
that height is zero. So two runs of a program from stacks of one height stay at one height. -/
theorem height_is_static (body : List Stmt)
    (hlines : ∀ s ∈ body, s.line.natAbs < Integer.textLimit) (start : Machine) (k : Nat) (m : Machine)
    (hrun : start.runBlock 0 (body.take k) = .ok m) :
    (m.stack.length : Int) = start.stack.length + Stmt.effects (body.take k) ∧
    (∀ s, body[k]? = some s →
      ((∃ f m', m.runItem 0 s = .failed f m' ∧ f.IsUnderflow) ↔
        start.stack.length + Stmt.effects (body.take k) = 0 ∧ s.needsTop = true)) ∧
    (∀ start' m' : Machine, start'.stack.length = start.stack.length →
      start'.runBlock 0 (body.take k) = .ok m' → m'.stack.length = m.stack.length) := by
  have hbefore : ∀ s ∈ body.take k, s.line.natAbs < Integer.textLimit :=
    fun s hs => hlines s (List.mem_of_mem_take hs)
  have hheight := Machine.runBlock_height hbefore hrun
  refine ⟨hheight, fun s hs => ?_, fun start' m' hstart hrun' => ?_⟩
  · rw [← hheight, Machine.runItem_underflow_iff (hlines s (List.mem_of_getElem? hs)),
      ← List.length_eq_zero_iff, Int.natCast_eq_zero]
  · have hheight' := Machine.runBlock_height hbefore hrun'
    rw [hstart, ← hheight] at hheight'
    exact Int.ofNat.inj hheight'

/-- The second `pop` of a program that pushes once. -/
theorem height_is_static_pop :
    let body : List Stmt := [.push (.boolean true 1) 1, .pop 2, .pop 3]
    ∃ m, (Machine.start []).runBlock 0 (body.take 2) = .ok m ∧ m.stack.length = 0 ∧
      ∃ f m', m.runItem 0 (.pop 3 : Stmt) = .failed f m' ∧ f.IsUnderflow := by
  intro body
  have hlimit : 3 < Integer.textLimit :=
    Integer.lt_textLimit (by decide : _ < Nat.pow 10 1) (by decide)
  have hlines : ∀ s ∈ body, s.line.natAbs < Integer.textLimit := by
    simp only [body, List.forall_mem_cons, Stmt.line]
    generalize Integer.textLimit = limit at hlimit ⊢
    refine ⟨?_, ?_, ?_, by simp⟩ <;> omega
  refine ⟨_, rfl, rfl, ?_⟩
  obtain ⟨-, hunder, -⟩ := height_is_static body hlines (.start []) 2 _ rfl
  exact (hunder (.pop 3) rfl).mpr ⟨rfl, rfl⟩

end StackLang
