import StackLang.Machine.Exec
import StackLang.Proofs.Machine.Operators

/-! # The value of an expression

Expressions have a value that depends on the variables alone. Evaluation on the stack leaves that
value on top of whatever was there. When there is no value it stops with the same failure, and what
it leaves behind are right operands that were finished before their left ones failed. -/

namespace StackLang

namespace Expr

/-- The right operand is looked at before the left one, so its failure comes first. -/
def value (locals : Locals) : Expr → Except Failure Value
  | number x _ => .ok (.float x)
  | text s _ => .ok (.text s)
  | boolean b _ => .ok (.boolean b)
  | var name _ =>
    match locals.get? name with
    | some v => .ok v
    | none => .error (.fault (.unbound name) none)
  | arith op left right _ => do
    let b ← right.value locals
    let a ← left.value locals
    (op.apply a b).mapError (Failure.fault · none)
  | logic op left right _ => do
    let b ← right.value locals
    let a ← left.value locals
    (op.apply a b).mapError (Failure.fault · none)
  | not operand _ => do
    let a ← operand.value locals
    a.negate

/-- The values of the finished right operands of the binary nodes in whose left operand evaluation
fails, the outermost first. -/
def stranded (locals : Locals) : Expr → List Value
  | arith _ left right _ | logic _ left right _ =>
    match right.value locals, left.value locals with
    | .error _, _ => right.stranded locals
    | .ok b, .error _ => b :: left.stranded locals
    | .ok _, .ok _ => []
  | not operand _ =>
    match operand.value locals with
    | .error _ => operand.stranded locals
    | .ok _ => []
  | _ => []

end Expr

/-- What is left of the stack, its top first, behind a value or a failure. -/
def Expr.leaves (locals : Locals) (e : Expr) (stack : List Value) : Outcome (List Value) :=
  match e.value locals with
  | .ok v => .ok (v :: stack)
  | .error f => .failed f ((e.stranded locals).reverse ++ stack)

section Binary

variable {locals : Locals} {left right : Expr} {stack : List Value}

theorem leaves_of_ok {e : Expr} {v : Value} (h : e.value locals = .ok v) :
    e.leaves locals stack = .ok (v :: stack) := by
  simp [Expr.leaves, h]

theorem leaves_of_error {e : Expr} {f : Failure} (h : e.value locals = .error f) :
    e.leaves locals stack = .failed f ((e.stranded locals).reverse ++ stack) := by
  simp [Expr.leaves, h]

/-- The operands of a binary node, one above the other, or the failure of one of them. -/
theorem andThen_leaves (next : List Value → Outcome (List Value)) :
    ((right.leaves locals stack).andThen (left.leaves locals)).andThen next =
      match right.value locals, left.value locals with
      | .error f, _ => .failed f ((right.stranded locals).reverse ++ stack)
      | .ok b, .error f => .failed f ((b :: left.stranded locals).reverse ++ stack)
      | .ok b, .ok a => next (a :: b :: stack) := by
  cases hr : right.value locals with
  | error f => rw [leaves_of_error hr]; rfl
  | ok b =>
    rw [leaves_of_ok hr]
    cases hl : left.value locals with
    | error f =>
      rw [Outcome.andThen_ok, leaves_of_error hl]
      simp
    | ok a =>
      rw [Outcome.andThen_ok, leaves_of_ok hl]
      rfl

end Binary

theorem push_eq_leaves (locals : Locals) (e : Expr) (stack : List Value) :
    e.push locals stack = e.leaves locals stack := by
  induction e generalizing stack with
  | number x line | text s line | boolean b line => rfl
  | var name line =>
    simp only [Expr.push, Expr.leaves, Expr.value, Expr.stranded]
    cases locals.get? name <;> rfl
  | arith op left right line ihl ihr | logic op left right line ihl ihr =>
    have hl : left.push locals = left.leaves locals := funext ihl
    simp only [Expr.push, ihr, hl, andThen_leaves]
    simp only [Expr.leaves, Expr.value, Expr.stranded, bind, Except.bind]
    cases right.value locals with
    | error f => rfl
    | ok b =>
      cases left.value locals with
      | error f => rfl
      | ok a =>
        simp only [combineTop]
        cases op.apply a b <;> rfl
  | not operand line ih =>
    simp only [Expr.push, ih, Expr.leaves, Expr.value, Expr.stranded, bind, Except.bind]
    cases operand.value locals with
    | error f => rfl
    | ok a =>
      simp only [Outcome.andThen_ok, negateTop]
      cases a.negate <;> rfl

/-! ### No operand is missing -/

def Failure.IsUnderflow : Failure → Prop
  | .fault f _ => f.name = "StackUnderflow"
  | _ => False

theorem ArithOp.name_of_apply_error {op : ArithOp} {a b : Value} {f : Fault}
    (h : op.apply a b = .error f) : f.name ≠ "StackUnderflow" := by
  cases ArithOp.refuses_of_apply h <;> simp [Fault.name]

theorem LogicOp.name_of_apply_error {op : LogicOp} {a b : Value} {f : Fault}
    (h : op.apply a b = .error f) : f.name ≠ "StackUnderflow" := by
  cases LogicOp.refuses_of_apply h <;> simp [Fault.name]

theorem not_isUnderflow_of_mapError {r : Except Fault Value} {f : Failure}
    (hr : ∀ g, r = .error g → g.name ≠ "StackUnderflow")
    (h : r.mapError (Failure.fault · none) = .error f) : ¬ f.IsUnderflow := by
  cases r with
  | ok v => cases h
  | error g =>
    cases h
    exact hr g rfl

theorem Value.not_isUnderflow_of_negate {v : Value} {f : Failure} (h : v.negate = .error f) :
    ¬ f.IsUnderflow := by
  rcases Value.negate_error h with ⟨t, rfl⟩ | ⟨-, rfl⟩
  · simp [Failure.IsUnderflow, Fault.name]
  · exact id

theorem Expr.not_isUnderflow {locals : Locals} {e : Expr} {f : Failure}
    (h : e.value locals = .error f) : ¬ f.IsUnderflow := by
  induction e generalizing f with
  | number x line | text s line | boolean b line => cases h
  | var name line =>
    simp only [Expr.value] at h
    split at h
    · cases h
    · cases h; simp [Failure.IsUnderflow, Fault.name]
  | arith op left right line ihl ihr | logic op left right line ihl ihr =>
    simp only [Expr.value, bind, Except.bind] at h
    cases hr : right.value locals with
    | error g =>
      rw [hr] at h
      cases h
      exact ihr hr
    | ok b =>
      cases hl : left.value locals with
      | error g =>
        simp only [hr, hl] at h
        cases h
        exact ihl hl
      | ok a =>
        simp only [hr, hl] at h
        exact not_isUnderflow_of_mapError (fun g hg => op.name_of_apply_error hg) h
  | not operand line ih =>
    simp only [Expr.value, bind, Except.bind] at h
    cases ho : operand.value locals with
    | error g =>
      rw [ho] at h
      cases h
      exact ih ho
    | ok a =>
      rw [ho] at h
      exact Value.not_isUnderflow_of_negate h

/-- Evaluation puts the value of the expression on the stack it finds, or stops with the failure
that keeps it from having one; that failure is never a stack that is too short. Nothing but the
stack changes. -/
theorem eval_refines_value (m : Machine) (e : Expr) :
    (∀ v, e.value m.locals = .ok v → m.eval e = .ok (m.withStack (v :: m.stack))) ∧
    (∀ f, e.value m.locals = .error f → ¬ f.IsUnderflow ∧
      m.eval e = .failed f (m.withStack ((e.stranded m.locals).reverse ++ m.stack))) ∧
    (m.eval e).state = m.withStack (m.eval e).state.stack := by
  refine ⟨?_, ?_, by rw [Machine.eval, Outcome.state_map]; rfl⟩
  · intro v hv
    rw [Machine.eval, push_eq_leaves, leaves_of_ok hv]
    rfl
  · intro f hf
    rw [Machine.eval, push_eq_leaves, leaves_of_error hf]
    exact ⟨Expr.not_isUnderflow hf, rfl⟩

end StackLang
