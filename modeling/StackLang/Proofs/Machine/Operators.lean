import StackLang.Machine.Eval

/-! # What operators do

What kind of value an operator or a conversion makes, and all that it may refuse its operands with. -/

namespace StackLang

/-- Why an arithmetic operator refuses its operands. -/
inductive ArithOp.Refuses (op : ArithOp) (a b : Value) : Fault → Prop where
  | zeroDivisor : a.kind = .integer → Refuses op a b .zeroDivisor
  | zeroModulus : a.kind = .integer → Refuses op a b .zeroModulus
  | kinds : Refuses op a b (.arithmeticKinds op.name a.kind b.kind)

/-- Why an operator with a truth value for an answer refuses its operands. -/
inductive LogicOp.Refuses (op : LogicOp) (a b : Value) : Fault → Prop where
  | left {f : OperandFault} : operand a = .error f → Refuses op a b (.comparisonOperand op.name f)
  | right {f : OperandFault} : operand b = .error f → Refuses op a b (.comparisonOperand op.name f)
  | notBooleans : Refuses op a b (.notBooleans op.name a.kind b.kind)

theorem exists_of_map_eq_ok {ε α β : Type} {x : Except ε α} {f : α → β} {b : β}
    (h : x.map f = .ok b) : ∃ a, f a = b := by
  cases x with
  | error e => cases h
  | ok a => exact ⟨a, Except.ok.inj h⟩

section

variable {a b v w : Value} {f : Fault}

/-- Two numbers of one kind make a number of that kind. -/
theorem ArithOp.kind_of_apply {op : ArithOp} (h : op.apply a b = .ok v) :
    v.kind = a.kind ∧ (v.kind = .integer ∨ v.kind = .float) := by
  unfold ArithOp.apply at h
  split at h
  · obtain ⟨n, rfl⟩ := exists_of_map_eq_ok h
    exact ⟨rfl, .inl rfl⟩
  · cases h
    exact ⟨rfl, .inr rfl⟩
  · cases h

theorem ArithOp.refuses_of_apply {op : ArithOp} (h : op.apply a b = .error f) :
    op.Refuses a b f := by
  unfold ArithOp.apply at h
  split at h
  · cases op with
    | divide =>
      simp only [onIntegers] at h
      split at h <;> cases h
      exact .zeroDivisor rfl
    | modulo =>
      simp only [onIntegers] at h
      split at h <;> cases h
      exact .zeroModulus rfl
    | add | subtract | multiply => cases h
  · cases h
  · cases h
    exact .kinds

theorem LogicOp.kind_of_onNumbers {op : LogicOp} (h : op.onNumbers a b = .ok v) :
    v.kind = .boolean := by
  unfold onNumbers at h
  split at h
  · cases h
  · cases h
  · split at h <;> cases h
    rfl

theorem LogicOp.kind_of_apply {op : LogicOp} (h : op.apply a b = .ok v) : v.kind = .boolean := by
  unfold LogicOp.apply at h
  split at h
  · split at h
    · cases h
      rfl
    · exact kind_of_onNumbers h
  · exact kind_of_onNumbers h

theorem LogicOp.refuses_of_onNumbers {op : LogicOp} (h : op.onNumbers a b = .error f) :
    op.Refuses a b f := by
  unfold onNumbers at h
  cases hx : operand a with
  | error g =>
    simp only [hx, Except.error.injEq] at h
    exact h ▸ .left hx
  | ok x =>
    cases hy : operand b with
    | error g =>
      simp only [hx, hy, Except.error.injEq] at h
      exact h ▸ .right hy
    | ok y =>
      simp only [hx, hy] at h
      split at h <;> cases h
      exact .notBooleans

theorem LogicOp.refuses_of_apply {op : LogicOp} (h : op.apply a b = .error f) :
    op.Refuses a b f := by
  unfold LogicOp.apply at h
  split at h
  · split at h
    · cases h
    · exact refuses_of_onNumbers h
  · exact refuses_of_onNumbers h

namespace Value

theorem kind_of_negate (h : v.negate = .ok w) : w.kind = .boolean := by
  unfold negate at h
  split at h
  · cases h
    rfl
  · split at h <;> cases h

/-- A negation complains of its operand in the text of it, if that has one. -/
theorem negate_error {f : Failure} (h : v.negate = .error f) :
    (∃ t, f = .fault (.negationKind v.kind t) none) ∨ v.text? = none ∧ f = .digitLimit := by
  unfold negate at h
  split at h
  · cases h
  · split at h <;> cases h
    · exact .inl ⟨_, rfl⟩
    · exact .inr ⟨‹_›, rfl⟩

theorem kind_of_convert {target : Kind} (h : v.convert target = .ok w) : w.kind = target := by
  cases target <;>
  · obtain ⟨x, rfl⟩ := exists_of_map_eq_ok h
    rfl

end Value

end

end StackLang
