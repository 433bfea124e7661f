import Mathlib.Tactic.Core
import StackLang.Proofs.Machine.Evaluation

/-! # Why an expression has no value

An expression has no value because some expression in it, which evaluation comes to, has operands
that do not fit. It fails with what that one fails with. -/

namespace StackLang

namespace Expr

/-- What the evaluation of an expression comes to. A left operand is come to when the right one has a
value. -/
inductive Reaches (locals : Locals) : Expr → Expr → Prop where
  | self (e : Expr) : Reaches locals e e
  | arithRight {op left right line x} : Reaches locals right x →
      Reaches locals (.arith op left right line) x
  | arithLeft {op left right line x b} : right.value locals = .ok b → Reaches locals left x →
      Reaches locals (.arith op left right line) x
  | logicRight {op left right line x} : Reaches locals right x →
      Reaches locals (.logic op left right line) x
  | logicLeft {op left right line x b} : right.value locals = .ok b → Reaches locals left x →
      Reaches locals (.logic op left right line) x
  | operand {e line x} : Reaches locals e x → Reaches locals (.not e line) x

/-- The operands of an expression have values, but it has none itself. -/
inductive Breaks (locals : Locals) : Expr → Failure → Prop where
  | unbound {name line} : locals.get? name = none →
      Breaks locals (.var name line) (.fault (.unbound name) none)
  | arith {op : ArithOp} {left right line a b f} : right.value locals = .ok b →
      left.value locals = .ok a → op.apply a b = .error f →
      Breaks locals (.arith op left right line) (.fault f none)
  | logic {op : LogicOp} {left right line a b f} : right.value locals = .ok b →
      left.value locals = .ok a → op.apply a b = .error f →
      Breaks locals (.logic op left right line) (.fault f none)
  | not {e line v f} : e.value locals = .ok v → v.negate = .error f →
      Breaks locals (.not e line) f

variable {locals : Locals}

theorem Breaks.value_eq {x : Expr} {f : Failure} (h : x.Breaks locals f) :
    x.value locals = .error f := by
  cases h with
  | unbound hname => simp [value, hname]
  | arith hb ha hf | logic hb ha hf => simp [value, hb, ha, hf, bind, Except.bind, Except.mapError]
  | not hv hf => simp [value, hv, hf, bind, Except.bind]

theorem Reaches.value_eq {e x : Expr} {f : Failure} (h : e.Reaches locals x)
    (hx : x.value locals = .error f) : e.value locals = .error f := by
  induction h with
  | self => exact hx
  | arithRight _ ih | logicRight _ ih | operand _ ih => simp [value, ih hx, bind, Except.bind]
  | arithLeft hb _ ih | logicLeft hb _ ih => simp [value, hb, ih hx, bind, Except.bind]

theorem binary_eq_error {left right : Expr} {apply : Value → Value → Except Fault Value}
    {f : Failure}
    (h : (do
      let b ← right.value locals
      let a ← left.value locals
      (apply a b).mapError (Failure.fault · none)) = .error f) :
    right.value locals = .error f ∨ ∃ b, right.value locals = .ok b ∧
      (left.value locals = .error f ∨ ∃ a g, left.value locals = .ok a ∧
        apply a b = .error g ∧ f = .fault g none) := by
  simp only [bind, Except.bind] at h
  cases hb : right.value locals with
  | error g =>
    rw [hb] at h
    exact .inl h
  | ok b =>
    refine .inr ⟨b, rfl, ?_⟩
    cases ha : left.value locals with
    | error g =>
      simp only [hb, ha] at h
      exact .inl h
    | ok a =>
      simp only [hb, ha] at h
      cases happly : apply a b with
      | ok v => simp [happly, Except.mapError] at h
      | error g =>
        simp only [happly, Except.mapError, Except.error.injEq] at h
        exact .inr ⟨a, g, rfl, happly, h.symm⟩

/-- An expression has no value because of one that evaluation comes to. -/
theorem value_eq_error_iff {e : Expr} {f : Failure} :
    e.value locals = .error f ↔ ∃ x, e.Reaches locals x ∧ x.Breaks locals f := by
  constructor
  · intro h
    induction e with
    | number x line | text t line | boolean b line => cases h
    | var name line =>
      cases hname : locals.get? name with
      | some v => simp [value, hname] at h
      | none =>
        simp only [value, hname, Except.error.injEq] at h
        subst h
        exact ⟨_, .self _, .unbound hname⟩
    | arith op left right line ihl ihr =>
      rcases binary_eq_error h with hr | ⟨b, hb, hl | ⟨a, g, ha, happly, rfl⟩⟩
      · obtain ⟨x, hx, hf⟩ := ihr hr
        exact ⟨x, .arithRight hx, hf⟩
      · obtain ⟨x, hx, hf⟩ := ihl hl
        exact ⟨x, .arithLeft hb hx, hf⟩
      · exact ⟨_, .self _, .arith hb ha happly⟩
    | logic op left right line ihl ihr =>
      rcases binary_eq_error h with hr | ⟨b, hb, hl | ⟨a, g, ha, happly, rfl⟩⟩
      · obtain ⟨x, hx, hf⟩ := ihr hr
        exact ⟨x, .logicRight hx, hf⟩
      · obtain ⟨x, hx, hf⟩ := ihl hl
        exact ⟨x, .logicLeft hb hx, hf⟩
      · exact ⟨_, .self _, .logic hb ha happly⟩
    | not e line ih =>
      simp only [value, bind, Except.bind] at h
      cases hv : e.value locals with
      | error g =>
        rw [hv] at h
        obtain ⟨x, hx, hf⟩ := ih (hv.trans h)
        exact ⟨x, .operand hx, hf⟩
      | ok v =>
        simp only [hv] at h
        exact ⟨_, .self _, .not hv h⟩
  · rintro ⟨x, hx, hf⟩
    exact hx.value_eq hf.value_eq

end Expr

/-! ### Foreseen failures -/

/-- The names of all faults but those of unknown operators. -/
def Fault.foreseen : List String :=
  ["StackUnderflow", "UnknownVariable", "TypeMismatch", "ConversionError", "DivisionByZero",
    "EndOfInput"]

/-- What a statement fails with. The line of a fault is not known yet. -/
inductive Failure.IsRaised : Failure → Prop where
  | fault {f : Fault} : f.name ∈ Fault.foreseen → IsRaised (.fault f none)
  | digitLimit : IsRaised .digitLimit
  | unencodable (e : Text.EncodeError) : IsRaised (.unencodable e)

theorem ArithOp.name_mem_foreseen {op : ArithOp} {a b : Value} {f : Fault}
    (h : op.apply a b = .error f) : f.name ∈ Fault.foreseen := by
  cases ArithOp.refuses_of_apply h <;> simp [Fault.name, Fault.foreseen]

theorem LogicOp.name_mem_foreseen {op : LogicOp} {a b : Value} {f : Fault}
    (h : op.apply a b = .error f) : f.name ∈ Fault.foreseen := by
  cases LogicOp.refuses_of_apply h <;> simp [Fault.name, Fault.foreseen]

theorem Value.isRaised_of_negate {v : Value} {f : Failure} (h : v.negate = .error f) :
    f.IsRaised := by
  rcases negate_error h with ⟨t, rfl⟩ | ⟨-, rfl⟩
  · exact .fault (by simp [Fault.name, Fault.foreseen])
  · exact .digitLimit

theorem Expr.Breaks.isRaised {locals : Locals} {x : Expr} {f : Failure} (h : x.Breaks locals f) :
    f.IsRaised := by
  cases h with
  | unbound _ => exact .fault (by simp [Fault.name, Fault.foreseen])
  | arith _ _ hf => exact .fault (ArithOp.name_mem_foreseen hf)
  | logic _ _ hf => exact .fault (LogicOp.name_mem_foreseen hf)
  | not _ hf => exact Value.isRaised_of_negate hf

/-- What is at fault in an expression is an unbound variable, or an operand. -/
theorem Expr.Breaks.unbound_or {locals : Locals} {x : Expr} {f : Fault} {line : Option Int}
    (h : x.Breaks locals (.fault f line)) :
    (∃ name vline, x = .var name vline ∧ locals.get? name = none) ∨
      f.name ∈ ["TypeMismatch", "DivisionByZero"] := by
  cases h with
  | unbound hname => exact .inl ⟨_, _, rfl, hname⟩
  | arith _ _ hf => cases ArithOp.refuses_of_apply hf <;> simp [Fault.name]
  | logic _ _ hf => cases LogicOp.refuses_of_apply hf <;> simp [Fault.name]
  | not _ hf =>
    rcases Value.negate_error hf with ⟨t, heq⟩ | ⟨-, heq⟩ <;> cases heq
    simp [Fault.name]

theorem Expr.isRaised {locals : Locals} {e : Expr} {f : Failure} (h : e.value locals = .error f) :
    f.IsRaised := by
  obtain ⟨x, -, hf⟩ := value_eq_error_iff.mp h
  exact hf.isRaised

/-- Nothing is printed where an expression is evaluated. -/
theorem Expr.value_ne_unencodable {locals : Locals} {e : Expr} {problem : Text.EncodeError} :
    e.value locals ≠ .error (.unencodable problem) := by
  intro h
  obtain ⟨x, -, hf⟩ := value_eq_error_iff.mp h
  cases hf with
  | not _ hnegate => rcases Value.negate_error hnegate with ⟨t, heq⟩ | ⟨-, heq⟩ <;> cases heq

/-! ### Integers that are too long -/

/-- An integer of more decimal digits than can be shown. -/
def Value.IsLong : Value → Prop
  | .integer n => Integer.textLimit ≤ n.natAbs
  | _ => False

theorem Value.text?_eq_none_iff {v : Value} : v.text? = none ↔ v.IsLong := by
  cases v with
  | integer n =>
    simp only [text?, IsLong, Option.map_eq_none_iff, Integer.text?]
    generalize Integer.textLimit = limit
    split <;> simp <;> omega
  | float x | text t | boolean b => simp [text?, IsLong]

theorem mapM_eq_none_iff {α β : Type} {f : α → Option β} {xs : List α} :
    xs.mapM f = none ↔ ∃ x ∈ xs, f x = none := by
  induction xs with
  | nil => simp
  | cons x xs ih =>
    rw [List.mapM_cons]
    cases hx : f x with
    | none => simp [hx]
    | some b =>
      have htail : (∃ y ∈ x :: xs, f y = none) ↔ ∃ y ∈ xs, f y = none := by simp [hx]
      rw [htail, ← ih]
      cases xs.mapM f <;> simp

theorem describeStack?_eq_none_iff {stack : List Value} :
    describeStack? stack = none ↔ ∃ v ∈ stack, v.IsLong := by
  simp [describeStack?, mapM_eq_none_iff, Value.described?, Value.text?_eq_none_iff]

theorem Value.negate_eq_digitLimit_iff {v : Value} :
    v.negate = .error .digitLimit ↔ v.IsLong := by
  rw [← text?_eq_none_iff]
  unfold negate
  split
  · simp [text?]
  · cases hv : v.text? <;> simp

theorem Expr.value_eq_digitLimit_iff {locals : Locals} {e : Expr} :
    e.value locals = .error .digitLimit ↔
      ∃ x line v, e.Reaches locals (.not x line) ∧ x.value locals = .ok v ∧ v.IsLong := by
  rw [value_eq_error_iff]
  constructor
  · rintro ⟨x, hx, hf⟩
    cases hf with
    | not hv hf => exact ⟨_, _, _, hx, hv, Value.negate_eq_digitLimit_iff.mp hf⟩
  · rintro ⟨x, line, v, hx, hv, hlong⟩
    exact ⟨_, hx, .not hv (Value.negate_eq_digitLimit_iff.mpr hlong)⟩

end StackLang
