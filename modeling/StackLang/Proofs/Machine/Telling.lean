import StackLang.Proofs.Machine.Blocks

/-! # What a statement tells

A statement does the same at every level of detail; the more detailed levels only tell more of it.
What it does depends neither on the trace nor on what has been told. -/

namespace StackLang

theorem Outcome.andThen_pure {σ : Type} (o : Outcome σ) : o.andThen .ok = o := by
  cases o <;> rfl

/-- A step that leaves a state with the one property, and fails with the other one only. -/
inductive Outcome.Keeps {σ : Type} (P : σ → Prop) (Q : Failure → Prop) : Outcome σ → Prop where
  | ok {s : σ} : P s → Keeps P Q (.ok s)
  | failed {f : Failure} {s : σ} : Q f → P s → Keeps P Q (.failed f s)

namespace Outcome.Keeps

variable {σ τ : Type} {P : σ → Prop} {P' : τ → Prop} {Q : Failure → Prop} {o : Outcome σ}

theorem state (h : o.Keeps P Q) : P o.state := by
  cases h <;> assumption

theorem failure (h : o.Keeps P Q) {f : Failure} (hf : o.failure? = some f) : Q f := by
  cases h with
  | ok => cases hf
  | failed hQ =>
    cases hf
    exact hQ

theorem of_failed {f : Failure} {s : σ} (h : (Outcome.failed f s).Keeps P Q) : Q f :=
  h.failure rfl

theorem mono {Q' : Failure → Prop} (h : o.Keeps P Q) (hQ : ∀ f, Q f → Q' f) : o.Keeps P Q' := by
  cases h with
  | ok hs => exact .ok hs
  | failed hf hs => exact .failed (hQ _ hf) hs

theorem andThen {next : σ → Outcome σ} (h : o.Keeps P Q) (hnext : ∀ s, P s → (next s).Keeps P Q) :
    (o.andThen next).Keeps P Q := by
  cases h with
  | ok hs => exact hnext _ hs
  | failed hf hs => exact .failed hf hs

theorem map {f : σ → τ} (h : o.Keeps P Q) (hf : ∀ s, P s → P' (f s)) : (o.map f).Keeps P' Q := by
  cases h with
  | ok hs => exact .ok (hf _ hs)
  | failed hQ hs => exact .failed hQ (hf _ hs)

end Outcome.Keeps

/-- The change of a variable that a statement tells when it has succeeded. -/
def Stmt.change? : Stmt → Machine → Option Event
  | .store name _, m => m.stack.head?.map (.stored name)
  | .remove name _, m => some (.removed name (m.locals.get? name))
  | _, _ => none

namespace Machine

def tellSome (detail : Nat) : Option Event → Machine → Outcome Machine
  | none, m => .ok m
  | some e, m => m.tell detail e

/-- At any level a statement does what it does at level 0, and tells of the change. -/
theorem exec_eq_tellSome (detail : Nat) (s : Stmt) (m : Machine) :
    s.exec detail m = (s.exec 0 m).andThen (tellSome detail (s.change? m)) := by
  cases s with
  | store name line =>
    simp only [Stmt.exec, storeTop, popThen, pop, Stmt.change?]
    cases m.stack with
    | nil => rfl
    | cons v rest =>
      simp only [tell_zero]
      rfl
  | remove name line =>
    simp only [Stmt.exec, dropLocal, tell_zero]
    rfl
  | push | bare | print | pop | dup | read | convert | load => exact (Outcome.andThen_pure _).symm

/-- What follows a statement: its stack is told, or its failure. -/
def settle (detail : Nat) (line : Int) : Outcome Machine → Outcome Machine
  | .ok m => m.tell detail (.stack m.stack)
  | .failed f m => m.report detail (f.atLine (some line))

theorem runItem_eq_settle (detail : Nat) (s : Stmt) (m : Machine) :
    m.runItem detail s = settle detail s.line
      ((m.tell detail (.entered (some s.line) s.typeName)).andThen (s.exec detail)) := rfl

/-- The same state with another trace. -/
def withTrace (m : Machine) (tracing : Bool) (events : List Event) : Machine :=
  { m with tracing, events }

theorem exec_withTrace (s : Stmt) (m : Machine) (tracing : Bool) (events : List Event) :
    s.exec 0 (m.withTrace tracing events) = (s.exec 0 m).map (·.withTrace tracing events) := by
  obtain ⟨stack, locals, input, printed, sink, old, told⟩ := m
  cases s with
  | push e line | bare e =>
    simp only [Stmt.exec, eval, withTrace]
    cases e.push locals stack <;> rfl
  | print line =>
    cases stack with
    | nil => rfl
    | cons v rest =>
      simp only [Stmt.exec, printTop, peek, withTrace]
      cases v.text? with
      | none => rfl
      | some t =>
        simp only
        cases sink.refusal? t <;> rfl
  | pop line | dup line => cases stack <;> rfl
  | read line => cases input <;> rfl
  | convert target line =>
    cases stack with
    | nil => rfl
    | cons v rest =>
      simp only [Stmt.exec, convertTop, popThen, pop, withTrace, withStack]
      cases v.convert target <;> rfl
  | store name line => cases stack <;> simp only [Stmt.exec, storeTop, popThen, pop, tell_zero] <;> rfl
  | load name line =>
    simp only [Stmt.exec, loadLocal, getLocal, withTrace]
    cases locals.get? name <;> rfl
  | remove name line =>
    simp only [Stmt.exec, dropLocal, tell_zero]
    rfl

theorem events_exec (s : Stmt) (m : Machine) : (s.exec 0 m).state.events = m.events := by
  have h : s.exec 0 m = (s.exec 0 m).map (·.withTrace m.tracing m.events) :=
    exec_withTrace s m m.tracing m.events
  rw [h, Outcome.state_map]
  rfl

/-! ### Failures at any level -/

variable {detail : Nat}

theorem isRaised_tell (e : Event) (m : Machine) :
    (m.tell detail e).Keeps (fun _ => True) Failure.IsRaised := by
  unfold tell
  split
  · split
    · exact .failed .digitLimit trivial
    · split
      · exact .ok trivial
      · exact .failed (.unencodable _) trivial
  · exact .ok trivial

/-- At any level a statement fails with what it may fail with at level 0. -/
theorem isRaised_exec (s : Stmt) (m : Machine) :
    (s.exec detail m).Keeps (fun _ => True) Failure.IsRaised := by
  rw [exec_eq_tellSome]
  refine Outcome.Keeps.andThen (P := fun _ => True) ?_ fun m' _ => ?_
  · cases hrun : s.exec 0 m with
    | ok m' => exact .ok trivial
    | failed f m' => exact .failed (exec_failed_iff.mp ⟨m', hrun⟩).isRaised trivial
  · cases s.change? m with
    | none => exact .ok trivial
    | some e => exact isRaised_tell e m'

end Machine

end StackLang
