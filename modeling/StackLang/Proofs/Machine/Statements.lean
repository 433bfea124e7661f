import StackLang.Machine.Run
import StackLang.Proofs.Machine.Failures

/-! # What a statement does

At level 0, where nothing is told, a statement either takes one of the steps below or fails for one
of the reasons below, and which it is can be seen in the state that it finds. -/

namespace StackLang

/-- What a statement makes of a state. -/
inductive Stmt.Yields (m : Machine) : Stmt → Machine → Prop where
  | push {e line v} : e.value m.locals = .ok v → Yields m (.push e line) (m.push v)
  | bare {e v} : e.value m.locals = .ok v → Yields m (.bare e) (m.push v)
  | print {line v rest t} : m.stack = v :: rest → v.text? = some t → m.sink.refusal? t = none →
      Yields m (.print line) (m.print t)
  | pop {line v rest} : m.stack = v :: rest → Yields m (.pop line) (m.withStack rest)
  | dup {line v rest} : m.stack = v :: rest → Yields m (.dup line) (m.withStack (v :: v :: rest))
  | read {line text rest} : m.input = text :: rest →
      Yields m (.read line) ({ m with input := rest }.push (.text text))
  | convert {target line v w rest} : m.stack = v :: rest → v.convert target = .ok w →
      Yields m (.convert target line) (m.withStack (w :: rest))
  | store {name line v rest} : m.stack = v :: rest →
      Yields m (.store name line) ((m.withStack rest).setLocal name v)
  | load {name line v} : m.locals.get? name = some v → Yields m (.load name line) (m.push v)
  | remove {name line} : Yields m (.remove name line) (m.removeLocal name).2

/-- Why a statement fails in a state, and with what. -/
inductive Stmt.Breaks (m : Machine) : Stmt → Failure → Prop where
  | push {e line f} : e.value m.locals = .error f → Breaks m (.push e line) f
  | bare {e f} : e.value m.locals = .error f → Breaks m (.bare e) f
  | printEmpty {line} : m.stack = [] → Breaks m (.print line) (.fault .emptyPeek none)
  | printLong {line v rest} : m.stack = v :: rest → v.text? = none →
      Breaks m (.print line) .digitLimit
  | printRefused {line v rest t e} : m.stack = v :: rest → v.text? = some t →
      m.sink.refusal? t = some e → Breaks m (.print line) (.unencodable e)
  | popEmpty {line} : m.stack = [] → Breaks m (.pop line) (.fault .emptyPop none)
  | dupEmpty {line} : m.stack = [] → Breaks m (.dup line) (.fault .emptyPop none)
  | readNothing {line} : m.input = [] → Breaks m (.read line) (.fault .endOfInput none)
  | convertEmpty {target line} : m.stack = [] →
      Breaks m (.convert target line) (.fault .emptyPop none)
  | convert {target line v rest f} : m.stack = v :: rest → v.convert target = .error f →
      Breaks m (.convert target line) (.fault (.conversion f) none)
  | storeEmpty {name line} : m.stack = [] → Breaks m (.store name line) (.fault .emptyPop none)
  | load {name line} : m.locals.get? name = none →
      Breaks m (.load name line) (.fault (.unbound name) none)

namespace Machine

variable {m m' : Machine} {f : Failure}

/-! ### Steps -/

theorem tell_zero (e : Event) (m : Machine) : m.tell 0 e = .ok m :=
  tell_of_lt (by cases e <;> simp [Event.level]) m

theorem eval_ok_iff {e : Expr} :
    m.eval e = .ok m' ↔ ∃ v, e.value m.locals = .ok v ∧ m' = m.push v := by
  rw [eval, push_eq_leaves]
  cases he : e.value m.locals with
  | ok v => simp [leaves_of_ok he, Outcome.map, push, eq_comm]
  | error g => simp [leaves_of_error he, Outcome.map]

theorem popThen_ok_iff {next : Value → Machine → Outcome Machine} :
    m.popThen next = .ok m' ↔
      ∃ v rest, m.stack = v :: rest ∧ next v (m.withStack rest) = .ok m' := by
  unfold popThen pop
  cases m.stack with
  | nil => simp [fail]
  | cons v rest => simp [and_assoc]

theorem printTop_ok_iff {line : Int} :
    m.printTop = .ok m' ↔ Stmt.Yields m (.print line) m' := by
  unfold printTop peek
  constructor
  · intro h
    cases hstack : m.stack with
    | nil => simp [hstack, fail] at h
    | cons v rest =>
      simp only [hstack] at h
      cases htext : v.text? with
      | none => simp [htext] at h
      | some t =>
        simp only [htext] at h
        cases he : m.sink.refusal? t with
        | none =>
          simp only [he, Outcome.ok.injEq] at h
          exact h ▸ .print hstack htext he
        | some e => simp [he] at h
  · intro h
    cases h with
    | print hstack htext he => simp [hstack, htext, he]

/-- At level 0 a statement succeeds exactly by the steps in `Stmt.Yields`. -/
theorem exec_ok_iff {s : Stmt} : s.exec 0 m = .ok m' ↔ s.Yields m m' := by
  cases s with
  | push e line =>
    refine eval_ok_iff.trans ⟨?_, ?_⟩
    · rintro ⟨v, hv, rfl⟩
      exact .push hv
    · intro h
      cases h with
      | push hv => exact ⟨_, hv, rfl⟩
  | bare e =>
    refine eval_ok_iff.trans ⟨?_, ?_⟩
    · rintro ⟨v, hv, rfl⟩
      exact .bare hv
    · intro h
      cases h with
      | bare hv => exact ⟨_, hv, rfl⟩
  | print line => exact printTop_ok_iff
  | pop line =>
    refine popThen_ok_iff.trans ⟨?_, ?_⟩
    · rintro ⟨v, rest, hstack, h⟩
      cases h
      exact .pop hstack
    · intro h
      cases h with
      | pop hstack => exact ⟨_, _, hstack, rfl⟩
  | dup line =>
    refine popThen_ok_iff.trans ⟨?_, ?_⟩
    · rintro ⟨v, rest, hstack, h⟩
      cases h
      exact .dup hstack
    · intro h
      cases h with
      | dup hstack => exact ⟨_, _, hstack, rfl⟩
  | read line =>
    simp only [Stmt.exec, readLine]
    constructor
    · intro h
      cases hinput : m.input with
      | nil => simp [hinput, fail] at h
      | cons text rest =>
        simp only [hinput, Outcome.ok.injEq] at h
        exact h ▸ .read hinput
    · intro h
      cases h with
      | read hinput => simp [hinput]
  | convert target line =>
    refine popThen_ok_iff.trans ⟨?_, ?_⟩
    · rintro ⟨v, rest, hstack, h⟩
      cases hv : v.convert target with
      | ok w =>
        simp only [hv, Outcome.ok.injEq] at h
        exact h ▸ .convert hstack hv
      | error g => simp [hv, fail] at h
    · intro h
      cases h with
      | convert hstack hv => exact ⟨_, _, hstack, by simp only [hv]; rfl⟩
  | store name line =>
    refine popThen_ok_iff.trans ⟨?_, ?_⟩
    · rintro ⟨v, rest, hstack, h⟩
      rw [tell_zero] at h
      cases h
      exact .store hstack
    · intro h
      cases h with
      | store hstack => exact ⟨_, _, hstack, tell_zero _ _⟩
  | load name line =>
    simp only [Stmt.exec, loadLocal, getLocal]
    constructor
    · intro h
      cases hname : m.locals.get? name with
      | none => simp [hname, fail] at h
      | some v =>
        simp only [hname, Outcome.ok.injEq] at h
        exact h ▸ .load hname
    · intro h
      cases h with
      | load hname => simp [hname]
  | remove name line =>
    rw [Stmt.exec, dropLocal, tell_zero]
    constructor
    · intro h
      cases h
      exact .remove
    · intro h
      cases h
      rfl

/-! ### Failures -/

theorem eval_failed_iff {e : Expr} :
    (∃ m', m.eval e = .failed f m') ↔ e.value m.locals = .error f := by
  rw [eval, push_eq_leaves]
  cases he : e.value m.locals with
  | ok v => simp [leaves_of_ok he, Outcome.map]
  | error g => simp [leaves_of_error he, Outcome.map]

theorem popThen_failed_iff {next : Value → Machine → Outcome Machine} :
    (∃ m', m.popThen next = .failed f m') ↔
      m.stack = [] ∧ f = .fault .emptyPop none ∨
        ∃ v rest, m.stack = v :: rest ∧ ∃ m', next v (m.withStack rest) = .failed f m' := by
  unfold popThen pop
  cases m.stack with
  | nil => simp [fail, eq_comm]
  | cons v rest => simp [and_assoc]

theorem printTop_failed_iff {line : Int} :
    (∃ m', m.printTop = .failed f m') ↔ Stmt.Breaks m (.print line) f := by
  unfold printTop peek
  constructor
  · rintro ⟨m', h⟩
    cases hstack : m.stack with
    | nil =>
      simp only [hstack, fail, Outcome.failed.injEq] at h
      exact h.1 ▸ .printEmpty hstack
    | cons v rest =>
      simp only [hstack] at h
      cases htext : v.text? with
      | none =>
        simp only [htext, Outcome.failed.injEq] at h
        exact h.1 ▸ .printLong hstack htext
      | some t =>
        simp only [htext] at h
        cases he : m.sink.refusal? t with
        | none => simp [he] at h
        | some e =>
          simp only [he, Outcome.failed.injEq] at h
          exact h.1 ▸ .printRefused hstack htext he
  · intro h
    cases h with
    | printEmpty hstack => simp [hstack, fail]
    | printLong hstack htext => simp [hstack, htext]
    | printRefused hstack htext he => simp [hstack, htext, he]

/-- At level 0 a statement fails exactly for the reasons in `Stmt.Breaks`. -/
theorem exec_failed_iff {s : Stmt} : (∃ m', s.exec 0 m = .failed f m') ↔ s.Breaks m f := by
  cases s with
  | push e line => exact eval_failed_iff.trans ⟨.push, fun h => by cases h; assumption⟩
  | bare e => exact eval_failed_iff.trans ⟨.bare, fun h => by cases h; assumption⟩
  | print line => exact printTop_failed_iff
  | pop line | dup line =>
    refine popThen_failed_iff.trans ⟨?_, ?_⟩
    · rintro (⟨hstack, rfl⟩ | ⟨v, rest, hstack, m', h⟩)
      · constructor
        exact hstack
      · cases h
    · rintro ⟨⟩
      exact .inl ⟨‹_›, rfl⟩
  | read line =>
    simp only [Stmt.exec, readLine]
    constructor
    · rintro ⟨m', h⟩
      cases hinput : m.input with
      | nil =>
        simp only [hinput, fail, Outcome.failed.injEq] at h
        exact h.1 ▸ .readNothing hinput
      | cons line rest => simp [hinput] at h
    · rintro ⟨⟩
      simp [*, fail]
  | convert target line =>
    refine popThen_failed_iff.trans ⟨?_, ?_⟩
    · rintro (⟨hstack, rfl⟩ | ⟨v, rest, hstack, m', h⟩)
      · exact .convertEmpty hstack
      · cases hv : v.convert target with
        | ok w => simp [hv] at h
        | error g =>
          simp only [hv, fail, Outcome.failed.injEq] at h
          exact h.1 ▸ .convert hstack hv
    · intro h
      cases h with
      | convertEmpty hstack => exact .inl ⟨hstack, rfl⟩
      | convert hstack hv => exact .inr ⟨_, _, hstack, by simp [hv, fail]⟩
  | store name line =>
    refine popThen_failed_iff.trans ⟨?_, ?_⟩
    · rintro (⟨hstack, rfl⟩ | ⟨v, rest, hstack, m', h⟩)
      · exact .storeEmpty hstack
      · rw [tell_zero] at h
        cases h
    · rintro ⟨⟩
      exact .inl ⟨‹_›, rfl⟩
  | load name line =>
    simp only [Stmt.exec, loadLocal, getLocal]
    constructor
    · rintro ⟨m', h⟩
      cases hname : m.locals.get? name with
      | none =>
        simp only [hname, fail, Outcome.failed.injEq] at h
        exact h.1 ▸ .load hname
      | some v => simp [hname] at h
    · rintro ⟨⟩
      simp [*, fail]
  | remove name line =>
    constructor
    · rintro ⟨m', h⟩
      rw [Stmt.exec, dropLocal, tell_zero] at h
      cases h
    · rintro ⟨⟩

end Machine

theorem Stmt.Yields.sink_eq {m m' : Machine} {s : Stmt} (h : s.Yields m m') : m'.sink = m.sink := by
  cases h <;> rfl

/-! ### What failures are -/

theorem Stmt.Breaks.isRaised {m : Machine} {s : Stmt} {f : Failure} (h : s.Breaks m f) :
    f.IsRaised := by
  cases h with
  | push he | bare he => exact Expr.isRaised he
  | printLong _ _ => exact .digitLimit
  | printRefused _ _ _ => exact .unencodable _
  | printEmpty _ | popEmpty _ | dupEmpty _ | readNothing _ | convertEmpty _ | convert _ _
  | storeEmpty _ | load _ => exact .fault (by simp [Fault.name, Fault.foreseen])

/-- A long integer is to be shown: it is on top of the stack at a `print`, or the operand of a
negation that an expression comes to. -/
inductive Stmt.ShowsLong (m : Machine) : Stmt → Prop where
  | print {line v rest} : m.stack = v :: rest → v.IsLong → ShowsLong m (.print line)
  | push {e line x xline v} : e.Reaches m.locals (.not x xline) → x.value m.locals = .ok v →
      v.IsLong → ShowsLong m (.push e line)
  | bare {e x xline v} : e.Reaches m.locals (.not x xline) → x.value m.locals = .ok v →
      v.IsLong → ShowsLong m (.bare e)

/-- The sink does not take what a `print` shows. -/
def Stmt.IsRefused (m : Machine) (s : Stmt) (e : Text.EncodeError) : Prop :=
  ∃ line v rest t, s = .print line ∧ m.stack = v :: rest ∧ v.text? = some t ∧
    m.sink.refusal? t = some e

theorem Stmt.breaks_unencodable_iff {m : Machine} {s : Stmt} {e : Text.EncodeError} :
    s.Breaks m (.unencodable e) ↔ s.IsRefused m e := by
  constructor
  · intro h
    cases h with
    | push he | bare he => exact absurd he Expr.value_ne_unencodable
    | printRefused hstack ht he => exact ⟨_, _, _, _, rfl, hstack, ht, he⟩
  · rintro ⟨line, v, rest, t, rfl, hstack, ht, he⟩
    exact .printRefused hstack ht he

theorem Stmt.breaks_digitLimit_iff {m : Machine} {s : Stmt} :
    s.Breaks m .digitLimit ↔ s.ShowsLong m := by
  constructor
  · intro h
    cases h with
    | push he =>
      obtain ⟨x, line, v, hx, hv, hlong⟩ := Expr.value_eq_digitLimit_iff.mp he
      exact .push hx hv hlong
    | bare he =>
      obtain ⟨x, line, v, hx, hv, hlong⟩ := Expr.value_eq_digitLimit_iff.mp he
      exact .bare hx hv hlong
    | printLong hstack htext => exact .print hstack (Value.text?_eq_none_iff.mp htext)
  · intro h
    cases h with
    | print hstack hlong => exact .printLong hstack (Value.text?_eq_none_iff.mpr hlong)
    | push hx hv hlong => exact .push (Expr.value_eq_digitLimit_iff.mpr ⟨_, _, _, hx, hv, hlong⟩)
    | bare hx hv hlong => exact .bare (Expr.value_eq_digitLimit_iff.mpr ⟨_, _, _, hx, hv, hlong⟩)

end StackLang
