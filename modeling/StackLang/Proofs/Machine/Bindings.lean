import StackLang.Proofs.Machine.Stopping
import StackLang.Proofs.Program.Origins

/-! # What variables are bound to

A variable has the value that its last store took from the stack, and none behind a removal; no other
statement touches it. So whether it is bound can be read off the statements, before they run. -/

namespace StackLang

namespace Stmt

/-- The statement binds the variable or unbinds it. -/
def Writes (x : Text) : Stmt → Prop
  | store name _ | remove name _ => name = x
  | _ => False

/-- The last statement of a list that writes the variable, and what stands in front of it. -/
def LastWrite (x : Text) (body front : List Stmt) (s : Stmt) : Prop :=
  s.Writes x ∧ ∃ behind, body = front ++ s :: behind ∧ ∀ other ∈ behind, ¬ other.Writes x

/-- The statements leave the variable bound, whatever the values are. -/
def LeavesBound (locals : Locals) (x : Text) (body : List Stmt) : Prop :=
  (∀ s ∈ body, ¬ s.Writes x) ∧ locals.get? x ≠ none ∨
    ∃ front line, LastWrite x body front (.store x line)

variable {x : Text} {body front : List Stmt} {s : Stmt}

/-! ### The last write -/

namespace LastWrite

theorem mem (h : LastWrite x body front s) : s ∈ body := by
  obtain ⟨-, behind, rfl, -⟩ := h
  simp

/-- Nothing behind the last write is a write. -/
theorem length_le {front' : List Stmt} {s' : Stmt} (h : LastWrite x body front s)
    (h' : LastWrite x body front' s') : front'.length ≤ front.length := by
  obtain ⟨-, behind, hbody, hbehind⟩ := h
  obtain ⟨hs', behind', hbody', -⟩ := h'
  by_contra hlt
  have hmem : s' ∈ behind := by
    rcases List.append_eq_append_iff.mp (hbody.symm.trans hbody') with
      ⟨more, hfront, hrest⟩ | ⟨more, hfront, -⟩
    · cases more with
      | nil => simp [hfront] at hlt
      | cons other more =>
        obtain ⟨-, rfl⟩ := List.cons.inj hrest
        simp
    · simp [hfront] at hlt
  exact hbehind s' hmem hs'

theorem unique {front' : List Stmt} {s' : Stmt} (h : LastWrite x body front s)
    (h' : LastWrite x body front' s') : front = front' ∧ s = s' := by
  have hlength : front.length = front'.length := Nat.le_antisymm (h'.length_le h) (h.length_le h')
  obtain ⟨-, behind, hbody, -⟩ := h
  obtain ⟨-, behind', hbody', -⟩ := h'
  obtain ⟨hfront, hrest⟩ := List.append_inj (hbody.symm.trans hbody') hlength
  exact ⟨hfront, (List.cons.inj hrest).1⟩

theorem append (h : LastWrite x body front s) {other : Stmt} (hother : ¬ other.Writes x) :
    LastWrite x (body ++ [other]) front s := by
  obtain ⟨hs, behind, rfl, hbehind⟩ := h
  refine ⟨hs, behind ++ [other], by simp, fun t ht => ?_⟩
  rcases List.mem_append.mp ht with ht | ht
  · exact hbehind t ht
  · exact List.mem_singleton.mp ht ▸ hother

theorem self (hs : s.Writes x) (body : List Stmt) : LastWrite x (body ++ [s]) body s :=
  ⟨hs, [], rfl, by simp⟩

end LastWrite

/-! ### One statement -/

variable {m m' : Machine}

theorem Yields.get?_of_not_writes (h : s.Yields m m') (hs : ¬ s.Writes x) :
    m'.locals.get? x = m.locals.get? x := by
  cases h with
  | push | bare | print | pop | dup | read | convert | load => rfl
  | @store name line v rest hstack =>
    have hname : x ≠ name := fun heq => hs heq.symm
    exact (Locals.get?_set m.locals name x v).trans (if_neg hname)
  | @remove name line =>
    have hname : x ≠ name := fun heq => hs heq.symm
    exact (Locals.get?_erase m.locals name x).trans (if_neg hname)

/-- A statement that does not write a variable leaves its binding as it is, also where it fails. -/
theorem get?_exec (hs : ¬ s.Writes x) (m : Machine) :
    (s.exec 0 m).state.locals.get? x = m.locals.get? x := by
  cases hrun : s.exec 0 m with
  | ok m' => exact (Machine.exec_ok_iff.mp hrun).get?_of_not_writes hs
  | failed f m' =>
    obtain ⟨-, hlocals, -⟩ := (Machine.leaves_of_exec hrun).frame
    exact congrArg (Locals.get? · x) hlocals

end Stmt

/-! ### Behind a run -/

/-- What the variable is bound to behind statements that have been executed from `start`: its initial
value if none of them writes it, and otherwise what the last of these leaves. -/
inductive Machine.Binds (start : Machine) (x : Text) (body : List Stmt) : Option Value → Prop where
  | initial : (∀ s ∈ body, ¬ s.Writes x) → Binds start x body (start.locals.get? x)
  | stored {front line before v rest} : Stmt.LastWrite x body front (.store x line) →
      start.runBlock 0 front = .ok before → before.stack = v :: rest → Binds start x body (some v)
  | removed {front line} : Stmt.LastWrite x body front (.remove x line) → Binds start x body none

namespace Machine

variable {start after : Machine} {x : Text} {body : List Stmt} {b b' : Option Value}

theorem Binds.append (h : start.Binds x body b) {s : Stmt} (hs : ¬ s.Writes x) :
    start.Binds x (body ++ [s]) b := by
  cases h with
  | initial hnone =>
    refine .initial fun t ht => ?_
    rcases List.mem_append.mp ht with ht | ht
    · exact hnone t ht
    · exact List.mem_singleton.mp ht ▸ hs
  | stored hlast hrun hstack => exact .stored (hlast.append hs) hrun hstack
  | removed hlast => exact .removed (hlast.append hs)

theorem Binds.unique (h : start.Binds x body b) (h' : start.Binds x body b') : b = b' := by
  cases h with
  | initial hnone =>
    cases h' with
    | initial => rfl
    | stored hlast | removed hlast => exact absurd hlast.1 (hnone _ hlast.mem)
  | stored hlast hrun hstack =>
    cases h' with
    | initial hnone => exact absurd hlast.1 (hnone _ hlast.mem)
    | stored hlast' hrun' hstack' =>
      obtain ⟨rfl, -⟩ := hlast.unique hlast'
      cases hrun.symm.trans hrun'
      cases hstack.symm.trans hstack'
      rfl
    | removed hlast' => cases (hlast.unique hlast').2
  | removed hlast =>
    cases h' with
    | initial hnone => exact absurd hlast.1 (hnone _ hlast.mem)
    | stored hlast' => cases (hlast.unique hlast').2
    | removed => rfl

/-- Whether a variable is bound depends on the statements and on the initial bindings alone. -/
theorem Binds.ne_none_iff (h : start.Binds x body b) :
    b ≠ none ↔ Stmt.LeavesBound start.locals x body := by
  unfold Stmt.LeavesBound
  cases h with
  | initial hnone =>
    refine ⟨fun hb => .inl ⟨hnone, hb⟩, ?_⟩
    rintro (⟨-, hb⟩ | ⟨front, line, hlast⟩)
    · exact hb
    · exact absurd hlast.1 (hnone _ hlast.mem)
  | @stored front line _ _ _ hlast => exact ⟨fun _ => .inr ⟨front, line, hlast⟩, by simp⟩
  | removed hlast =>
    refine ⟨fun hb => absurd rfl hb, ?_⟩
    rintro (⟨hnone, -⟩ | ⟨front, line, hlast'⟩)
    · exact absurd hlast.1 (hnone _ hlast.mem)
    · cases (hlast.unique hlast').2

/-- The state behind a run binds each variable as the last write does. -/
theorem binds_of_runBlock (x : Text) (h : start.runBlock 0 body = .ok after) :
    start.Binds x body (after.locals.get? x) := by
  -- The last statement is the one that may write last.
  induction body using List.reverseRecOn generalizing after with
  | nil =>
    cases h
    exact .initial (by simp)
  | append_singleton body s ih =>
    rw [runBlock_append] at h
    cases hbody : start.runBlock 0 body with
    | failed f m =>
      rw [hbody] at h
      cases h
    | ok before =>
      rw [hbody, Outcome.andThen_ok] at h
      obtain ⟨m, hitem, hnil⟩ := runBlock_cons_ok_iff.mp h
      cases hnil
      have hyields := exec_ok_iff.mp (exec_of_runItem hitem)
      by_cases hs : s.Writes x
      · cases hyields with
        | push | bare | print | pop | dup | read | convert | load => exact hs.elim
        | @store name line v rest hstack =>
          have hname : name = x := hs
          subst hname
          have hbound : (before.locals.set name v).get? name = some v := by
            rw [Locals.get?_set, if_pos rfl]
          exact hbound ▸ .stored (.self hs body) hbody hstack
        | @remove name line =>
          have hname : name = x := hs
          subst hname
          have hbound : (before.locals.erase name).get? name = none := by
            rw [Locals.get?_erase, if_pos rfl]
          exact hbound ▸ .removed (.self hs body)
      · rw [hyields.get?_of_not_writes hs]
        exact (ih hbody).append hs

theorem binds_iff (h : start.runBlock 0 body = .ok after) :
    start.Binds x body b ↔ after.locals.get? x = b := by
  have hbinds := binds_of_runBlock x h
  exact ⟨fun hb => hbinds.unique hb, fun heq => heq ▸ hbinds⟩

end Machine

/-! ### Variables that are used -/

theorem Expr.Reaches.mem_nodes {locals : Locals} {e x : Expr} (h : e.Reaches locals x) :
    x ∈ e.nodes := by
  induction h with
  | self e => cases e <;> simp [nodes]
  | arithRight _ ih | arithLeft _ _ ih | logicRight _ ih | logicLeft _ _ ih | operand _ ih =>
    simp [nodes, ih]

/-- Only an unbound variable makes an expression fail over an unknown one. -/
theorem Expr.exists_unbound {locals : Locals} {e : Expr} {f : Fault} {line : Option Int}
    (h : e.value locals = .error (.fault f line)) (hname : f.name = "UnknownVariable") :
    ∃ x line, .var x line ∈ e.nodes ∧ locals.get? x = none := by
  obtain ⟨node, hreach, hbreaks⟩ := value_eq_error_iff.mp h
  rcases hbreaks.unbound_or with ⟨x, vline, rfl, hnone⟩ | hother
  · exact ⟨x, vline, hreach.mem_nodes, hnone⟩
  · simp [hname] at hother

theorem Stmt.Breaks.value_eq {m : Machine} {s : Stmt} {e : Expr} {f : Failure} (h : s.Breaks m f)
    (he : s.expr? = some e) : e.value m.locals = .error f := by
  cases h with
  | push hf | bare hf =>
    cases he
    exact hf
  | _ => cases he

theorem Stmt.breaks_load_iff {m : Machine} {x : Text} {line : Int} {f : Failure} :
    (Stmt.load x line).Breaks m f ↔ m.locals.get? x = none ∧ f = .fault (.unbound x) none := by
  constructor
  · rintro ⟨⟩
    exact ⟨‹_›, rfl⟩
  · rintro ⟨hnone, rfl⟩
    exact .load hnone

/-- The statement at which a run stops gives the fault its line. -/
theorem Program.StopsAt.exists_run {p : Program} {start before : Machine} {k : Nat} {s : Stmt}
    {f : Fault} (hlines : ∀ s ∈ p.body, s.line.natAbs < Integer.textLimit)
    (h : p.StopsAt start k s before f) :
    ∃ m, p.run 0 start = .failed (.fault f (some s.line)) m :=
  (run_failed_iff hlines).mpr (.inl ⟨before, s, _, ⟨k, h.stmt, h.completed⟩, h.breaks, rfl⟩)

/-- When the first `k` statements have been executed, each variable has the value that was on top of
the stack at its last store, none if it was removed behind that, and its initial binding if it was
never written; nothing else changes a binding. So the statements in front tell whether a load fails
over an unknown variable, and no expression does whose variables they leave bound. -/
theorem variables_hold_last_write (p : Program)
    (hlines : ∀ s ∈ p.body, s.line.natAbs < Integer.textLimit) (start : Machine) :
    (∀ (s : Stmt) (m : Machine) (x : Text), ¬ s.Writes x →
      (s.exec 0 m).state.locals.get? x = m.locals.get? x) ∧
    (∀ (e : Expr) (m : Machine), (m.eval e).state.locals = m.locals) ∧
    ∀ k after, start.runBlock 0 (p.body.take k) = .ok after →
      (∀ x b, start.Binds x (p.body.take k) b ↔ after.locals.get? x = b) ∧
      (∀ x line, p.body[k]? = some (.load x line) →
        ((∃ f m, f.name = "UnknownVariable" ∧ p.StopsAt start k (.load x line) after f ∧
            p.run 0 start = .failed (.fault f (some line)) m) ↔
          ¬ Stmt.LeavesBound start.locals x (p.body.take k))) ∧
      ∀ s e, p.body[k]? = some s → s.expr? = some e →
        (∀ x line, .var x line ∈ e.nodes → Stmt.LeavesBound start.locals x (p.body.take k)) →
        ∀ f, f.name = "UnknownVariable" → ¬ p.StopsAt start k s after f := by
  refine ⟨fun s m x hs => Stmt.get?_exec hs m, fun e m => ?_, fun k after hrun => ?_⟩
  · rw [(eval_refines_value m e).2.2]
    rfl
  have hbound : ∀ x, after.locals.get? x ≠ none ↔ Stmt.LeavesBound start.locals x (p.body.take k) :=
    fun x => (Machine.binds_of_runBlock x hrun).ne_none_iff
  refine ⟨fun x b => Machine.binds_iff hrun, fun x line hs => ?_, fun s e hs he hvars f hname h => ?_⟩
  · rw [← hbound x, not_not]
    constructor
    · rintro ⟨f, m, -, hstops, -⟩
      exact (Stmt.breaks_load_iff.mp hstops.breaks).1
    · intro hnone
      have hstops : p.StopsAt start k (.load x line) after (.unbound x) := ⟨hs, hrun, .load hnone⟩
      obtain ⟨m, hm⟩ := hstops.exists_run hlines
      exact ⟨_, m, rfl, hstops, hm⟩
  · obtain ⟨x, line, hx, hnone⟩ := Expr.exists_unbound (h.breaks.value_eq he) hname
    exact (hbound x).mpr (hvars x line hx) hnone

/-- A variable that is stored twice has the second value, and a load fails behind its removal. -/
theorem variables_hold_last_write_removed :
    let p : Program := ⟨[.push (.boolean true 1) 1, .store "x" 2, .push (.text "a" 3) 3,
      .store "x" 4, .remove "x" 5, .load "x" 6]⟩
    let start := Machine.start []
    start.Binds "x" (p.body.take 4) (some (.text "a")) ∧ start.Binds "x" (p.body.take 5) none ∧
      ∃ f m, f.name = "UnknownVariable" ∧ p.run 0 start = .failed (.fault f (some 6)) m := by
  intro p start
  obtain ⟨-, -, h⟩ := variables_hold_last_write p (Stmt.short_lines (by decide)) start
  obtain ⟨hstored, -⟩ := h 4 _ rfl
  obtain ⟨hremoved, hload, -⟩ := h 5 _ rfl
  have hnone : start.Binds "x" (p.body.take 5) none := (hremoved "x" none).mpr rfl
  refine ⟨(hstored "x" _).mpr rfl, hnone, ?_⟩
  have hunbound := hnone.ne_none_iff.not.mp (not_not_intro rfl)
  obtain ⟨f, m, hname, -, hrun⟩ := (hload "x" 6 rfl).mpr hunbound
  exact ⟨f, m, hname, hrun⟩

end StackLang
