import StackLang.Proofs.Machine.Stopping

/-! # What the trace tells

The story of a run says what its statements do one after another, as they do it without a trace. A
run at some level of detail tells what its story has up to this level, in order and to the end. Only
a message that cannot be shown or encoded stops it before. -/

namespace StackLang

/-! ### Events -/

namespace Event

/-- What an event tells of a run. -/
inductive Role where
  | start
  /-- A statement is to be executed. -/
  | entry
  /-- A variable has been set or removed. -/
  | change
  | stack
  | ending
deriving DecidableEq

/-- The least level that tells of it. -/
def Role.level : Role → Nat
  | start | ending => 1
  | entry | change => 2
  | stack => 3

def role : Event → Role
  | started _ => .start
  | entered .. => .entry
  | stored .. | removed .. => .change
  | stack _ => .stack
  | failed _ | finished _ => .ending

theorem level_role (e : Event) : e.role.level = e.level := by
  cases e <;> rfl

def ofRole (r : Role) (events : List Event) : List Event := events.filter (·.role = r)

/-- What is told of the events at a level of detail. -/
def shown (detail : Nat) (events : List Event) : List Event := events.filter (·.level ≤ detail)

end Event

/-! ### The story -/

/-- How the end of a run is told. -/
def Outcome.ending : Outcome Machine → List Event
  | .ok m => [.finished m.stack]
  | .failed (.fault f line) _ => [.failed (f.diagnostic line)]
  | .failed _ _ => []

theorem Outcome.ending_cases (o : Outcome Machine) :
    o.ending = [] ∨ ∃ e, o.ending = [e] ∧ e.role = .ending := by
  rcases o with m | ⟨f, m⟩
  · exact .inr ⟨_, rfl, rfl⟩
  · cases f with
    | fault g line => exact .inr ⟨_, rfl, rfl⟩
    | digitLimit | unencodable | unsupported => exact .inl rfl

theorem Outcome.role_of_ending {o : Outcome Machine} {e : Event} (h : e ∈ o.ending) :
    e.role = .ending := by
  rcases o.ending_cases with hnone | ⟨e', he', hrole⟩
  · rw [hnone] at h
    cases h
  · rw [he'] at h
    exact List.mem_singleton.mp h ▸ hrole

namespace Machine

/-- All there is to tell when the statements are executed. -/
def story : List Stmt → Machine → List Event
  | [], m => [.finished m.stack]
  | s :: rest, m =>
    .entered (some s.line) s.typeName ::
      match s.exec 0 m with
      | .ok after => (s.change? m).toList ++ .stack after.stack :: story rest after
      | .failed f after => (Outcome.failed (f.atLine (some s.line)) after).ending

theorem change?_withTrace (s : Stmt) (m : Machine) (tracing : Bool) (events : List Event) :
    s.change? (m.withTrace tracing events) = s.change? m := by
  cases s <;> rfl

/-- The story does not depend on what has been told. -/
theorem story_withTrace (body : List Stmt) (m : Machine) (tracing : Bool) (events : List Event) :
    story body (m.withTrace tracing events) = story body m := by
  induction body generalizing m with
  | nil => rfl
  | cons s rest ih =>
    rw [story, story, exec_withTrace, change?_withTrace]
    cases s.exec 0 m with
    | ok after =>
      have hrest := ih after
      simp only [Outcome.map, hrest]
      rfl
    | failed f after =>
      simp only [Outcome.map]
      cases f.atLine (some s.line) <;> rfl

end Machine

/-- All there is to tell when the program is run. -/
def Program.story (p : Program) (start : Machine) : List Event :=
  .started p.body.length :: start.story p.body

/-! ### What is told of it -/

/-- Of what there is to tell up to the end of the run, all has been told, or all in front of a
message that cannot be encoded. -/
inductive Outcome.Tells (o : Outcome Machine) : List Event → List Event → Prop where
  | ending : (∀ e ∈ o.ending, ∃ t, e.text? = some t) → Tells o o.ending o.ending
  | cut {e rest t problem} : e.text? = some t → t.encodable = .error problem →
      o.failure? = some (.unencodable problem) → Tells o (e :: rest) []
  | cons {e t plan told} : e.role ≠ .ending → e.text? = some t → Tells o plan told →
      Tells o (e :: plan) (e :: told)

/-- To what has been told before, what there is to tell is added, unless an integer or a line number
is too long. -/
def Outcome.Adds (o : Outcome Machine) (plan before : List Event) : Prop :=
  o.failure? = some .digitLimit ∨
    ∃ told, o.Tells plan told ∧ o.state.events = told.reverse ++ before

namespace Machine

variable {detail : Nat} {m : Machine} {e : Event} {plan : List Event}
  {next : Machine → Outcome Machine}

theorem adds_tell (he : e.role ≠ .ending)
    (hnext : ∀ events, (next (m.withTrace m.tracing events)).Adds plan events) :
    ((m.tell detail e).andThen next).Adds (Event.shown detail [e] ++ plan) m.events := by
  unfold tell
  split
  next hlevel =>
    have hshown : Event.shown detail [e] = [e] := by simp [Event.shown, hlevel]
    rw [hshown]
    split
    next ht => exact .inl rfl
    next t ht =>
      split
      next =>
        rcases hnext (e :: m.events) with hlong | ⟨told, htells, hevents⟩
        · exact .inl hlong
        · refine .inr ⟨e :: told, .cons he ht htells, ?_⟩
          rw [List.reverse_cons, List.append_assoc]
          exact hevents
      next problem hproblem => exact .inr ⟨[], .cut ht hproblem rfl, rfl⟩
  next hlevel =>
    have hshown : Event.shown detail [e] = [] := by simp [Event.shown, hlevel]
    rw [hshown]
    exact hnext m.events

theorem adds_tellSome {change? : Option Event} (he : ∀ e, change? = some e → e.role ≠ .ending)
    (hnext : ∀ events, (next (m.withTrace m.tracing events)).Adds plan events) :
    ((tellSome detail change? m).andThen next).Adds
      (Event.shown detail change?.toList ++ plan) m.events := by
  cases change? with
  | none => exact hnext m.events
  | some e => exact adds_tell (he e rfl) hnext

/-- What is told last. -/
theorem adds_last (hlevel : e.level ≤ detail)
    (hnext : ∀ events, (next (m.withTrace m.tracing events)).ending = [e] ∧
      (next (m.withTrace m.tracing events)).state.events = events) :
    ((m.tell detail e).andThen next).Adds [e] m.events := by
  simp only [tell, if_pos hlevel]
  split
  next ht => exact .inl rfl
  next t ht =>
    split
    next =>
      obtain ⟨hending, hevents⟩ := hnext (e :: m.events)
      have htells := Outcome.Tells.ending (o := next (m.withTrace m.tracing (e :: m.events)))
      rw [hending] at htells
      exact .inr ⟨[e], htells (by simp [ht]), hevents⟩
    next problem hproblem => exact .inr ⟨[], .cut ht hproblem rfl, rfl⟩

section

variable (hdetail : 1 ≤ detail)
include hdetail

theorem adds_finish (m : Machine) :
    (m.finish detail).Adds (Event.shown detail [.finished m.stack]) m.events := by
  have hshown : Event.shown detail [.finished m.stack] = [.finished m.stack] := by
    simp [Event.shown, Event.level, hdetail]
  rw [hshown]
  unfold finish
  split
  next =>
    rw [← Outcome.andThen_pure (m.tell _ _)]
    exact adds_last hdetail fun events => ⟨rfl, rfl⟩
  next => exact .inl rfl

theorem adds_report (f : Failure) (m after : Machine) :
    (m.report detail f).Adds (Event.shown detail (Outcome.failed f after).ending) m.events := by
  cases f with
  | fault g line =>
    have hshown : Event.shown detail [.failed (g.diagnostic line)] =
        [.failed (g.diagnostic line)] := by
      simp [Event.shown, Event.level, hdetail]
    simp only [Outcome.ending, hshown, report]
    split
    next => exact adds_last hdetail fun events => ⟨rfl, rfl⟩
    next => exact .inl rfl
  | digitLimit | unencodable problem | unsupported u =>
    exact .inr ⟨[], .ending (by simp [Outcome.ending, report]), rfl⟩

end

theorem report_andThen (f : Failure) (m : Machine) :
    (m.report detail f).andThen next = m.report detail f := by
  obtain ⟨g, m', h⟩ := exists_report_failed detail f m
  rw [h, Outcome.andThen_failed]

theorem role_change? {s : Stmt} (h : s.change? m = some e) : e.role = .change := by
  cases s with
  | store name line =>
    obtain ⟨v, -, rfl⟩ := Option.map_eq_some_iff.mp h
    rfl
  | remove name line =>
    cases h
    rfl
  | push | bare | print | pop | dup | read | convert | load => cases h

/-- Nothing follows a message that cannot be told. -/
theorem settle_tell (line : Int) :
    settle detail line ((m.tell detail e).andThen next) =
      (m.tell detail e).andThen fun m => settle detail line (next m) := by
  unfold tell
  split
  · split
    · rfl
    · split <;> rfl
  · rfl

theorem settle_tellSome (line : Int) (change? : Option Event) (m : Machine) :
    settle detail line (tellSome detail change? m) =
      (tellSome detail change? m).andThen fun m => m.tell detail (.stack m.stack) := by
  cases change? with
  | none => rfl
  | some e =>
    rw [tellSome, ← Outcome.andThen_pure (m.tell detail e), settle_tell, Outcome.andThen_pure]
    rfl

/-- What the statements tell is their story. The induction is on the statements; each finds the
state of the run without a trace. -/
theorem adds_runBlock (hdetail : 1 ≤ detail) (body : List Stmt) (m : Machine) :
    ((m.runBlock detail body).andThen (finish detail)).Adds
      (Event.shown detail (story body m)) m.events := by
  induction body generalizing m with
  | nil => exact adds_finish hdetail m
  | cons s rest ih =>
    rw [runBlock, Outcome.andThen_assoc, runItem_eq_settle, settle_tell, Outcome.andThen_assoc,
      story, ← List.singleton_append, Event.shown, List.filter_append]
    refine adds_tell (by simp [Event.role]) fun events => ?_
    rw [exec_eq_tellSome, exec_withTrace, change?_withTrace]
    cases s.exec 0 m with
    | failed f after =>
      simp only [Outcome.map, Outcome.andThen_failed, settle, report_andThen]
      exact adds_report hdetail _ (after.withTrace m.tracing events) after
    | ok after =>
      simp only [Outcome.map, Outcome.andThen_ok, settle_tellSome, Outcome.andThen_assoc,
        List.filter_append]
      refine adds_tellSome (fun e he => by simp [role_change? he]) fun events => ?_
      rw [← List.singleton_append, List.filter_append]
      refine adds_tell (by simp [Event.role]) fun events => ?_
      have hrest := ih (after.withTrace m.tracing events)
      rwa [story_withTrace] at hrest

end Machine

theorem Outcome.Tells.congr {o o' : Outcome Machine} (hending : o'.ending = o.ending)
    (hfailure : o'.failure? = o.failure?) {plan told : List Event} (h : o.Tells plan told) :
    o'.Tells plan told := by
  induction h with
  | ending htext =>
    rw [← hending] at htext ⊢
    exact .ending htext
  | cut ht hproblem hf => exact .cut ht hproblem (hfailure.trans hf)
  | cons he ht _ ih => exact .cons he ht ih

theorem Outcome.Adds.closeTrace {o : Outcome Machine} {plan before : List Event}
    (h : o.Adds plan before) : (o.map Machine.closeTrace).Adds plan before := by
  have hfailure : (o.map Machine.closeTrace).failure? = o.failure? := by cases o <;> rfl
  have hending : (o.map Machine.closeTrace).ending = o.ending := by
    rcases o with m | ⟨f, m⟩
    · rfl
    · cases f <;> rfl
  rcases h with hlong | ⟨told, htells, hevents⟩
  · exact .inl (hfailure.trans hlong)
  · exact .inr ⟨told, htells.congr hending hfailure, by rwa [Outcome.state_map]⟩

/-- A run tells its story. -/
theorem Program.adds_run (p : Program) {detail : Nat} (hdetail : 1 ≤ detail) (start : Machine) :
    (p.run detail start).Adds (Event.shown detail (p.story start)) start.events := by
  have hbody : (Machine.runBody detail p.body (start.openTrace detail)).Adds
      (Event.shown detail (p.story start)) start.events := by
    rw [Machine.runBody, Outcome.andThen_assoc, story, ← List.singleton_append, Event.shown,
      List.filter_append]
    refine Machine.adds_tell (by simp [Event.role]) fun events => ?_
    have hblock := Machine.adds_runBlock hdetail p.body
      (start.withTrace (start.openTrace detail).tracing events)
    rwa [Machine.story_withTrace] at hblock
  exact hbody.closeTrace

namespace Outcome.Tells

variable {o : Outcome Machine} {plan told : List Event}

theorem text (h : o.Tells plan told) : ∀ e ∈ told, ∃ t, e.text? = some t := by
  induction h with
  | ending htext => exact htext
  | cut => simp
  | cons _ ht _ ih => exact List.forall_mem_cons.mpr ⟨⟨_, ht⟩, ih⟩

/-- What is told of the end comes last. -/
theorem exists_split (h : o.Tells plan told) :
    ∃ first, told = first ++ o.ending ∧ ∀ e ∈ first, e.role ≠ .ending := by
  induction h with
  | ending => exact ⟨[], rfl, by simp⟩
  | cut _ _ hf =>
    have hnone : o.ending = [] := by
      rcases o with m | ⟨f, m⟩
      · cases hf
      · cases Option.some.inj hf
        rfl
    exact ⟨[], hnone.symm, by simp⟩
  | @cons e t _ _ he _ _ ih =>
    obtain ⟨first, rfl, hfirst⟩ := ih
    exact ⟨e :: first, rfl, List.forall_mem_cons.mpr ⟨he, hfirst⟩⟩

theorem last_iff (h : o.Tells plan told) (e : Event) :
    told.getLast? = some e ∧ e.role = .ending ↔ o.ending = [e] := by
  obtain ⟨first, rfl, hfirst⟩ := h.exists_split
  constructor
  · rintro ⟨hlast, hrole⟩
    rcases o.ending_cases with hnone | ⟨e', he', -⟩
    · rw [hnone, List.append_nil] at hlast
      exact absurd hrole (hfirst e (List.mem_of_getLast? hlast))
    · rw [he', List.getLast?_concat] at hlast
      rw [he', Option.some.inj hlast]
  · intro hending
    have hmem : e ∈ o.ending := by simp [hending]
    rw [hending, List.getLast?_concat]
    exact ⟨rfl, Outcome.role_of_ending hmem⟩

theorem eq_or_cut (h : o.Tells plan told) :
    told = plan ∨ ∃ e t problem, told ++ [e] <+: plan ∧ e.text? = some t ∧
      t.encodable = .error problem ∧ o.failure? = some (.unencodable problem) := by
  induction h with
  | ending => exact .inl rfl
  | cut ht hproblem hf => exact .inr ⟨_, _, _, List.prefix_append [_] _, ht, hproblem, hf⟩
  | cons _ _ _ ih =>
    rcases ih with rfl | ⟨e, t, problem, hbegins, hcut⟩
    · exact .inl rfl
    · exact .inr ⟨e, t, problem, List.cons_prefix_cons.mpr ⟨rfl, hbegins⟩, hcut⟩

/-- That the program is started can always be told. -/
theorem head?_started {n : Nat} {rest : List Event} (h : o.Tells (.started n :: rest) told) :
    told.head? = some (.started n) := by
  generalize hplan : Event.started n :: rest = plan at h
  cases h with
  | ending =>
    rcases o with m | ⟨f, m⟩
    · cases hplan
    · cases f <;> cases hplan
  | cut ht hproblem =>
    cases hplan
    obtain ⟨s, rfl⟩ := Event.HoldsStrings.text? (e := .started n) trivial ht
    rw [Text.encodable_ofString] at hproblem
    cases hproblem
  | cons =>
    cases hplan
    rfl

end Outcome.Tells

/-! ### The story and the states of the run -/

namespace Machine

variable {m before : Machine} {s : Stmt} {body rest : List Stmt} {k : Nat}

/-- The state behind the first statements, without a trace. -/
def reached (m : Machine) (body : List Stmt) (i : Nat) : Machine :=
  (m.runBlock 0 (body.take i)).state

theorem reached_cons {after : Machine} (h : s.exec 0 m = .ok after) (i : Nat) :
    m.reached (s :: rest) (i + 1) = after.reached rest i := by
  rw [reached, List.take_succ_cons, runBlock, runItem_of_exec h, Outcome.andThen_ok, reached]

end Machine

/-- The first statement fails, or the others go on behind it. -/
theorem Program.Completes.cons_cases {s : Stmt} {rest : List Stmt} {m before : Machine} {k : Nat}
    (h : Program.Completes ⟨s :: rest⟩ m k before) :
    (k = 0 ∧ ∃ f after, s.exec 0 m = .failed f after) ∨
      ∃ j after, k = j + 1 ∧ s.exec 0 m = .ok after ∧ Program.Completes ⟨rest⟩ after j before := by
  obtain ⟨hle, hcompleted, hends⟩ := h
  cases hexec : s.exec 0 m with
  | failed f after =>
    cases k with
    | zero => exact .inl ⟨rfl, f, after, rfl⟩
    | succ j =>
      rw [List.take_succ_cons] at hcompleted
      obtain ⟨m₁, hitem, -⟩ := Machine.runBlock_cons_ok_iff.mp hcompleted
      cases hexec.symm.trans (Machine.exec_of_runItem hitem)
  | ok after =>
    have hitem := Machine.runItem_of_exec hexec
    cases k with
    | zero =>
      cases hcompleted
      obtain ⟨f, m', hfail⟩ := hends s rfl
      cases hitem.symm.trans hfail
    | succ j =>
      rw [List.take_succ_cons] at hcompleted
      obtain ⟨m₁, hitem', hrest⟩ := Machine.runBlock_cons_ok_iff.mp hcompleted
      cases hitem.symm.trans hitem'
      exact .inr ⟨j, after, rfl, rfl, Nat.le_of_succ_le_succ hle, hrest, hends⟩

namespace Event

variable {r : Role}

theorem ofRole_change? (hr : r ≠ .change) (s : Stmt) (m : Machine) :
    ofRole r (s.change? m).toList = [] := by
  cases h : s.change? m with
  | none => rfl
  | some e => simp [ofRole, Machine.role_change? h, hr.symm]

theorem ofRole_ending (hr : r ≠ .ending) (o : Outcome Machine) : ofRole r o.ending = [] := by
  refine List.filter_eq_nil_iff.mpr fun e he => ?_
  simp [Outcome.role_of_ending he, hr.symm]

/-- Of a program's story, a level that tells of the role shows what its statements add. -/
theorem ofRole_shown {detail : Nat} (hr : r ≠ .start) (hlevel : r.level ≤ detail) (p : Program)
    (start : Machine) :
    ofRole r (shown detail (p.story start)) = ofRole r (start.story p.body) := by
  have hall : ofRole r (shown detail (p.story start)) = ofRole r (p.story start) := by
    rw [ofRole, shown, List.filter_filter]
    refine List.filter_congr fun e _ => ?_
    by_cases hk : e.role = r
    · simp [hk, ← e.level_role, hlevel]
    · simp [hk]
  rw [hall, Program.story, ofRole, List.filter_cons_of_neg (by simp [role, hr.symm]), ofRole]

end Event

namespace Machine

open Event in
theorem ofRole_story_ok {s : Stmt} {rest : List Stmt} {m after : Machine}
    (h : s.exec 0 m = .ok after) (r : Role) :
    ofRole r (story (s :: rest) m) = ofRole r [.entered (some s.line) s.typeName] ++
      (ofRole r (s.change? m).toList ++ (ofRole r [.stack after.stack] ++
        ofRole r (story rest after))) := by
  simp only [ofRole, ← List.filter_append, story, h]
  rfl

open Event in
theorem ofRole_story_failed {s : Stmt} {rest : List Stmt} {m after : Machine} {f : Failure}
    (h : s.exec 0 m = .failed f after) {r : Role} (hr : r ≠ .ending) :
    ofRole r (story (s :: rest) m) = ofRole r [.entered (some s.line) s.typeName] := by
  have hending := ofRole_ending hr (.failed (f.atLine (some s.line)) after)
  rw [ofRole] at hending
  rw [story, h, ofRole, ← List.singleton_append, List.filter_append, hending, List.append_nil,
    ofRole]

variable {m before : Machine} {body : List Stmt} {k : Nat}

/-- The statements that are completed lead from each state to the next one. -/
theorem exec_reached (h : Program.Completes ⟨body⟩ m k before) {i : Nat} (hi : i < k) {s : Stmt}
    (hs : body[i]? = some s) : s.exec 0 (m.reached body i) = .ok (m.reached body (i + 1)) := by
  induction body generalizing m k i with
  | nil => simp at hs
  | cons first rest ih =>
    rcases h.cons_cases with ⟨rfl, -⟩ | ⟨j, after, rfl, hexec, hrest⟩
    · exact absurd hi (Nat.not_lt_zero i)
    · rw [reached_cons hexec]
      cases i with
      | zero =>
        cases hs
        exact hexec
      | succ i =>
        rw [reached_cons hexec]
        exact ih hrest (Nat.lt_of_succ_lt_succ hi) hs

/-- Each statement that is executed is told of, and the one that fails. -/
theorem entries_story (h : Program.Completes ⟨body⟩ m k before) :
    Event.ofRole .entry (story body m) =
      (body.take (k + 1)).map fun s => .entered (some s.line) s.typeName := by
  induction body generalizing m k with
  | nil => rfl
  | cons s rest ih =>
    rw [List.take_succ_cons, List.map_cons]
    rcases h.cons_cases with ⟨rfl, f, after, hexec⟩ | ⟨j, after, rfl, hexec, hrest⟩
    · rw [ofRole_story_failed hexec (by decide)]
      rfl
    · rw [ofRole_story_ok hexec, Event.ofRole_change? (by decide), ih hrest]
      rfl

/-- Each change that a statement has made is told. -/
theorem changes_story (h : Program.Completes ⟨body⟩ m k before) :
    Event.ofRole .change (story body m) =
      (List.range k).filterMap fun i => body[i]?.bind (·.change? (m.reached body i)) := by
  induction body generalizing m k with
  | nil =>
    obtain rfl : k = 0 := Nat.le_zero.mp h.le
    rfl
  | cons s rest ih =>
    rcases h.cons_cases with ⟨rfl, f, after, hexec⟩ | ⟨j, after, rfl, hexec, hrest⟩
    · rw [ofRole_story_failed hexec (by decide)]
      rfl
    · rw [ofRole_story_ok hexec, ih hrest, List.range_succ_eq_map, List.filterMap_cons,
        List.filterMap_map]
      have hfirst : (s :: rest)[0]?.bind (·.change? (m.reached (s :: rest) 0)) = s.change? m := rfl
      simp only [Function.comp_def, Nat.succ_eq_add_one, reached_cons hexec,
        List.getElem?_cons_succ, hfirst]
      cases hchange : s.change? m with
      | none => rfl
      | some e =>
        have he : Event.ofRole .change [e] = [e] := by simp [Event.ofRole, role_change? hchange]
        rw [Option.toList_some, he]
        rfl

/-- The stack is told behind each statement that has been executed. -/
theorem stacks_story (h : Program.Completes ⟨body⟩ m k before) :
    Event.ofRole .stack (story body m) =
      (List.range k).map fun i => .stack (m.reached body (i + 1)).stack := by
  induction body generalizing m k with
  | nil =>
    obtain rfl : k = 0 := Nat.le_zero.mp h.le
    rfl
  | cons s rest ih =>
    rcases h.cons_cases with ⟨rfl, f, after, hexec⟩ | ⟨j, after, rfl, hexec, hrest⟩
    · rw [ofRole_story_failed hexec (by decide)]
      rfl
    · rw [ofRole_story_ok hexec, Event.ofRole_change? (by decide), ih hrest,
        List.range_succ_eq_map, List.map_cons, List.map_map]
      simp only [Function.comp_def, reached_cons hexec]
      rfl

end Machine

end StackLang
