import Mathlib.Data.List.Nodup
import StackLang.Machine.Run
import StackLang.Proofs.Document.RoundTrip
import StackLang.Unchecked.Run

/-! # Well-formed nodes in an unchecked run

The nodes of a program run unchecked as the program runs: what is on the stack and in the variables
are values, no operator is unknown, and the run ends in the same way. -/

namespace StackLang

open Unchecked (Part Stop Operand Bindings Action)

/-! ### Variables -/

/-- Gives a name a value where it stands, or at the end. -/
def assign (name : Text) (v : Value) : List (Text × Value) → List (Text × Value)
  | [] => [(name, v)]
  | (key, old) :: rest => if key = name then (key, v) :: rest else (key, old) :: assign name v rest

theorem lookup_cons_eq_ite (e : Text × Value) (entries : List (Text × Value)) (x : Text) :
    (e :: entries).lookup x = if x = e.1 then some e.2 else entries.lookup x := by
  obtain ⟨key, v⟩ := e
  by_cases hx : x = key
  · simp [hx]
  · rw [List.lookup_cons, beq_false_of_ne hx, if_neg hx]

theorem lookup_assign (name : Text) (v : Value) (entries : List (Text × Value)) (x : Text) :
    (assign name v entries).lookup x = if x = name then some v else entries.lookup x := by
  fun_induction assign name v entries with
  | case1 => rw [lookup_cons_eq_ite]
  | case2 old rest =>
    simp only [lookup_cons_eq_ite]
    split <;> rfl
  | case3 key old rest hne ih =>
    simp only [lookup_cons_eq_ite, ih]
    by_cases hx : x = key
    · simp [hx, hne]
    · simp [hx]

theorem mem_keys_assign {name : Text} {v : Value} {entries : List (Text × Value)} {x : Text}
    (h : x ∈ (assign name v entries).map Prod.fst) : x = name ∨ x ∈ entries.map Prod.fst := by
  fun_induction assign name v entries with
  | case1 => exact .inl (by simpa using h)
  | case2 old rest => exact .inr h
  | case3 key old rest hne ih =>
    rcases List.mem_cons.mp h with rfl | h
    · exact .inr List.mem_cons_self
    · exact (ih h).imp_right (List.mem_cons_of_mem _)

theorem nodup_keys_assign {name : Text} {v : Value} {entries : List (Text × Value)}
    (h : (entries.map Prod.fst).Nodup) : ((assign name v entries).map Prod.fst).Nodup := by
  fun_induction assign name v entries with
  | case1 => simp
  | case2 old rest => exact h
  | case3 key old rest hne ih =>
    obtain ⟨hkey, hrest⟩ := List.nodup_cons.mp h
    refine List.nodup_cons.mpr ⟨fun hmem => ?_, ih hrest⟩
    exact (mem_keys_assign hmem).elim hne hkey

theorem lookup_eraseP {entries : List (Text × Value)} (h : (entries.map Prod.fst).Nodup)
    (name x : Text) :
    (entries.eraseP (·.1 == name)).lookup x = if x = name then none else entries.lookup x := by
  induction entries with
  | nil => simp
  | cons e entries ih =>
    obtain ⟨hkey, hrest⟩ := List.nodup_cons.mp h
    by_cases he : e.1 = name
    · rw [List.eraseP_cons_of_pos (by simpa using he), lookup_cons_eq_ite, he]
      by_cases hx : x = name
      · have hnone : entries.lookup x = none := by
          refine List.lookup_eq_none_iff.mpr fun p hp => ?_
          refine bne_iff_ne.mpr fun hpx => hkey ?_
          rw [he, ← hx, hpx]
          exact List.mem_map_of_mem hp
        rw [if_pos hx, hnone]
      · rw [if_neg hx, if_neg hx]
    · rw [List.eraseP_cons_of_neg (by simpa using he), lookup_cons_eq_ite, lookup_cons_eq_ite,
        ih hrest]
      by_cases hx : x = e.1
      · simp [hx, he]
      · simp [hx]

namespace Unchecked.Bindings

def ofEntries (entries : List (Text × Value)) : Bindings :=
  entries.map fun e => (.text e.1, .value e.2)

theorem get?_ofEntries (entries : List (Text × Value)) (name : Text) :
    (ofEntries entries).get? (.text name) = (entries.lookup name).map .value := by
  induction entries with
  | nil => rfl
  | cons e entries ih =>
    rw [lookup_cons_eq_ite]
    simp only [get?, ofEntries, List.map_cons, List.find?_cons, Part.same] at ih ⊢
    by_cases hname : name = e.1
    · simp [hname]
    · simp [hname, beq_false_of_ne (Ne.symm hname), ← ih]

theorem set_ofEntries (entries : List (Text × Value)) (name : Text) (v : Value) :
    (ofEntries entries).set (.text name) (.value v) = ofEntries (assign name v entries) := by
  fun_induction assign name v entries with
  | case1 => rfl
  | case2 old rest => simp [ofEntries, set, Part.same]
  | case3 key old rest hne ih =>
    simp only [ofEntries, List.map_cons] at ih ⊢
    simp [set, Part.same, hne, ih]

theorem erase_ofEntries (entries : List (Text × Value)) (name : Text) :
    (ofEntries entries).erase (.text name) = ofEntries (entries.eraseP (·.1 == name)) := by
  rw [erase, ofEntries, ofEntries, List.eraseP_map]
  simp only [Function.comp_def, Part.same]

/-- The names are texts, each one once, and the values are those of the variables. -/
def Hold (b : Bindings) (l : Locals) : Prop :=
  ∃ entries, b = ofEntries entries ∧ (entries.map Prod.fst).Nodup ∧
    ∀ name, entries.lookup name = l.get? name

variable {b : Bindings} {l : Locals}

theorem hold_empty : Hold [] .empty := ⟨[], rfl, List.nodup_nil, fun _ => rfl⟩

theorem Hold.get? (h : b.Hold l) (name : Text) :
    b.get? (.text name) = (l.get? name).map .value := by
  obtain ⟨entries, rfl, -, hget⟩ := h
  rw [get?_ofEntries, hget]

theorem Hold.set (h : b.Hold l) (name : Text) (v : Value) :
    (b.set (.text name) (.value v)).Hold (l.set name v) := by
  obtain ⟨entries, rfl, hdistinct, hget⟩ := h
  refine ⟨assign name v entries, set_ofEntries entries name v, nodup_keys_assign hdistinct, ?_⟩
  intro x
  rw [lookup_assign, Locals.get?_set, hget]

theorem Hold.erase (h : b.Hold l) (name : Text) : (b.erase (.text name)).Hold (l.erase name) := by
  obtain ⟨entries, rfl, hdistinct, hget⟩ := h
  refine ⟨_, erase_ofEntries entries name, ?_, fun x => ?_⟩
  · exact hdistinct.sublist ((List.eraseP_sublist).map _)
  · rw [lookup_eraseP hdistinct, Locals.get?_erase, hget]

end Unchecked.Bindings

/-! ### States and ends -/

/-- An unchecked state that holds what a machine holds, and nothing but values. -/
structure Machine.Mirrors (m : Machine) (s : Unchecked.State) : Prop where
  stack : s.stack = m.stack.map .value
  locals : s.locals.Hold m.locals
  input : s.input = m.input
  printed : s.printed = m.printed
  sink : s.sink = m.sink

theorem mirrors_startOn (sink : Sink) (input : List Text) :
    (Machine.startOn sink input).Mirrors (.startOn sink input) :=
  ⟨rfl, Bindings.hold_empty, rfl, rfl, rfl⟩

namespace Failure

/-- A failure as an unchecked run stops with it. -/
def stop : Failure → Stop
  | .fault f line => .fault (.known f) (line.elim .null .integer)
  | .digitLimit => .digitLimit
  | .unencodable e => .unencodable e
  | .unsupported u => .misuse (.unsupported u)

end Failure

/-- Both runs end in the same way, in states that hold the same. -/
inductive Agrees : Outcome Machine → EStateM.Result Stop Unchecked.State Unit → Prop where
  | ok {m s} : m.Mirrors s → Agrees (.ok m) (.ok () s)
  | failed {m s} {f : Failure} : m.Mirrors s → Agrees (.failed f m) (.error f.stop s)

/-- The action does to an unchecked state what is done to the machine. -/
def Simulates (act : Machine → Outcome Machine) (x : Action Unit) : Prop :=
  ∀ m s, m.Mirrors s → Agrees (act m) (x.run s)

variable {act next : Machine → Outcome Machine} {x y : Action Unit}

theorem Simulates.andThen (hx : Simulates act x) (hy : Simulates next y) :
    Simulates (fun m => (act m).andThen next) (x >>= fun _ => y) := by
  intro m s h
  have hfirst := hx m s h
  simp only [EStateM.run_bind]
  generalize act m = o at hfirst ⊢
  generalize x.run s = r at hfirst ⊢
  cases hfirst with
  | ok hm => exact hy _ _ hm
  | failed hm => exact .failed hm

theorem Machine.Mirrors.withStack {m : Machine} {s : Unchecked.State} (h : m.Mirrors s)
    (stack : List Value) :
    (m.withStack stack).Mirrors { s with stack := stack.map .value } :=
  ⟨rfl, h.locals, h.input, h.printed, h.sink⟩

/-! ### Operators -/

namespace Unchecked.Operand

theorem arithmetic_name (op : ArithOp) (a b : Value) :
    arithmetic (.ofString op.name) (.value a) (.value b) =
      ((op.apply a b).map .value).mapError .known := by
  simp [arithmetic, ArithOp.applyNamed]

theorem onNumbers_value (op : LogicOp) (a b : Value) :
    onNumbers op (.value a) (.value b) = ((op.onNumbers a b).map .value).mapError .known := by
  simp only [onNumbers, number, LogicOp.onNumbers]
  cases LogicOp.operand a with
  | error e => rfl
  | ok x =>
    cases LogicOp.operand b with
    | error e => rfl
    | ok y =>
      simp only [Except.mapError, bind, Except.bind]
      cases op.onDoubles? x y <;> rfl

theorem onTruths?_boolean (op : LogicOp) (p q : Bool) :
    onTruths? op (.boolean p) (.boolean q) = (op.onBooleans? p q).map fun r => .value (.boolean r) := by
  cases op <;> cases p <;> cases q <;> rfl

theorem compare_name (op : LogicOp) (a b : Value) :
    compare (.ofString op.name) (.value a) (.value b) =
      ((op.apply a b).map .value).mapError .known := by
  have hnumbers := onNumbers_value op a b
  simp only [compare, Text.string?_ofString, Option.bind_some, LogicOp.ofName?_name]
  cases a with
  | boolean p =>
    cases b with
    | boolean q =>
      simp only [truth?, onTruths?_boolean, LogicOp.apply]
      cases op.onBooleans? p q with
      | some r => rfl
      | none => exact hnumbers
    | float | integer | text => exact hnumbers
  | float | integer | text => exact hnumbers

theorem negate_value (v : Value) :
    negate (.value v) = (v.negate.map .value).mapError Failure.stop := by
  cases v with
  | boolean b => rfl
  | float x => rfl
  | text t => rfl
  | integer n =>
    simp only [negate, Value.negate]
    cases (Value.integer n).text? <;> rfl

end Unchecked.Operand

/-! ### The stack -/

section

variable {m : Machine} {s : Unchecked.State}

theorem Machine.Mirrors.pop_nil (h : m.Mirrors s) (hstack : m.stack = []) :
    Action.pop.run s = .error (.ofFault .emptyPop) s := by
  have hs : s.stack = [] := by rw [h.stack, hstack, List.map_nil]
  simp only [Action.pop, EStateM.run_bind, EStateM.run_get, hs]
  rfl

theorem Machine.Mirrors.pop_cons (h : m.Mirrors s) {v : Value} {rest : List Value}
    (hstack : m.stack = v :: rest) :
    Action.pop.run s = .ok (.value v) { s with stack := rest.map .value } := by
  have hs : s.stack = .value v :: rest.map .value := by rw [h.stack, hstack, List.map_cons]
  simp only [Action.pop, EStateM.run_bind, EStateM.run_get, hs, EStateM.run_modify,
    EStateM.run_pure]

end

theorem simulates_push (v : Value) :
    Simulates (fun m => .ok (m.push v)) (Action.push (.value v)) := by
  intro m s h
  have hstack : (.value v :: s.stack) = (v :: m.stack).map Operand.value := by
    rw [h.stack, List.map_cons]
  rw [Action.push, EStateM.run_modify, hstack]
  exact .ok (h.withStack _)

theorem simulates_popThen {next : Value → Machine → Outcome Machine} {k : Operand → Action Unit}
    (hnext : ∀ v, Simulates (next v) (k (.value v))) :
    Simulates (fun m => m.popThen next) (Action.pop >>= k) := by
  intro m s h
  rw [EStateM.run_bind]
  cases hstack : m.stack with
  | nil =>
    simp only [h.pop_nil hstack, Machine.popThen, Machine.pop, hstack]
    exact .failed h
  | cons v rest =>
    simp only [h.pop_cons hstack, Machine.popThen, Machine.pop, hstack]
    exact hnext v _ _ (h.withStack rest)

/-- What an operator or a conversion gives, on the stack. -/
def Machine.pushResult (r : Except Failure Value) (m : Machine) : Outcome Machine :=
  match r with
  | .ok v => .ok (m.push v)
  | .error f => .failed f m

theorem simulates_pushResult {r : Except Failure Value} {q : Except Stop Operand}
    (hq : q = (r.map .value).mapError Failure.stop) :
    Simulates (Machine.pushResult r) (Action.ofExcept q >>= Action.push) := by
  subst hq
  intro m s h
  cases r with
  | ok v => exact simulates_push v m s h
  | error f => exact .failed h

/-! ### Expressions -/

namespace Machine

def combine (apply : Value → Value → Except Fault Value) (m : Machine) : Outcome Machine :=
  m.popThen fun a m => m.popThen fun b m =>
    m.pushResult ((apply a b).mapError (Failure.fault · none))

def negate (m : Machine) : Outcome Machine := m.popThen fun v m => m.pushResult v.negate

theorem map_combineTop (apply : Value → Value → Except Fault Value) (m : Machine) :
    (combineTop apply m.stack).map m.withStack = m.combine apply := by
  obtain ⟨stack, _⟩ := m
  rcases stack with - | ⟨a, - | ⟨b, rest⟩⟩
  · rfl
  · rfl
  · simp only [combine, popThen, pop, combineTop, withStack]
    cases apply a b <;> rfl

theorem map_negateTop (m : Machine) : (negateTop m.stack).map m.withStack = m.negate := by
  obtain ⟨stack, _⟩ := m
  cases stack with
  | nil => rfl
  | cons v rest =>
    simp only [negate, popThen, pop, negateTop]
    cases v.negate <;> rfl

theorem map_andThen (m : Machine) (o : Outcome (List Value))
    (next : List Value → Outcome (List Value)) :
    (o.andThen next).map m.withStack =
      (o.map m.withStack).andThen fun m => (next m.stack).map m.withStack := by
  cases o <;> rfl

theorem eval_binary (m : Machine) (left right : Expr) (apply : Value → Value → Except Fault Value) :
    (((right.push m.locals m.stack).andThen (left.push m.locals)).andThen
        (combineTop apply)).map m.withStack =
      ((m.eval right).andThen (eval · left)).andThen (combine apply) := by
  have hcombine : (fun m : Machine => (combineTop apply m.stack).map m.withStack) = combine apply :=
    funext (map_combineTop apply)
  rw [map_andThen, map_andThen, hcombine, eval]
  cases right.push m.locals m.stack <;> rfl

theorem eval_not (m : Machine) (e : Expr) (line : Int) :
    m.eval (.not e line) = (m.eval e).andThen negate := by
  have hnegate : (fun m : Machine => (negateTop m.stack).map m.withStack) = negate :=
    funext map_negateTop
  rw [eval, Expr.push, map_andThen, hnegate, eval]

end Machine

theorem simulates_combine {apply : Value → Value → Except Fault Value}
    {loose : Operand → Operand → Except Unchecked.LooseFault Operand}
    (happly : ∀ a b, loose (.value a) (.value b) =
      ((apply a b).map .value).mapError .known) :
    Simulates (Machine.combine apply) (Action.combine loose) := by
  refine simulates_popThen fun a => simulates_popThen fun b => simulates_pushResult ?_
  rw [happly]
  cases apply a b <;> rfl

theorem simulates_lookUp (name : Text) :
    Simulates (Machine.loadLocal name) (Action.lookUp (.text name) >>= Action.push) := by
  intro m s h
  have hget := h.locals.get? name
  simp only [Action.lookUp, Action.requireName, Part.unhashable?, pure_bind, bind_assoc,
    EStateM.run_bind, EStateM.run_get, hget, Machine.loadLocal, Machine.getLocal]
  cases m.locals.get? name with
  | none => exact .failed h
  | some v => exact simulates_push v m s h

/-- The operands of a binary node, the right one first, and their combination. -/
theorem simulates_binary {left right : Expr} (hl : Simulates (Machine.eval · left) left.part.eval)
    (hr : Simulates (Machine.eval · right) right.part.eval)
    {apply : Value → Value → Except Fault Value}
    {loose : Operand → Operand → Except Unchecked.LooseFault Operand}
    (happly : ∀ a b, loose (.value a) (.value b) = ((apply a b).map .value).mapError .known) :
    Simulates
      (fun m => (((right.push m.locals m.stack).andThen (left.push m.locals)).andThen
        (combineTop apply)).map m.withStack)
      (do right.part.eval; left.part.eval; Action.combine loose) := by
  have hall := (hr.andThen hl).andThen (simulates_combine happly)
  rw [bind_assoc] at hall
  simpa only [Machine.eval_binary] using hall

theorem simulates_eval (e : Expr) : Simulates (Machine.eval · e) e.part.eval := by
  induction e with
  | number x line => exact simulates_push (.float x)
  | text t line => exact simulates_push (.text t)
  | boolean b line => exact simulates_push (.boolean b)
  | var name line =>
    have heval : (Machine.eval · (.var name line)) = Machine.loadLocal name := by
      funext m
      simp only [Machine.eval, Expr.push, Machine.loadLocal, Machine.getLocal]
      cases m.locals.get? name <;> rfl
    rw [heval]
    exact simulates_lookUp name
  | arith op left right line ihl ihr =>
    exact simulates_binary ihl ihr (Operand.arithmetic_name op)
  | logic op left right line ihl ihr =>
    have hname : ¬ (Part.text (.ofString op.name)).plain = "not" := by
      cases op <;> decide
    rw [Expr.part, Part.eval, if_neg hname]
    exact simulates_binary ihl ihr (Operand.compare_name op)
  | not e line ih =>
    have hnegate : Simulates Machine.negate
        (do Action.push (← Action.ofExcept (← Action.pop).negate)) :=
      simulates_popThen fun v => simulates_pushResult (Operand.negate_value v)
    have heval : (Machine.eval · (.not e line)) = fun m => (m.eval e).andThen Machine.negate :=
      funext fun m => m.eval_not e line
    rw [heval, Expr.part, Part.eval, if_pos (by decide)]
    exact ih.andThen hnegate

end StackLang
