import StackLang.Proofs.Machine.Story

/-! # Messages of a run

The text of a message shows what it is about: of a run that has begun, of its statements, or of its
end. So the messages say how the run has ended, and what each statement has done. -/

namespace StackLang

namespace Event

/-- How the text of an event begins. -/
def opening : Event → String
  | started _ => "run: "
  | entered .. => "line "
  | stored .. => "stloc "
  | removed .. => "rmloc "
  | stack _ => "  stack="
  | failed _ => "error: "
  | finished _ => "run finished, stack="

def openings : List String :=
  ["run: ", "line ", "stloc ", "rmloc ", "  stack=", "error: ", "run finished, stack="]

theorem opening_mem (e : Event) : e.opening ∈ openings := by
  cases e <;> simp [opening, openings]

/-- No kind of event begins like another. -/
theorem openings_apart : ∀ a ∈ openings, ∀ b ∈ openings,
    (a : Text).codes <+: (b : Text).codes → a = b := by
  decide

theorem prefix_codes (s : String) (t : Text) : (s : Text).codes <+: ((s : Text) ++ t).codes :=
  List.prefix_append _ _

theorem opening_begins {e : Event} {t : Text} (h : e.text? = some t) :
    (e.opening : Text).codes <+: t.codes := by
  have hmore : ∀ (s : String) (a b : Text), (s : Text).codes <+: ((s : Text) ++ a ++ b).codes :=
    fun s a b => (prefix_codes s a).trans (List.prefix_append _ _)
  cases e with
  | started n =>
    cases h
    exact hmore "run: " _ _
  | entered line typeName =>
    cases line with
    | none =>
      cases h
      exact (show ("line " : Text).codes <+: ("line ?: " : Text).codes by decide).trans
        (prefix_codes _ _)
    | some line =>
      simp only [text?, Option.map_eq_some_iff] at h
      obtain ⟨u, -, rfl⟩ := h
      exact (hmore "line " u ": ").trans (List.prefix_append _ _)
  | stored name v =>
    obtain ⟨u, -, rfl⟩ := Option.map_eq_some_iff.mp h
    exact (hmore "stloc " name " = ").trans (List.prefix_append _ _)
  | removed name old =>
    obtain ⟨u, -, rfl⟩ := Option.map_eq_some_iff.mp h
    exact ((hmore "rmloc " name " (was ").trans (List.prefix_append _ _)).trans
      (List.prefix_append _ _)
  | stack values | failed d | finished values =>
    obtain ⟨u, -, rfl⟩ := Option.map_eq_some_iff.mp h
    exact prefix_codes _ u

/-- The text of an event shows of what kind it is. -/
theorem opening_eq_of_begins {e : Event} {t : Text} (h : e.text? = some t) {s : String}
    (hs : s ∈ openings) (hbegins : (s : Text).codes <+: t.codes) : e.opening = s := by
  rcases List.prefix_or_prefix_of_prefix (opening_begins h) hbegins with hle | hle
  · exact openings_apart _ e.opening_mem _ hs hle
  · exact (openings_apart _ hs _ e.opening_mem hle).symm

end Event

/-- The messages that have been written, the oldest first. -/
def Machine.messages (m : Machine) : List Text := m.events.reverse.filterMap Event.text?

theorem map_some_filterMap {α β : Type} {f : α → Option β} {xs : List α}
    (h : ∀ x ∈ xs, ∃ y, f x = some y) : (xs.filterMap f).map some = xs.map f := by
  induction xs with
  | nil => rfl
  | cons x xs ih =>
    obtain ⟨⟨y, hy⟩, hrest⟩ := List.forall_mem_cons.mp h
    rw [List.filterMap_cons_some hy, List.map_cons, List.map_cons, ih hrest, hy]

namespace Outcome.Tells

variable {o : Outcome Machine} {plan told : List Event}

theorem getLast?_messages (hmessages : o.state.messages.map some = told.map Event.text?)
    (t : Text) :
    o.state.messages.getLast? = some t ↔ ∃ e, told.getLast? = some e ∧ e.text? = some t := by
  have hlast : o.state.messages.getLast?.map some = told.getLast?.map Event.text? := by
    rw [← List.getLast?_map, ← List.getLast?_map, hmessages]
  constructor
  · intro ht
    rw [ht] at hlast
    exact Option.map_eq_some_iff.mp hlast.symm
  · rintro ⟨e, he, ht⟩
    rw [he, Option.map_some, ht, Option.map_eq_some_iff] at hlast
    obtain ⟨t', ht', heq⟩ := hlast
    rw [ht', Option.some.inj heq]

variable (h : o.Tells plan told) (hmessages : o.state.messages.map some = told.map Event.text?)
include h hmessages

theorem head?_messages {n : Nat} {rest : List Event} (hplan : plan = .started n :: rest) :
    o.state.messages.head? = (Event.started n).text? := by
  subst hplan
  have hfirst := congrArg List.head? hmessages
  rw [List.head?_map, List.head?_map, h.head?_started] at hfirst
  obtain ⟨t, ht, heq⟩ := Option.map_eq_some_iff.mp hfirst
  exact ht.trans heq

/-- The end that a run has come to is told in its last message. -/
theorem message_of_ending {e : Event} (he : o.ending = [e]) :
    ∃ t, e.text? = some t ∧ o.state.messages.getLast? = some t := by
  have hlast : told.getLast? = some e := ((h.last_iff e).mpr he).1
  obtain ⟨t, ht⟩ := h.text e (List.mem_of_getLast? hlast)
  exact ⟨t, ht, (getLast?_messages hmessages t).mpr ⟨e, hlast, ht⟩⟩

/-- A last message that begins like that of an end tells the end. -/
theorem ending_of_message {s : String} {u : Text} (hs : s ∈ Event.openings)
    (hrole : ∀ e : Event, e.opening = s → e.role = .ending)
    (hlast : o.state.messages.getLast? = some (s ++ u)) : ∃ e, o.ending = [e] ∧ e.opening = s := by
  obtain ⟨e, he, ht⟩ := (getLast?_messages hmessages _).mp hlast
  have hopening : e.opening = s := Event.opening_eq_of_begins ht hs (Event.prefix_codes s u)
  exact ⟨e, (h.last_iff e).mp ⟨he, hrole e hopening⟩, hopening⟩

theorem finished_iff : o.failure? = none ↔ ∃ t : Text, describeStack? o.state.stack = some t ∧
    o.state.messages.getLast? = some ("run finished, stack=" ++ t) := by
  constructor
  · intro hok
    rcases o with m | ⟨f, m⟩
    · obtain ⟨t, ht, hlast⟩ := h.message_of_ending hmessages rfl
      obtain ⟨u, hu, rfl⟩ := Option.map_eq_some_iff.mp ht
      exact ⟨u, hu, hlast⟩
    · cases hok
  · rintro ⟨u, -, hlast⟩
    obtain ⟨e, he, hopening⟩ := h.ending_of_message hmessages (s := "run finished, stack=")
      (by decide) (fun e => by cases e <;> simp [Event.opening, Event.role]) hlast
    rcases o with m | ⟨f, m⟩
    · rfl
    · cases f with
      | fault g line =>
        cases he
        simp [Event.opening] at hopening
      | digitLimit | unencodable | unsupported => cases he

theorem error_of_fault {f : Fault} {line : Option Int} (hf : o.failure? = some (.fault f line)) :
    ∃ t : Text, (f.diagnostic line).text? = some t ∧
      o.state.messages.getLast? = some ("error: " ++ t) := by
  rcases o with m | ⟨g, m⟩
  · cases hf
  · cases hf
    obtain ⟨t, ht, hlast⟩ := h.message_of_ending hmessages rfl
    obtain ⟨u, hu, rfl⟩ := Option.map_eq_some_iff.mp ht
    exact ⟨u, hu, hlast⟩

theorem fault_of_error {u : Text} (hlast : o.state.messages.getLast? = some ("error: " ++ u)) :
    ∃ f line, o.failure? = some (.fault f line) := by
  obtain ⟨e, he, hopening⟩ := h.ending_of_message hmessages (s := "error: ") (by decide)
    (fun e => by cases e <;> simp [Event.opening, Event.role]) hlast
  rcases o with m | ⟨f, m⟩
  · cases he
    simp [Event.opening] at hopening
  · cases f with
    | fault g line => exact ⟨g, line, rfl⟩
    | digitLimit | unencodable | unsupported => cases he

end Outcome.Tells

/-- The messages of a run are those that its story asks for. The first one counts the statements;
the last one shows the final stack after success, and the error after a fault, and only then. The
others tell of each statement that is executed, of the variables and of the stack that it has left.
Only half of a surrogate pair, which no trace file takes, cuts them short. -/
theorem trace_tells_story (p : Program) (stack : List Value) (locals : Locals)
    (input : List Text) (sink : Sink) {detail : Nat} (hdetail : 1 ≤ detail) :
    let start : Machine := { Machine.startOn sink input with stack, locals }
    let r := p.run detail start
    let messages := r.state.messages
    let full := Event.shown detail (p.story start)
    r.failure? ≠ some .digitLimit →
    messages.head? = some (("run: " : Text) ++ toString p.body.length ++ " statements") ∧
    (r.failure? = none ↔ ∃ t : Text, describeStack? r.state.stack = some t ∧
      messages.getLast? = some ("run finished, stack=" ++ t)) ∧
    ((∃ f line, r.failure? = some (.fault f line)) ↔
      ∃ t : Text, messages.getLast? = some ("error: " ++ t)) ∧
    (∀ f line, r.failure? = some (.fault f line) → ∃ t : Text,
      (f.diagnostic line).text? = some t ∧ messages.getLast? = some ("error: " ++ t)) ∧
    (∃ told, messages.map some = told.map Event.text? ∧
      (told = full ∨ ∃ e t problem, told ++ [e] <+: full ∧ e.text? = some t ∧
        t.encodable = .error problem ∧ r.failure? = some (.unencodable problem) ∧
        ¬ (start.HoldsStrings ∧ ∀ s ∈ p.body, s.Meets .spelled))) ∧
    ∃ k before, p.Completes start k before ∧
      (2 ≤ detail →
        Event.ofRole .entry full =
          (p.body.take (k + 1)).map (fun s => .entered (some s.line) s.typeName) ∧
        Event.ofRole .change full =
          (List.range k).filterMap fun i => p.body[i]?.bind (·.change? (start.reached p.body i))) ∧
      (∀ i < k, ∀ name line, p.body[i]? = some (.store name line) → ∃ v,
        (start.reached p.body i).stack = v :: (start.reached p.body (i + 1)).stack ∧
          (start.reached p.body (i + 1)).locals.get? name = some v) ∧
      (3 ≤ detail → Event.ofRole .stack full =
        (List.range k).map fun i => .stack (start.reached p.body (i + 1)).stack) := by
  intro start r messages full hlong
  rcases p.adds_run hdetail start with h | ⟨told, htells, hevents⟩
  · exact absurd h hlong
  have htold : r.state.events.reverse = told := by
    rw [hevents, List.reverse_append, List.reverse_reverse]
    rfl
  have htexts : messages.map some = told.map Event.text? := by
    have h := map_some_filterMap htells.text
    rwa [← htold] at h ⊢
  obtain ⟨k, before, hcompletes⟩ := p.exists_completes start
  have hfull : full = .started p.body.length :: Event.shown detail (start.story p.body) :=
    List.filter_cons_of_pos (by simp [Event.level, hdetail])
  refine ⟨htells.head?_messages htexts hfull, htells.finished_iff htexts, ⟨?_, ?_⟩,
    fun f line => htells.error_of_fault htexts, ⟨told, htexts, ?_⟩, k, before, hcompletes,
    fun htwo => ⟨?_, ?_⟩, ?_, fun hthree => ?_⟩
  · rintro ⟨f, line, hf⟩
    obtain ⟨t, -, hlast⟩ := htells.error_of_fault htexts hf
    exact ⟨t, hlast⟩
  · rintro ⟨t, hlast⟩
    exact htells.fault_of_error htexts hlast
  · rcases htells.eq_or_cut with hall | ⟨e, t, problem, hbegins, ht, hproblem, hf⟩
    · exact .inl hall
    · have hhalf := Program.not_strings_of_unencodable hf
      exact .inr ⟨e, t, problem, hbegins, ht, hproblem, hf, hhalf⟩
  · rw [Event.ofRole_shown (by decide) htwo]
    exact Machine.entries_story hcompletes
  · rw [Event.ofRole_shown (by decide) htwo]
    exact Machine.changes_story hcompletes
  · intro i hi name line hs
    have hexec := Machine.exec_reached hcompletes hi hs
    generalize start.reached p.body (i + 1) = after at hexec ⊢
    cases Machine.exec_ok_iff.mp hexec with
    | store hstack => exact ⟨_, hstack, by simp [Machine.setLocal, Locals.get?_set]⟩
  · rw [Event.ofRole_shown (by decide) hthree]
    exact Machine.stacks_story hcompletes

/-- The store is told, and the load that fails behind it. -/
theorem trace_tells_story_unbound :
    let p : Program := ⟨[.push (.boolean true 1) 1, .store "x" 2, .load "y" 3]⟩
    let start := Machine.start []
    let r := p.run 3 start
    1 ≤ 3 ∧ r.failure? ≠ some .digitLimit ∧
      ∃ t : Text, ((Fault.unbound "y").diagnostic (some 3)).text? = some t ∧
        r.state.messages.getLast? = some ("error: " ++ t) := by
  intro p start r
  have hfailure : r.failure? = some (.fault (.unbound "y") (some 3)) := by decide +kernel
  have hlong : r.failure? ≠ some .digitLimit := by simp [hfailure]
  obtain ⟨-, -, -, herror, -⟩ :=
    trace_tells_story p [] .empty [] .memory (by decide : 1 ≤ 3) hlong
  exact ⟨by decide, hlong, herror _ _ hfailure⟩

/-- The push is completed, but its stack is not told: half of a surrogate pair is on it. -/
theorem completed_push_not_told :
    let p : Program := ⟨[.push (.text ⟨[.half 0]⟩ 1) 1]⟩
    let start := Machine.startOn .encoded []
    let r := p.run 3 start
    ¬ (r.failure? ≠ some .digitLimit → ∀ k before, p.Completes start k before →
      Event.ofRole .stack r.state.events.reverse =
        (List.range k).map fun i => .stack (start.reached p.body (i + 1)).stack) := by
  intro p start r hclaim
  have hfailure : r.failure? = some (.unencodable ⟨16, 0, 1⟩) := by decide +kernel
  have hnone : Event.ofRole .stack r.state.events.reverse = [] := by decide +kernel
  have hexec : (Stmt.push (.text ⟨[.half 0]⟩ 1) 1).exec 0 start =
      .ok (start.push (.text ⟨[.half 0]⟩)) := Machine.exec_ok_iff.mpr (.push rfl)
  have hblock : start.runBlock 0 (p.body.take 1) = .ok (start.push (.text ⟨[.half 0]⟩)) :=
    Machine.runBlock_cons_ok_iff.mpr ⟨_, Machine.runItem_of_exec hexec, rfl⟩
  have hcompletes : p.Completes start 1 (start.push (.text ⟨[.half 0]⟩)) :=
    ⟨Nat.le_refl 1, hblock, by simp [p]⟩
  have hstack := hclaim (by simp [hfailure]) 1 _ hcompletes
  cases hnone.symm.trans hstack

end StackLang
