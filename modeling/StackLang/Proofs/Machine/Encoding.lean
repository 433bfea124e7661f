import StackLang.Proofs.Machine.Strings
import StackLang.Proofs.Machine.Telling

/-! # Traces that can be encoded

A trace file takes strings only. Where the names and the texts in a program are strings, a run tells
nothing else, at any level of detail. -/

namespace StackLang

/-! ### Values and faults as they are told -/

theorem Value.isString_shown? {v : Value} {t : Text} (h : v.shown? = some t) : t.IsString := by
  cases v with
  | text u =>
    cases h
    simp
  | float x =>
    cases h
    simp
  | boolean b =>
    cases h
    simp
  | integer n =>
    simp only [shown?, text?, Option.map_map, Option.map_eq_some_iff] at h
    obtain ⟨s, -, rfl⟩ := h
    simp

theorem Value.IsString.described? {v : Value} (hv : v.IsString) {t : Text}
    (h : v.described? = some t) : t.IsString := by
  obtain ⟨u, hu, rfl⟩ := Option.map_eq_some_iff.mp h
  have hu' : u.IsString := hv.text? hu
  simp [hu']

theorem exists_of_mem_mapM {α β : Type} {f : α → Option β} {xs : List α} {ys : List β}
    (h : xs.mapM f = some ys) : ∀ y ∈ ys, ∃ x ∈ xs, f x = some y := by
  induction xs generalizing ys with
  | nil =>
    cases h
    simp
  | cons x xs ih =>
    rw [List.mapM_cons] at h
    obtain ⟨y, hy, h⟩ := Option.bind_eq_some_iff.mp h
    obtain ⟨rest, hrest, h⟩ := Option.bind_eq_some_iff.mp h
    cases h
    refine List.forall_mem_cons.mpr ⟨⟨x, List.mem_cons_self, hy⟩, fun z hz => ?_⟩
    obtain ⟨w, hw, hz⟩ := ih hrest z hz
    exact ⟨w, List.mem_cons_of_mem _ hw, hz⟩

theorem isString_describeStack? {stack : List Value} (hstack : ∀ v ∈ stack, v.IsString) {t : Text}
    (h : describeStack? stack = some t) : t.IsString := by
  obtain ⟨items, hitems, rfl⟩ := Option.map_eq_some_iff.mp h
  have hall : ∀ u ∈ items, u.IsString := by
    intro u hu
    obtain ⟨v, hv, hd⟩ := exists_of_mem_mapM hitems u hu
    exact (hstack v (List.mem_reverse.mp hv)).described? hd
  simp [Text.isString_intercalate (Text.isString_ofString ", ") hall]

theorem ArithOp.isString_message {op : ArithOp} {a b : Value} {f : Fault}
    (h : op.apply a b = .error f) : f.message.IsString := by
  cases ArithOp.refuses_of_apply h <;> simp [Fault.message]

theorem LogicOp.isString_message {op : LogicOp} {a b : Value} {f : Fault}
    (h : op.apply a b = .error f) : f.message.IsString := by
  cases LogicOp.refuses_of_apply h <;> simp [Fault.message]

/-- A failure that is told as a string, or not told at all. -/
def Failure.IsSpelled : Failure → Prop
  | .fault f _ => f.message.IsString
  | .unencodable _ => False
  | .digitLimit | .unsupported _ => True

theorem Failure.isSpelled_atLine {f : Failure} {line : Option Int} :
    (f.atLine line).IsSpelled ↔ f.IsSpelled := by
  rcases f with ⟨g, - | old⟩ | - | e | u <;> rfl

theorem Value.isSpelled_of_negate {v : Value} {f : Failure} (h : v.negate = .error f) :
    f.IsSpelled := by
  rcases Value.negate_error h with ⟨t, rfl⟩ | ⟨-, rfl⟩
  · simp [Failure.IsSpelled, Fault.message]
  · trivial

/-! ### Names and texts of a program -/

/-- The names and the texts in a tree are strings. -/
def Demand.spelled : Demand where
  name t := t.IsString
  text t := t.IsString
  line _ := True

theorem Expr.Meets.strings {e : Expr} (h : e.Meets .spelled) : e.Meets .strings := by
  induction e with
  | number | boolean => trivial
  | text t line => exact h
  | var name line => exact ⟨trivial, trivial⟩
  | arith op left right line ihl ihr | logic op left right line ihl ihr =>
    exact ⟨ihl h.1, ihr h.2.1, trivial⟩
  | not e line ih => exact ⟨ih h.1, trivial⟩

theorem Stmt.Meets.strings {s : Stmt} (h : s.Meets .spelled) : s.Meets .strings := by
  cases s with
  | push e line => exact ⟨h.1.strings, trivial⟩
  | bare e => exact Expr.Meets.strings h
  | store | load | remove => exact ⟨trivial, trivial⟩
  | print | pop | dup | read | convert => trivial

theorem Expr.Reaches.meets {d : Demand} {locals : Locals} {e x : Expr} (h : e.Reaches locals x)
    (he : e.Meets d) : x.Meets d := by
  induction h with
  | self => exact he
  | arithRight _ ih | logicRight _ ih => exact ih he.2.1
  | arithLeft _ _ ih | logicLeft _ _ ih => exact ih he.1
  | operand _ ih => exact ih he.1

theorem Expr.isSpelled {locals : Locals} {e : Expr} (he : e.Meets .spelled) {f : Failure}
    (h : e.value locals = .error f) : f.IsSpelled := by
  obtain ⟨x, hx, hf⟩ := value_eq_error_iff.mp h
  cases hf with
  | unbound _ =>
    have hname : _ ∧ _ := hx.meets he
    simp [Failure.IsSpelled, Fault.message, show Text.IsString _ from hname.1]
  | arith _ _ hf => exact ArithOp.isString_message hf
  | logic _ _ hf => exact LogicOp.isString_message hf
  | not _ hf => exact Value.isSpelled_of_negate hf

/-- A statement finds no text that the sink refuses, and complains in strings. -/
theorem Stmt.Breaks.isSpelled {m : Machine} {s : Stmt} {f : Failure} (h : s.Breaks m f)
    (hs : s.Meets .spelled) (hm : m.HoldsStrings) : f.IsSpelled := by
  cases h with
  | push he => exact Expr.isSpelled hs.1 he
  | bare he => exact Expr.isSpelled hs he
  | printRefused hstack ht he =>
    obtain ⟨u, rfl⟩ := (hm.top hstack).1.text? ht
    simp at he
  | load _ => simp [Failure.IsSpelled, Fault.message, show Text.IsString _ from hs.1]
  | printLong _ _ => trivial
  | printEmpty _ | popEmpty _ | dupEmpty _ | readNothing _ | convertEmpty _ | convert _ _
  | storeEmpty _ => simp [Failure.IsSpelled, Fault.message]

/-! ### Events -/

/-- An event that tells nothing but strings. -/
def Event.HoldsStrings : Event → Prop
  | started _ | entered .. => True
  | stored name _ | removed name _ => name.IsString
  | stack values | finished values => ∀ v ∈ values, v.IsString
  | failed d => d.message.IsString

theorem Diagnostic.isString_text? {d : Diagnostic} (hd : d.message.IsString) {t : Text}
    (h : d.text? = some t) : t.IsString := by
  obtain ⟨family, name, message, line⟩ := d
  have hmessage : message.IsString := hd
  have hbody : ∃ suffix : String, t =
      (if name = family then name ++ ": " ++ message ++ suffix
        else family ++ ": " ++ (name ++ ": " ++ message ++ suffix) : Text) := by
    cases line with
    | none => exact ⟨"", (Option.some.inj h).symm⟩
    | some line =>
      simp only [Diagnostic.text?] at h
      generalize Integer.text? line = shown at h
      cases shown with
      | none => cases h
      | some s => exact ⟨_, (Option.some.inj h).symm⟩
  obtain ⟨suffix, rfl⟩ := hbody
  split <;> simp [hmessage]

theorem Event.HoldsStrings.text? {e : Event} (he : e.HoldsStrings) {t : Text}
    (h : e.text? = some t) : t.IsString := by
  cases e with
  | started n =>
    cases h
    simp
  | entered line typeName =>
    cases line with
    | none =>
      cases h
      simp
    | some line =>
      simp only [Event.text?] at h
      generalize Integer.text? line = shown at h
      cases shown with
      | none => cases h
      | some s =>
        cases h
        simp
  | stored name v =>
    obtain ⟨s, hs, rfl⟩ := Option.map_eq_some_iff.mp h
    simp [show name.IsString from he, Value.isString_shown? hs]
  | removed name old =>
    obtain ⟨s, hs, rfl⟩ := Option.map_eq_some_iff.mp h
    have hshown : s.IsString := by
      cases old with
      | none =>
        cases hs
        simp
      | some v => exact Value.isString_shown? hs
    simp [show name.IsString from he, hshown]
  | stack values | finished values =>
    obtain ⟨s, hs, rfl⟩ := Option.map_eq_some_iff.mp h
    simp [isString_describeStack? he hs]
  | failed d =>
    obtain ⟨s, hs, rfl⟩ := Option.map_eq_some_iff.mp h
    simp [Diagnostic.isString_text? he hs]

/-! ### Runs -/

/-- A step that leaves strings, or fails over no text. -/
inductive Outcome.IsSpelled : Outcome Machine → Prop where
  | ok {m : Machine} : m.HoldsStrings → IsSpelled (.ok m)
  | failed {f : Failure} {m : Machine} : f.IsSpelled → IsSpelled (.failed f m)

theorem Outcome.IsSpelled.andThen {o : Outcome Machine} {next : Machine → Outcome Machine}
    (h : o.IsSpelled) (hnext : ∀ m, m.HoldsStrings → (next m).IsSpelled) :
    (o.andThen next).IsSpelled := by
  cases h with
  | ok hm => exact hnext _ hm
  | failed hf => exact .failed hf

namespace Machine

variable {m : Machine} (detail : Nat)

theorem isSpelled_of_tell_failed {e : Event} (he : e.HoldsStrings) {f : Failure} {m' : Machine}
    (h : m.tell detail e = .failed f m') : f.IsSpelled := by
  unfold tell at h
  split at h
  · split at h
    · cases h
      trivial
    · rename_i t ht
      obtain ⟨s, rfl⟩ := he.text? ht
      rw [Text.encodable_ofString] at h
      cases h
  · cases h

theorem isSpelled_report {f : Failure} (hf : f.IsSpelled) : (m.report detail f).IsSpelled := by
  cases f with
  | fault g line =>
    have he : (Event.failed (g.diagnostic line)).HoldsStrings := hf
    simp only [report]
    cases (g.diagnostic line).text? with
    | none => exact .failed (f := .digitLimit) trivial
    | some t =>
      simp only
      cases htell : m.tell detail (.failed (g.diagnostic line)) with
      | ok m' => exact .failed hf
      | failed g' m' => exact .failed (isSpelled_of_tell_failed detail he htell)
  | digitLimit | unencodable e | unsupported u => exact .failed hf

variable (hm : m.HoldsStrings)
include hm

theorem isSpelled_tell {e : Event} (he : e.HoldsStrings) : (m.tell detail e).IsSpelled := by
  cases htell : m.tell detail e with
  | failed f m' => exact .failed (isSpelled_of_tell_failed detail he htell)
  | ok m' =>
    unfold tell at htell
    split at htell
    · split at htell
      · cases htell
      · split at htell <;> cases htell
        exact .ok ⟨hm.stack, hm.locals, hm.input⟩
    · cases htell
      exact .ok hm

theorem isSpelled_exec {s : Stmt} (hs : s.Meets .spelled) : (s.exec detail m).IsSpelled := by
  rw [exec_eq_tellSome]
  refine Outcome.IsSpelled.andThen ?_ fun m' hm' => ?_
  · cases hrun : s.exec 0 m with
    | ok m' => exact .ok ((exec_ok_iff.mp hrun).holdsStrings hs.strings hm)
    | failed f m' => exact .failed ((exec_failed_iff.mp ⟨m', hrun⟩).isSpelled hs hm)
  · cases s with
    | store name line =>
      cases hstack : m.stack with
      | nil => simpa [Stmt.change?, hstack, tellSome] using .ok hm'
      | cons v rest =>
        have he : (Event.stored name v).HoldsStrings := hs.1
        simpa [Stmt.change?, hstack, tellSome] using isSpelled_tell detail hm' he
    | remove name line =>
      have he : (Event.removed name (m.locals.get? name)).HoldsStrings := hs.1
      exact isSpelled_tell detail hm' he
    | push | bare | print | pop | dup | read | convert | load => exact .ok hm'

theorem isSpelled_runItem {s : Stmt} (hs : s.Meets .spelled) :
    (m.runItem detail s).IsSpelled := by
  have hentered := isSpelled_tell detail hm (e := .entered (some s.line) s.typeName) trivial
  have hdone := hentered.andThen fun m' hm' => isSpelled_exec detail hm' hs
  rw [runItem_eq_settle]
  generalize Outcome.andThen _ _ = o at hdone ⊢
  cases hdone with
  | ok hm' => exact isSpelled_tell detail hm' hm'.stack
  | failed hf => exact isSpelled_report detail (Failure.isSpelled_atLine.mpr hf)

theorem isSpelled_runBlock {body : List Stmt} (hbody : ∀ s ∈ body, s.Meets .spelled) :
    (m.runBlock detail body).IsSpelled := by
  induction body generalizing m with
  | nil => exact .ok hm
  | cons s rest ih =>
    obtain ⟨hs, hrest⟩ := List.forall_mem_cons.mp hbody
    exact (isSpelled_runItem detail hm hs).andThen fun m' hm' => ih hm' hrest

theorem isSpelled_finish : (m.finish detail).IsSpelled := by
  unfold finish
  split
  · exact isSpelled_tell detail hm hm.stack
  · exact .failed (f := .digitLimit) trivial

end Machine

/-- A program of strings on a state of strings never comes to a text that cannot be told or printed. -/
theorem Program.isSpelled_run {p : Program} (hp : ∀ s ∈ p.body, s.Meets .spelled) (detail : Nat)
    {start : Machine} (hstart : start.HoldsStrings) : (p.run detail start).IsSpelled := by
  have hopen : (start.openTrace detail).HoldsStrings := ⟨hstart.stack, hstart.locals, hstart.input⟩
  have hstarted := Machine.isSpelled_tell detail hopen (e := .started p.body.length) trivial
  have hblock := hstarted.andThen fun m hm => Machine.isSpelled_runBlock detail hm hp
  have hbody : (Machine.runBody detail p.body (start.openTrace detail)).IsSpelled :=
    hblock.andThen fun m hm => Machine.isSpelled_finish detail hm
  rw [run, Machine.traced]
  generalize Machine.runBody detail p.body (start.openTrace detail) = o at hbody ⊢
  cases hbody with
  | ok hm => exact .ok ⟨hm.stack, hm.locals, hm.input⟩
  | failed hf => exact .failed hf

/-- Only some half of a surrogate pair, in the program or in the state, is no text to be told. -/
theorem Program.not_strings_of_unencodable {p : Program} {detail : Nat} {start : Machine}
    {e : Text.EncodeError} (h : (p.run detail start).failure? = some (.unencodable e)) :
    ¬ (start.HoldsStrings ∧ ∀ s ∈ p.body, s.Meets .spelled) := by
  rintro ⟨hstart, hbody⟩
  have hspelled : (p.run detail start).IsSpelled := isSpelled_run hbody detail hstart
  generalize p.run detail start = o at h hspelled
  cases hspelled with
  | ok hm => cases h
  | failed hf =>
    cases h
    exact hf

end StackLang
