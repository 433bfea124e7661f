import StackLang.Proofs.Machine.Blocks
import StackLang.Proofs.Unchecked.Mirror

/-! # Programs in an unchecked run

Without a trace, the statements of a program do the same to an unchecked state as they do to a
machine, and so does the program. -/

namespace StackLang

open Unchecked (Part Stop Operand Bindings Action)

variable {m : Machine} {s : Unchecked.State}

/-! ### Statements -/

theorem Unchecked.Action.tell_zero {least : Nat} (h : 0 < least) (line? : Unit → Option Text) :
    Action.tell 0 least line? = pure () := by
  rw [Action.tell, if_neg (Nat.not_le.mpr h)]

theorem simulates_printTop : Simulates Machine.printTop Action.printTop := by
  intro m s h
  simp only [Action.printTop, Action.peek, bind_assoc, EStateM.run_bind, EStateM.run_get]
  cases hstack : m.stack with
  | nil =>
    have hs : s.stack = [] := by rw [h.stack, hstack, List.map_nil]
    simp only [hs, Machine.printTop, Machine.peek, hstack]
    exact .failed h
  | cons v rest =>
    have hs : s.stack = .value v :: rest.map .value := by rw [h.stack, hstack, List.map_cons]
    simp only [hs, Machine.printTop, Machine.peek, hstack, EStateM.run_pure, Operand.text?]
    cases v.text? with
    | none => exact .failed h
    | some t =>
      simp only [EStateM.run_bind, EStateM.run_get, h.sink]
      cases m.sink.refusal? t with
      | some e => exact .failed h
      | none =>
        have hprinted : s.printed ++ t = m.printed ++ t := by rw [h.printed]
        exact .ok ⟨h.stack, h.locals, h.input, hprinted, h.sink⟩

theorem simulates_readLine : Simulates Machine.readLine Action.readLine := by
  intro m s h
  simp only [Action.readLine, EStateM.run_bind, EStateM.run_get, h.input, Machine.readLine]
  cases m.input with
  | nil => exact .failed h
  | cons line rest =>
    have hrest : ({ m with input := rest } : Machine).Mirrors { s with input := rest } :=
      ⟨h.stack, h.locals, rfl, h.printed, h.sink⟩
    exact simulates_push (.text line) _ _ hrest

theorem simulates_convertTop (target : Kind) :
    Simulates (Machine.convertTop target) (Action.convertTop (.text (.ofString target.name))) := by
  refine simulates_popThen fun v => ?_
  have hkind : (Part.text (.ofString target.name)).plain.string?.bind Kind.ofName? = some target := by
    simp [Part.plain]
  simp only [Action.requireName, Part.unhashable?, pure_bind, hkind]
  have hresult := simulates_pushResult (r := (v.convert target).mapError fun f =>
    .fault (.conversion f) none) (q := (Operand.value v).convert target) (by
      simp only [Operand.convert]
      cases v.convert target <;> rfl)
  intro m s h
  have hstep := hresult m s h
  cases hv : v.convert target <;> rw [hv] at hstep <;> exact hstep

theorem simulates_storeTop (name : Text) :
    Simulates (Machine.storeTop 0 name) (Action.storeTop 0 (.text name)) := by
  refine simulates_popThen fun v => ?_
  simp only [Action.requireName, Part.unhashable?, pure_bind, Machine.tell_zero,
    Action.tell_zero (Nat.zero_lt_succ 1)]
  intro m s h
  exact .ok ⟨h.stack, h.locals.set name v, h.input, h.printed, h.sink⟩

theorem simulates_dropLocal (name : Text) :
    Simulates (Machine.dropLocal 0 name) (Action.dropLocal 0 (.text name)) := by
  intro m s h
  have herased : (m.removeLocal name).2.Mirrors { s with locals := s.locals.erase (.text name) } :=
    ⟨h.stack, h.locals.erase name, h.input, h.printed, h.sink⟩
  simp only [Action.dropLocal, Machine.dropLocal, Machine.tell_zero, Action.requireName,
    Part.unhashable?, Action.tell_zero (Nat.zero_lt_succ 1), EStateM.run_bind, EStateM.run_get]
  split <;> exact .ok herased

theorem simulates_dup : Simulates Machine.dup Action.dup :=
  simulates_popThen fun v => (simulates_push v).andThen (simulates_push v)

theorem simulates_drop : Simulates Machine.drop (discard Action.pop) := by
  have hdiscard : discard Action.pop = Action.pop >>= fun _ => pure () := rfl
  rw [hdiscard]
  exact simulates_popThen fun v m s h => .ok h

theorem simulates_exec (s : Stmt) : Simulates (s.exec 0) (s.part.exec 0) := by
  have htell : ∀ line?, Action.tell 0 2 line? = pure () := Action.tell_zero (by decide)
  unfold Part.exec
  rw [htell, pure_bind]
  cases s with
  | push e line => exact simulates_eval e
  | bare e =>
    cases e <;> exact simulates_eval _
  | print line => exact simulates_printTop
  | pop line => exact simulates_drop
  | dup line => exact simulates_dup
  | read line => exact simulates_readLine
  | convert target line => exact simulates_convertTop target
  | store name line => exact simulates_storeTop name
  | load name line => exact simulates_lookUp name
  | remove name line => exact simulates_dropLocal name

/-! ### Bodies -/

theorem line?_part (s : Stmt) : s.part.line? = some (.integer s.line) := by
  cases s with
  | bare e => cases e <;> rfl
  | push | print | pop | dup | read | convert | store | load | remove => rfl

theorem run_tryCatch (x : Action Unit) (handle : Stop → Action Unit) (u : Unchecked.State) :
    (tryCatch x handle).run u =
      match x.run u with
      | .ok _ u => .ok () u
      | .error stop u => (handle stop).run u := by
  simp only [tryCatch, tryCatchThe, MonadExceptOf.tryCatch, EStateM.tryCatch, EStateM.run]
  cases x u <;> rfl

theorem simulates_runItem {s : Stmt} (hline : s.line.natAbs < Integer.textLimit) :
    Simulates (Machine.runItem 0 s) (s.part.runItem 0) := by
  intro m u h
  have hexec := simulates_exec s m u h
  have hraised : ∀ f m', s.exec 0 m = .failed f m' → f.IsRaised := fun f m' hrun =>
    (Machine.exec_failed_iff.mp ⟨m', hrun⟩).isRaised
  have htell : ∀ least line?, 0 < least → Action.tell 0 least line? = pure () :=
    fun _ line? h => Action.tell_zero h line?
  simp only [Part.runItem, htell, Nat.zero_lt_succ, EStateM.run_bind, run_tryCatch]
  rw [Machine.runItem_zero hline]
  generalize s.exec 0 m = o at hexec hraised ⊢
  generalize (s.part.exec 0).run u = r at hexec ⊢
  cases hexec with
  | ok hm => exact .ok hm
  | @failed m' _ f hm =>
    cases hraised f m' rfl with
    | digitLimit => exact .failed hm
    | unencodable e => exact .failed hm
    | @fault fault hname =>
      simp only [Failure.stop, line?_part]
      exact .failed hm

theorem simulates_runBlock {body : List Stmt} (hlines : ∀ s ∈ body, s.line.natAbs < Integer.textLimit) :
    Simulates (Machine.runBlock 0 body) ((body.map Stmt.part).forM (Part.runItem 0)) := by
  induction body with
  | nil => exact fun m s h => .ok h
  | cons s body ih =>
    obtain ⟨hs, hbody⟩ := List.forall_mem_cons.mp hlines
    exact (simulates_runItem hs).andThen (ih hbody)

theorem describe?_map (stack : List Value) :
    Operand.describe? (stack.map .value) = describeStack? stack := by
  have hitem : Operand.described? ∘ Operand.value = Value.described? := rfl
  rw [Operand.describe?, describeStack?, ← List.map_reverse, List.mapM_map, hitem]

theorem partItems_statements (body : List Stmt) :
    Document.partItems (body.map .statement) = body.map Stmt.part := by
  induction body with
  | nil => rfl
  | cons s body ih =>
    rw [List.map_cons, Document.partItems, ih]
    rfl

theorem simulates_finish : Simulates (Machine.finish 0)
    (do
      match Operand.describe? (← get).stack with
      | some stack => Action.tell 0 1 fun _ => some ("run finished, stack=" ++ stack)
      | none => throw .digitLimit) := by
  intro m s h
  simp only [EStateM.run_bind, EStateM.run_get, h.stack, describe?_map, Machine.finish,
    Machine.tell_zero, Action.tell_zero (Nat.zero_lt_one)]
  cases describeStack? m.stack with
  | none => exact .failed h
  | some t => exact .ok h

theorem simulates_openTrace :
    Simulates .ok (modify fun s => { s with tracing := s.tracing || (0 : Nat) != 0 }) := by
  intro m s h
  exact .ok ⟨h.stack, h.locals, h.input, h.printed, h.sink⟩

theorem Simulates.closeTrace {act : Machine → Outcome Machine} {x : Action Unit}
    (hx : Simulates act x) :
    Simulates (fun m => (act m).map Machine.closeTrace)
      (tryFinally x (modify fun s => { s with tracing := false })) := by
  intro m s h
  have hact := hx m s h
  unfold tryFinally
  simp only [Functor.map, EStateM.map, tryFinally', MonadFinally.tryFinally', EStateM.run] at hact ⊢
  generalize act m = o at hact ⊢
  generalize x s = r at hact ⊢
  cases hact with
  | ok hm => exact .ok ⟨hm.stack, hm.locals, hm.input, hm.printed, hm.sink⟩
  | failed hm => exact .failed ⟨hm.stack, hm.locals, hm.input, hm.printed, hm.sink⟩

/-- A program does the same unchecked as it does otherwise. -/
theorem simulates_run {p : Program} (hlines : ∀ s ∈ p.body, s.line.natAbs < Integer.textLimit) :
    Simulates (p.run 0) (p.document.part.run 0) := by
  have hblock := ((simulates_runBlock hlines).andThen simulates_finish).closeTrace
  have hbody : p.document.part.body = .ok (.list (p.body.map Stmt.part)) := by
    rw [Program.document, Document.part, partItems_statements]
    rfl
  have hrun : p.run 0 = fun m =>
      ((m.runBlock 0 p.body).andThen (Machine.finish 0)).map Machine.closeTrace :=
    funext p.run_zero
  rw [hrun]
  simp only [Part.run, hbody, Part.runBody, Part.elements?, Action.tell_zero Nat.zero_lt_one,
    pure_bind] at hblock ⊢
  exact simulates_openTrace.andThen hblock

end StackLang
