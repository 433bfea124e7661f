import StackLang.Proofs.Document.Running
import StackLang.Proofs.Machine.Encoding
import StackLang.Proofs.Machine.Safety

/-! # Running what was loaded

The loader checks where an expression is wanted, but takes anything for a program and for a part of
its body. Among what it takes are the programs, and their JSON can be told apart. A run complains of
a part that it cannot use exactly when it comes to one, so that no program is complained of. -/

namespace StackLang

/-! ### What is loaded -/

theorem Text.eq_ofString_of_string? {t : Text} {s : String} (h : t.string? = some s) :
    t = ofString s := by
  obtain ⟨cs, hcs, rfl⟩ := Option.map_eq_some_iff.mp h
  obtain ⟨codes⟩ := t
  rw [ofString, String.toList_ofList, Text.mk.injEq]
  change codes.mapM Code.char? = some cs at hcs
  clear h
  induction codes generalizing cs with
  | nil =>
    cases hcs
    rfl
  | cons c codes ih =>
    rw [List.mapM_cons] at hcs
    obtain ⟨d, hd, hcs⟩ := Option.bind_eq_some_iff.mp hcs
    obtain ⟨ds, hds, hcs⟩ := Option.bind_eq_some_iff.mp hcs
    cases hcs
    rw [List.map_cons, ih ds hds]
    cases c with
    | char e =>
      cases hd
      rfl
    | half n => cases hd

namespace Json

/-- An object whose type is the given one. -/
def HasType (j : Json) (typeName : String) : Prop :=
  ∃ fields, j = .object fields ∧ fields.lookup (Text.ofString "type") = some (.text typeName)

/-- Of what can be loaded, all but nothing and the programs are statements. -/
def IsPart (j : Json) : Prop := j ≠ .null ∧ ¬ j.HasType "Program"

/-- A program with nothing but statements in its body. -/
def HoldsStatements (j : Json) : Prop :=
  ∃ fields, j = .object fields ∧
    fields.lookup (Text.ofString "type") = some (.text "Program") ∧
    ∀ items, fields.lookup (Text.ofString "body") = some (.array items) → ∀ i ∈ items, i.IsPart

end Json

namespace Document

/-- What JSON is loaded as. -/
inductive Loaded : Json → Document → Prop where
  | nothing : Loaded .null .nothing
  | program {fields : List (Text × Json)} {b : Json} {body : List Document} :
      fields.lookup (Text.ofString "type") = some (.text "Program") →
      fields.lookup (Text.ofString "body") = some b → ofBody b = .ok body →
      Loaded (.object fields) (.program body)
  | statement {j : Json} (s : Stmt) : j.IsPart → Loaded j (.statement s)

theorem tagged_cases {fields : Fields} {typeName : String} {line : Int} {d : Document}
    (h : fields.tagged typeName line = .ok d) :
    (typeName = "Program" ∧ ∃ f body, fields.get "Program" "body" = .ok f ∧ f.body = .ok body ∧
      d = .program body) ∨ typeName ≠ "Program" ∧ ∃ s, d = .statement s := by
  unfold Fields.tagged at h
  split at h
  case h_1 =>
    obtain ⟨f, hget, h⟩ := bind_eq_ok h
    obtain ⟨body, hbody, rfl⟩ := map_eq_ok h
    exact .inl ⟨rfl, f, body, hget, hbody, rfl⟩
  case h_4 =>
    obtain ⟨f, -, h⟩ := bind_eq_ok h
    cases h
    exact .inr ⟨by decide, _, rfl⟩
  case h_13 | h_14 | h_15 | h_16 =>
    cases h
    exact .inr ⟨by decide, _, rfl⟩
  case h_17 => cases h
  all_goals
    obtain ⟨x, -, rfl⟩ := map_eq_ok h
    exact .inr ⟨by decide, _, rfl⟩

theorem loaded_of_assemble {fields : List (Text × Json)} {d : Document}
    (h : (ofFields fields).assemble = .ok d) : Loaded (.object fields) d := by
  obtain ⟨line, -, h⟩ := bind_eq_ok h
  rw [get?_ofFields] at h
  cases htype : fields.lookup (Text.ofString "type") with
  | none =>
    rw [htype] at h
    cases h
  | some j =>
    rw [htype] at h
    cases j with
    | text t =>
      simp only [Option.map_some, loaded] at h
      cases hstring : t.string? with
      | none =>
        rw [hstring] at h
        cases h
      | some typeName =>
        have ht := Text.eq_ofString_of_string? hstring
        subst ht
        rw [hstring] at h
        rcases tagged_cases h with ⟨rfl, f, body, hget, hbody, rfl⟩ | ⟨hne, s, rfl⟩
        · unfold Fields.get at hget
          rw [get?_ofFields] at hget
          cases hlookup : fields.lookup (Text.ofString "body") with
          | none =>
            rw [hlookup] at hget
            cases hget
          | some b =>
            rw [hlookup] at hget
            cases hget
            exact .program htype hlookup hbody
        · refine .statement s ⟨by simp, ?_⟩
          rintro ⟨fields', heq, htype'⟩
          cases heq
          rw [htype] at htype'
          simp only [Option.some.injEq, Json.text.injEq, Text.ofString_inj] at htype'
          exact hne htype'
    | null | boolean _ | integer _ | float _ | array _ | object _ => cases h

theorem loaded_of_ofJson {j : Json} {d : Document} (h : ofJson j = .ok d) : Loaded j d := by
  cases j with
  | null =>
    cases h
    exact .nothing
  | object fields =>
    rw [ofJson] at h
    exact loaded_of_assemble h
  | boolean _ | integer _ | float _ | text _ | array _ => cases h

theorem exists_statement_iff {j : Json} {d : Document} (h : ofJson j = .ok d) :
    (∃ s, d = .statement s) ↔ j.IsPart := by
  cases loaded_of_ofJson h with
  | nothing => simp [Json.IsPart]
  | program htype _ _ => simp [Json.IsPart, Json.HasType, htype]
  | statement s hpart => simp [hpart]

theorem forall_statement_iff {js : List Json} {ds : List Document} (h : ofItems js = .ok ds) :
    (∀ d ∈ ds, ∃ s, d = .statement s) ↔ ∀ j ∈ js, j.IsPart := by
  induction js generalizing ds with
  | nil =>
    cases h
    simp
  | cons j js ih =>
    rw [ofItems] at h
    obtain ⟨d, hd, h⟩ := bind_eq_ok h
    obtain ⟨rest, hrest, h⟩ := bind_eq_ok h
    cases h
    rw [List.forall_mem_cons, List.forall_mem_cons, exists_statement_iff hd, ih hrest]

theorem forall_statement_body_iff {b : Json} {body : List Document} (h : ofBody b = .ok body) :
    (∀ d ∈ body, ∃ s, d = .statement s) ↔ ∀ items, b = .array items → ∀ i ∈ items, i.IsPart := by
  unfold ofBody at h
  split at h
  · rw [forall_statement_iff h]
    simp
  · split at h <;> cases h
    simp
  · split at h <;> cases h
    simp
  · cases h

/-- What is loaded is a program exactly when the JSON has nothing but statements in its body. -/
theorem exists_program_iff {j : Json} {d : Document} (h : ofJson j = .ok d) :
    (∃ p : Program, d = p.document) ↔ j.HoldsStatements := by
  cases loaded_of_ofJson h with
  | nothing => simp [Json.HoldsStatements, Program.document]
  | statement s hpart =>
    constructor
    · rintro ⟨p, hp⟩
      cases hp
    · rintro ⟨fields, rfl, htype, -⟩
      exact absurd ⟨fields, rfl, htype⟩ hpart.2
  | @program fields b body htype hlookup hbody =>
    have hparts : (Json.object fields).HoldsStatements ↔ ∀ d ∈ body, ∃ s, d = .statement s := by
      rw [forall_statement_body_iff hbody]
      simp [Json.HoldsStatements, htype, hlookup]
    rw [hparts]
    constructor
    · rintro ⟨p, hp⟩
      cases hp
      simp
    · intro hall
      obtain ⟨p, hp⟩ := exists_program hall
      exact ⟨p, hp.symm⟩

end Document

/-! ### What cannot be used -/

/-- A failure that is not a complaint about a part. -/
def Failure.IsSupported (f : Failure) : Prop := ∀ u, f ≠ .unsupported u

theorem Failure.isSupported_atLine {f : Failure} {line : Option Int} :
    (f.atLine line).IsSupported ↔ f.IsSupported := by
  rcases f with ⟨g, - | old⟩ | - | e | u <;> simp [IsSupported, atLine]

theorem Failure.IsRaised.isSupported {f : Failure} (h : f.IsRaised) : f.IsSupported := by
  cases h <;> simp [IsSupported]

theorem Outcome.exists_failed_andThen_iff {σ : Type} {o : Outcome σ} {next : σ → Outcome σ}
    {f : Failure} :
    (∃ s', o.andThen next = .failed f s') ↔
      (∃ s', o = .failed f s') ∨ ∃ s, o = .ok s ∧ ∃ s', next s = .failed f s' := by
  cases o <;> simp

namespace Machine

variable {detail : Nat} {m : Machine} {u : Unsupported}

theorem isSupported_tell (e : Event) (m : Machine) :
    (m.tell detail e).Keeps (fun _ => True) Failure.IsSupported :=
  (isRaised_tell e m).mono fun _ h => h.isSupported

theorem isSupported_report {f : Failure} (hf : f.IsSupported) (m : Machine) :
    (m.report detail f).Keeps (fun _ => True) Failure.IsSupported := by
  cases f with
  | fault g line =>
    simp only [report]
    cases (g.diagnostic line).text? with
    | none => exact .failed (by simp [Failure.IsSupported]) trivial
    | some t => exact (isSupported_tell _ m).andThen fun m' _ => .failed hf trivial
  | digitLimit | unencodable e => exact .failed hf trivial
  | unsupported u => exact absurd rfl (hf u)

/-- No statement is complained of. -/
theorem isSupported_runItem (s : Stmt) (m : Machine) :
    (m.runItem detail s).Keeps (fun _ => True) Failure.IsSupported := by
  have hraised : ((m.tell detail (.entered (some s.line) s.typeName)).andThen
      (s.exec detail)).Keeps (fun _ => True) Failure.IsRaised :=
    (isRaised_tell _ m).andThen fun m' _ => isRaised_exec s m'
  rw [runItem_eq_settle]
  generalize Outcome.andThen _ _ = o at hraised ⊢
  cases hraised with
  | ok => exact isSupported_tell _ _
  | failed hf => exact isSupported_report (Failure.isSupported_atLine.mpr hf.isSupported) _

theorem isSupported_finish (m : Machine) :
    (m.finish detail).Keeps (fun _ => True) Failure.IsSupported := by
  unfold finish
  split
  · exact isSupported_tell _ m
  · exact .failed (by simp [Failure.IsSupported]) trivial

/-- That a part is come to can always be told, as it has no line. -/
theorem tell_entered_part (typeName : String) (m : Machine) :
    ∃ m', m.tell detail (.entered none typeName) = .ok m' := by
  unfold tell
  split
  · have htext : (Event.entered none typeName).text? = some ("line ?: " ++ typeName : Text) := rfl
    obtain ⟨s, hs⟩ : Text.IsString ("line ?: " ++ typeName : Text) := by simp
    simp only [htext, hs, Text.encodable_ofString]
    exact ⟨_, rfl⟩
  · exact ⟨m, rfl⟩

theorem runItem_unsupported_iff {d : Document} :
    (∃ m', m.runItem detail d = .failed (.unsupported u) m') ↔
      (∀ s, d ≠ .statement s) ∧ u = .statement d.className := by
  have hpart : (∀ s, d ≠ .statement s) →
      ∃ m', m.runItem detail d = .failed (.unsupported (.statement d.className)) m' := by
    intro hd
    obtain ⟨m', hm'⟩ : ∃ m', m.tell detail (.entered none d.typeName) = .ok m' :=
      tell_entered_part d.typeName m
    refine ⟨m', ?_⟩
    cases d with
    | statement s => exact absurd rfl (hd s)
    | nothing | program body =>
      simp only [runItem, Executable.line?, Executable.typeName, Document.line?, hm',
        Outcome.andThen_ok]
      rfl
  constructor
  · rintro ⟨m', h⟩
    have hd : ∀ s, d ≠ .statement s := by
      rintro s rfl
      have hstmt : m.runItem detail s = .failed (.unsupported u) m' := h
      exact (hstmt ▸ isSupported_runItem s m).of_failed u rfl
    obtain ⟨m'', h'⟩ := hpart hd
    cases h.symm.trans h'
    exact ⟨hd, rfl⟩
  · rintro ⟨hd, rfl⟩
    exact hpart hd

end Machine

namespace Document

/-- A run comes to something that it cannot use: it is given no program, or a part that is no
statement follows upon statements that succeed. -/
inductive Stumbles (detail : Nat) (m : Machine) : Document → Unsupported → Prop where
  | noBody {d : Document} : (∀ body, d ≠ .program body) → Stumbles detail m d (.noBody d.typeName)
  | part {body : List Document} {k : Nat} {d : Document} {before : Machine} : body[k]? = some d →
      (∀ s, d ≠ .statement s) →
      ((m.openTrace detail).tell detail (.started body.length)).andThen
        (Machine.runBlock detail (body.take k)) = .ok before →
      Stumbles detail m (.program body) (.statement d.className)

variable {detail : Nat} {m : Machine} {u : Unsupported}

theorem runBody_unsupported_iff {body : List Document} :
    (∃ m', Machine.runBody detail body m = .failed (.unsupported u) m') ↔
      ∃ k d before, body[k]? = some d ∧ (∀ s, d ≠ .statement s) ∧
        (m.tell detail (.started body.length)).andThen (Machine.runBlock detail (body.take k)) =
          .ok before ∧ u = .statement d.className := by
  have htell : ¬ ∃ m', m.tell detail (.started body.length) = .failed (.unsupported u) m' := by
    rintro ⟨m', h⟩
    exact (h ▸ Machine.isSupported_tell (.started body.length) m).of_failed u rfl
  have hfinish : ∀ after : Machine, ¬ ∃ m', after.finish detail = .failed (.unsupported u) m' := by
    rintro after ⟨m', h⟩
    exact (h ▸ Machine.isSupported_finish after).of_failed u rfl
  rw [Machine.runBody, Outcome.exists_failed_andThen_iff, Outcome.exists_failed_andThen_iff]
  simp only [htell, hfinish, and_false, exists_false, or_false, false_or]
  constructor
  · rintro ⟨opened, hopened, m', h⟩
    obtain ⟨k, d, before, hd, hbefore, hfail⟩ := Machine.runBlock_failed_iff.mp h
    obtain ⟨hpart, hu⟩ := Machine.runItem_unsupported_iff.mp ⟨m', hfail⟩
    exact ⟨k, d, before, hd, hpart, by rw [hopened]; exact hbefore, hu⟩
  · rintro ⟨k, d, before, hd, hpart, hbefore, hu⟩
    cases hopened : m.tell detail (.started body.length) with
    | failed f m' =>
      rw [hopened] at hbefore
      cases hbefore
    | ok opened =>
      rw [hopened] at hbefore
      obtain ⟨m', hfail⟩ := Machine.runItem_unsupported_iff.mpr ⟨hpart, hu⟩
      exact ⟨opened, rfl, m', Machine.runBlock_failed_iff.mpr ⟨k, d, before, hd, hbefore, hfail⟩⟩

theorem run_unsupported_iff {d : Document} :
    (∃ m', d.run detail m = .failed (.unsupported u) m') ↔ d.Stumbles detail m u := by
  have hmap : ∀ o : Outcome Machine, (∃ m', o.map Machine.closeTrace = .failed (.unsupported u) m') ↔
      ∃ m', o = .failed (.unsupported u) m' := by
    intro o
    cases o <;> simp [Outcome.map]
  rw [run, Machine.traced, hmap]
  cases d with
  | program body =>
    rw [runBody_unsupported_iff]
    constructor
    · rintro ⟨k, d, before, hd, hpart, hbefore, rfl⟩
      exact .part hd hpart hbefore
    · intro h
      cases h with
      | noBody hnone => exact absurd rfl (hnone body)
      | part hd hpart hbefore => exact ⟨_, _, _, hd, hpart, hbefore, rfl⟩
  | nothing | statement s =>
    constructor
    · rintro ⟨m', h⟩
      cases h
      exact .noBody (by simp)
    · intro h
      cases h with
      | noBody => exact ⟨_, rfl⟩

end Document

/-- What is loaded is a program exactly when its JSON has nothing but statements in its body, and no
run of that program complains of a part, at any level of detail and on any state. Whatever else is
loaded, a run complains exactly when it comes to a part that it cannot use. -/
theorem loaded_program_is_supported {j : Json} {d : Document} (h : Document.ofJson j = .ok d) :
    (j.HoldsStatements ↔ ∃ p : Program, d = p.document) ∧
    (j.HoldsStatements → ∀ detail m m' u, d.run detail m ≠ .failed (.unsupported u) m') ∧
    ∀ detail m u, (∃ m', d.run detail m = .failed (.unsupported u) m') ↔ d.Stumbles detail m u := by
  refine ⟨(Document.exists_program_iff h).symm, fun hj detail m m' u hrun => ?_,
    fun detail m u => Document.run_unsupported_iff⟩
  obtain ⟨p, rfl⟩ := (Document.exists_program_iff h).mpr hj
  cases Document.run_unsupported_iff.mp ⟨m', hrun⟩ with
  | noBody hnone => exact hnone _ rfl
  | part hd hpart _ =>
    obtain ⟨s, -, hs⟩ := List.mem_map.mp (List.mem_of_getElem? hd)
    exact hpart s hs.symm

theorem loaded_program_is_supported_print :
    let j : Json := .object [("type", .text "Program"),
      ("body", .array [.object [("type", .text "PrintStmt")]])]
    let d : Document := .program [.statement (.print 0)]
    Document.ofJson j = .ok d ∧ j.HoldsStatements ∧
      ∀ detail m m' u, d.run detail m ≠ .failed (.unsupported u) m' := by
  intro j d
  have hload : Document.ofJson j = .ok d := rfl
  obtain ⟨hshape, hruns, -⟩ := loaded_program_is_supported hload
  have hj : j.HoldsStatements := hshape.mpr ⟨⟨[.print 0]⟩, rfl⟩
  exact ⟨hload, hj, hruns hj⟩

/-- Nothing is loaded where a program is wanted, and where a part of its body is. No run can use it. -/
theorem nothing_is_loaded_and_not_run :
    let j : Json := .object [("type", .text "Program"), ("body", .array [.null])]
    let start := Machine.startOn .encoded []
    Document.ofJson .null = .ok .nothing ∧
      (Document.nothing.run 0 start).failure? = some (.unsupported (.noBody "NoneType")) ∧
      Document.ofJson j = .ok (.program [.nothing]) ∧
      ((Document.program [.nothing]).run 0 start).failure? =
        some (.unsupported (.statement "NoneType")) :=
  ⟨rfl, rfl, rfl, rfl⟩

end StackLang
