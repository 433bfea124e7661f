import StackLang.Document.Load
import StackLang.Proofs.Program.Leaves

/-! # Loading what was written

A document whose names are not empty is loaded from its JSON unchanged, and every document that was
loaded, from whatever JSON, has no empty name. So writing and loading again changes it no more. -/

namespace StackLang

/-- No name is empty. -/
def Demand.named : Demand := ⟨fun name => name.isEmpty = false, fun _ => True, fun _ => True⟩

theorem bind_eq_ok {ε α β : Type} {x : Except ε α} {f : α → Except ε β} {b : β}
    (h : x >>= f = .ok b) : ∃ a, x = .ok a ∧ f a = .ok b := by
  cases x with
  | error => cases h
  | ok a => exact ⟨a, rfl, h⟩

@[simp] theorem Text.ofString_inj {s t : String} :
    Text.ofString s = Text.ofString t ↔ s = t := by
  constructor
  · exact Text.ofString_injective
  · rintro rfl
    rfl

@[simp] theorem Text.ofString_beq (s t : String) :
    (Text.ofString s == Text.ofString t) = (s == t) := by
  by_cases h : s = t
  · simp [h]
  · rw [beq_false_of_ne h, beq_false_of_ne (mt Text.ofString_inj.mp h)]

@[simp] theorem ArithOp.ofName?_name (op : ArithOp) : ArithOp.ofName? op.name = some op := by
  cases op <;> rfl

@[simp] theorem LogicOp.ofName?_name (op : LogicOp) : LogicOp.ofName? op.name = some op := by
  cases op <;> rfl

@[simp] theorem Kind.ofName?_name (k : Kind) : Kind.ofName? k.name = some k := by
  cases k <;> rfl

theorem LogicOp.name_ne_not (op : LogicOp) : op.name ≠ "not" := by
  cases op <;> decide

namespace Document

/-- A field with what is loaded from it. -/
def loaded (j : Json) : Field := ⟨j, ofJson j, ofBody j⟩

theorem get?_ofFields (fields : List (Text × Json)) (key : Text) :
    Fields.get? (ofFields fields) key = (fields.lookup key).map loaded := by
  unfold Fields.get?
  induction fields with
  | nil => rfl
  | cons f fields ih =>
    obtain ⟨k, j⟩ := f
    rw [ofFields, List.lookup_cons, List.lookup_cons, ih]
    cases key == k <;> rfl

/-! ### Fields -/

section

variable {fields : List (Text × Json)} {key : String} {j : Json}

theorem get_of_lookup (h : fields.lookup (Text.ofString key) = some j) (typeName : String) :
    Fields.get (ofFields fields) typeName key = .ok (loaded j) := by
  rw [Fields.get, get?_ofFields, h]
  rfl

theorem expr_of_lookup {e : Expr} (h : fields.lookup (Text.ofString key) = some j)
    (he : ofJson j = .ok (.statement (.bare e))) (typeName : String) :
    Fields.expr (ofFields fields) typeName key = .ok e := by
  rw [Fields.expr, get_of_lookup h]
  change (ofJson j >>= fun d => asExpr d) = _
  rw [he]
  rfl

theorem oneOf_of_lookup {α : Type} {ofName? : String → Option α} {s : String} {a : α}
    (h : fields.lookup (Text.ofString key) = some (.text s)) (ha : ofName? s = some a)
    (typeName : String) (unknown : Json → LoadError) :
    Fields.oneOf (ofFields fields) typeName key ofName? unknown = .ok a := by
  rw [Fields.oneOf, get_of_lookup h]
  simp [loaded, ha, bind, Except.bind]

end

/-! ### Nodes -/

/-- What a node is written with: its own fields between its type and its line. -/
def entries (typeName : String) (fields : List (Text × Json)) (line : Int) : List (Text × Json) :=
  (Text.ofString "type", .text typeName) :: fields ++ [(Text.ofString "line", .integer line)]

section

variable {typeName : String} {fields : List (Text × Json)} {line : Int}

theorem ofJson_node (h : fields.lookup (Text.ofString "line") = none) :
    ofJson (node typeName fields line) =
      Fields.tagged (ofFields (entries typeName fields line)) typeName line := by
  have hline : (entries typeName fields line).lookup (Text.ofString "line") =
      some (.integer line) := by
    simp [entries, List.lookup_cons, List.lookup_append, h]
  have htype : (entries typeName fields line).lookup (Text.ofString "type") =
      some (.text typeName) := by
    simp [entries]
  change ofJson (.object (entries typeName fields line)) = _
  rw [ofJson, Fields.assemble, Fields.line, get?_ofFields, get?_ofFields, hline, htype]
  simp [loaded, lineOf, bind, Except.bind]

variable {key : String} {j : Json}

theorem lookup_entries (h : fields.lookup (Text.ofString key) = some j) (hk : key ≠ "type") :
    (entries typeName fields line).lookup (Text.ofString key) = some j := by
  simp [entries, List.lookup_cons, List.lookup_append, h, beq_false_of_ne hk]

theorem get_entries (h : fields.lookup (Text.ofString key) = some j) (hk : key ≠ "type")
    (name : String) :
    Fields.get (ofFields (entries typeName fields line)) name key = .ok (loaded j) :=
  get_of_lookup (lookup_entries h hk) name

theorem expr_entries {e : Expr} (h : fields.lookup (Text.ofString key) = some e.toJson)
    (hk : key ≠ "type") (he : ofJson e.toJson = .ok (.statement (.bare e))) (name : String) :
    Fields.expr (ofFields (entries typeName fields line)) name key = .ok e :=
  expr_of_lookup (lookup_entries h hk) he name

theorem oneOf_entries {α : Type} {ofName? : String → Option α} {s : String} {a : α}
    (h : fields.lookup (Text.ofString key) = some (.text s)) (hk : key ≠ "type")
    (ha : ofName? s = some a) (name : String) (unknown : Json → LoadError) :
    Fields.oneOf (ofFields (entries typeName fields line)) name key ofName? unknown = .ok a :=
  oneOf_of_lookup (lookup_entries h hk) ha name unknown

theorem name_entries {name : Text} (h : name.isEmpty = false) :
    Fields.name (ofFields (entries typeName [(Text.ofString "name", .text name)] line)) typeName =
      .ok name := by
  rw [Fields.name, get_entries (j := .text name) (by simp) (by decide)]
  simp [loaded, h, bind, Except.bind]

end

theorem ofJson_expr {e : Expr} (h : e.Meets .named) :
    ofJson e.toJson = .ok (.statement (.bare e)) := by
  induction e with
  | number x line =>
    rw [Expr.toJson, ofJson_node (by simp), Fields.tagged, Fields.number,
      get_entries (j := .float x) (by simp) (by decide)]
    rfl
  | text s line =>
    rw [Expr.toJson, ofJson_node (by simp), Fields.tagged, Fields.text,
      get_entries (j := .text s) (by simp) (by decide)]
    rfl
  | boolean b line =>
    rw [Expr.toJson, ofJson_node (by simp), Fields.tagged,
      get_entries (j := .boolean b) (by simp) (by decide)]
    rfl
  | var name line =>
    rw [Expr.toJson, ofJson_node (by simp), Fields.tagged, name_entries h.1]
    rfl
  | arith op left right line hl hr =>
    rw [Expr.toJson, ofJson_node (by simp [List.lookup_cons]), Fields.tagged, Fields.arithmetic,
      expr_entries (e := left) (by simp [List.lookup_cons]) (by decide) (hl h.1),
      oneOf_entries (s := op.name) (by simp) (by decide) op.ofName?_name,
      expr_entries (e := right) (by simp [List.lookup_cons]) (by decide) (hr h.2.1)]
    rfl
  | logic op left right line hl hr =>
    have hop : Fields.logicName? op.name = some (some op) := by
      simp [Fields.logicName?, op.name_ne_not]
    rw [Expr.toJson, ofJson_node (by simp [List.lookup_cons]), Fields.tagged, Fields.logical,
      oneOf_entries (s := op.name) (by simp) (by decide) hop,
      expr_entries (e := left) (by simp [List.lookup_cons]) (by decide) (hl h.1),
      expr_entries (e := right) (by simp [List.lookup_cons]) (by decide) (hr h.2.1)]
    rfl
  | not e line he =>
    have hop : Fields.logicName? "not" = some none := rfl
    rw [Expr.toJson, ofJson_node (by simp [List.lookup_cons]), Fields.tagged, Fields.logical,
      oneOf_entries (s := "not") (by simp) (by decide) hop,
      expr_entries (e := e) (by simp [List.lookup_cons]) (by decide) (he h.1)]
    rfl

theorem ofJson_stmt {s : Stmt} (h : s.Meets .named) : ofJson s.toJson = .ok (.statement s) := by
  cases s with
  | bare e => exact ofJson_expr h
  | push e line =>
    rw [Stmt.toJson, Stmt.typeName, ofJson_node (by simp), Fields.tagged,
      expr_entries (by simp) (by decide) (ofJson_expr h.1)]
    rfl
  | convert target line =>
    rw [Stmt.toJson, Stmt.typeName, ofJson_node (by simp), Fields.tagged, Fields.convert,
      oneOf_entries (s := target.name) (by simp) (by decide) target.ofName?_name]
    rfl
  | store name line | load name line | remove name line =>
    rw [Stmt.toJson, Stmt.typeName, ofJson_node (by simp), Fields.tagged, name_entries h.1]
    rfl
  | print line | pop line | dup line | read line =>
    rw [Stmt.toJson, Stmt.typeName, ofJson_node (by simp), Fields.tagged]

theorem ofJson_program {body : List Document} (h : ofItems (toJsonItems body) = .ok body) :
    ofJson (Document.program body).toJson = .ok (.program body) := by
  rw [toJson, ofJson, Fields.assemble, Fields.line, get?_ofFields, get?_ofFields]
  simp [List.lookup_cons, loaded, Fields.tagged, Fields.get, get?_ofFields, ofBody, h, bind,
    Except.bind]

theorem ofItems_toJson {body : List Document}
    (h : ∀ d ∈ body, ofJson d.toJson = .ok d) : ofItems (toJsonItems body) = .ok body := by
  induction body with
  | nil => rfl
  | cons d body ih =>
    obtain ⟨hd, hbody⟩ := List.forall_mem_cons.mp h
    rw [toJsonItems, ofItems, hd, ih hbody]
    rfl

/-- A document without empty names is loaded from its own JSON. -/
theorem ofJson_toJson {d : Document} (h : d.Meets .named) : ofJson d.toJson = .ok d := by
  induction h with
  | nothing => rfl
  | program _ ih => exact ofJson_program (ofItems_toJson ih)
  | statement hs => exact ofJson_stmt hs

/-! ### Loaded documents -/

/-- What is loaded from a field has no empty names. -/
structure Field.Sound (f : Field) : Prop where
  node : ∀ d, f.node = .ok d → d.Meets .named
  body : ∀ ds, f.body = .ok ds → ∀ d ∈ ds, d.Meets .named

theorem meets_of_asExpr {d : Document} {e : Expr} (h : asExpr d = .ok e) (hd : d.Meets .named) :
    e.Meets .named := by
  unfold asExpr at h
  split at h
  · cases h
    cases hd with
    | statement hs => exact hs
  · cases h
  · cases h

theorem map_eq_ok {ε α β : Type} {x : Except ε α} {f : α → β} {b : β}
    (h : f <$> x = .ok b) : ∃ a, x = .ok a ∧ f a = b := by
  cases x with
  | error => cases h
  | ok a => exact ⟨a, rfl, Except.ok.inj h⟩

theorem name_of_ok {fields : Fields} {typeName : String} {name : Text}
    (h : fields.name typeName = .ok name) : name.isEmpty = false := by
  obtain ⟨f, -, h⟩ := bind_eq_ok h
  split at h
  · split at h
    · cases h
    · rename_i hne
      cases h
      exact (Bool.not_eq_true _).mp hne
  · cases h

theorem meets_of_convert {fields : Fields} {line : Int} {s : Stmt}
    (h : fields.convert line = .ok s) : s.Meets .named := by
  obtain ⟨target, -, rfl⟩ := map_eq_ok h
  trivial

section

variable {fields : Fields} (hf : ∀ f ∈ fields, f.2.Sound)
include hf

theorem sound_of_get {typeName key : String} {f : Field} (h : fields.get typeName key = .ok f) :
    f.Sound := by
  unfold Fields.get Fields.get? at h
  split at h
  · rename_i g hg
    cases h
    obtain ⟨before, after, hfields, -⟩ := List.lookup_eq_some_iff.mp hg
    exact hf (Text.ofString key, f) (by simp [hfields])
  · cases h

theorem meets_of_expr {typeName key : String} {e : Expr} (h : fields.expr typeName key = .ok e) :
    e.Meets .named := by
  obtain ⟨f, hget, h⟩ := bind_eq_ok h
  obtain ⟨d, hnode, h⟩ := bind_eq_ok h
  exact meets_of_asExpr h ((sound_of_get hf hget).node d hnode)

theorem meets_of_arithmetic {line : Int} {e : Expr} (h : fields.arithmetic line = .ok e) :
    e.Meets .named := by
  obtain ⟨left, hleft, h⟩ := bind_eq_ok h
  obtain ⟨op, -, h⟩ := bind_eq_ok h
  obtain ⟨right, hright, h⟩ := bind_eq_ok h
  cases h
  exact ⟨meets_of_expr hf hleft, meets_of_expr hf hright, trivial⟩

theorem meets_of_logical {line : Int} {e : Expr} (h : fields.logical line = .ok e) :
    e.Meets .named := by
  obtain ⟨op?, -, h⟩ := bind_eq_ok h
  obtain ⟨left, hleft, h⟩ := bind_eq_ok h
  cases op? with
  | none =>
    cases h
    exact ⟨meets_of_expr hf hleft, trivial⟩
  | some op =>
    obtain ⟨right, hright, h⟩ := bind_eq_ok h
    cases h
    exact ⟨meets_of_expr hf hleft, meets_of_expr hf hright, trivial⟩

theorem meets_of_tagged {typeName : String} {line : Int} {d : Document}
    (h : fields.tagged typeName line = .ok d) : d.Meets .named := by
  unfold Fields.tagged at h
  split at h
  case h_1 =>
    obtain ⟨f, hget, h⟩ := bind_eq_ok h
    obtain ⟨body, hbody, rfl⟩ := map_eq_ok h
    exact .program ((sound_of_get hf hget).body _ hbody)
  -- Literals.
  case h_2 =>
    obtain ⟨x, -, rfl⟩ := map_eq_ok h
    exact .statement trivial
  case h_3 =>
    obtain ⟨s, -, rfl⟩ := map_eq_ok h
    exact .statement ⟨trivial, trivial⟩
  case h_4 =>
    obtain ⟨f, -, h⟩ := bind_eq_ok h
    cases h
    exact .statement trivial
  -- Names.
  case h_5 | h_10 | h_11 | h_12 =>
    obtain ⟨name, hname, rfl⟩ := map_eq_ok h
    exact .statement ⟨name_of_ok hname, trivial⟩
  -- Operators.
  case h_6 =>
    obtain ⟨e, he, rfl⟩ := map_eq_ok h
    exact .statement (meets_of_arithmetic hf he)
  case h_7 =>
    obtain ⟨e, he, rfl⟩ := map_eq_ok h
    exact .statement (meets_of_logical hf he)
  case h_8 =>
    obtain ⟨e, he, rfl⟩ := map_eq_ok h
    exact .statement ⟨meets_of_expr hf he, trivial⟩
  case h_9 =>
    obtain ⟨s, hs, rfl⟩ := map_eq_ok h
    exact .statement (meets_of_convert hs)
  -- Statements with a line only.
  case h_13 | h_14 | h_15 | h_16 =>
    cases h
    exact .statement trivial
  case h_17 => cases h

theorem meets_of_assemble {d : Document} (h : fields.assemble = .ok d) : d.Meets .named := by
  obtain ⟨line, -, h⟩ := bind_eq_ok h
  split at h
  · split at h
    · exact meets_of_tagged hf h
    · cases h
  all_goals cases h

end

theorem meets_of_ofBody {items : List Document} {j : Json}
    (harray : ∀ js, j = .array js → ofItems js = .ok items → ∀ d ∈ items, d.Meets .named)
    (h : ofBody j = .ok items) : ∀ d ∈ items, d.Meets .named := by
  unfold ofBody at h
  split at h
  · exact harray _ rfl h
  · split at h <;> cases h
    simp
  · split at h <;> cases h
    simp
  · cases h

mutual

/-- By recursion on the JSON; a field is loaded as a node and as a body. -/
theorem meets_of_ofJson : ∀ {j : Json} {d : Document}, ofJson j = .ok d → d.Meets .named
  | .null, d, h => by
    cases h
    exact .nothing
  | .object fields, d, h => by
    rw [ofJson] at h
    exact meets_of_assemble (sound_ofFields fields) h
  | .boolean _, d, h | .integer _, d, h | .float _, d, h | .text _, d, h | .array _, d, h => by
    cases h

theorem meets_of_ofItems : ∀ {js : List Json} {ds : List Document},
    ofItems js = .ok ds → ∀ d ∈ ds, d.Meets .named
  | [], ds, h => by
    cases h
    simp
  | j :: js, ds, h => by
    rw [ofItems] at h
    obtain ⟨d, hd, h⟩ := bind_eq_ok h
    obtain ⟨rest, hrest, h⟩ := bind_eq_ok h
    cases h
    exact List.forall_mem_cons.mpr ⟨meets_of_ofJson hd, meets_of_ofItems hrest⟩

theorem sound_ofFields : ∀ (fields : List (Text × Json)), ∀ f ∈ ofFields fields, f.2.Sound
  | [] => by simp [ofFields]
  | (key, j) :: fields => by
    rw [ofFields, List.forall_mem_cons]
    refine ⟨⟨fun d hd => meets_of_ofJson hd, fun ds hds => ?_⟩, sound_ofFields fields⟩
    refine meets_of_ofBody (fun js hj hitems => ?_) hds
    subst hj
    exact meets_of_ofItems hitems

end

/-- Loading what was loaded and written again changes nothing. -/
theorem ofJson_toJson_of_ofJson {j : Json} {d : Document} (h : ofJson j = .ok d) :
    ofJson d.toJson = .ok d := ofJson_toJson (meets_of_ofJson h)

end Document

end StackLang
