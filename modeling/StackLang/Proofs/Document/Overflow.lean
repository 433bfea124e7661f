import Mathlib.Logic.Relation
import StackLang.Proofs.Document.Executing
import StackLang.Proofs.Number.Range

/-! # Numbers that cannot be loaded

Loading a document fails in three ways, and one of them is about numbers alone: an infinite one for
a line, and an integer beyond the doubles for the value of a literal. Loading fails like that
exactly when it comes to such a number, that is, when nothing was wrong before. -/

namespace StackLang

theorem ArithOp.name_of_ofName? {s : String} {op : ArithOp} (h : ArithOp.ofName? s = some op) :
    s = op.name := by
  have hname := List.find?_some h
  exact (beq_iff_eq.mp hname).symm

theorem LogicOp.name_of_ofName? {s : String} {op : LogicOp} (h : LogicOp.ofName? s = some op) :
    s = op.name := by
  have hname := List.find?_some h
  exact (beq_iff_eq.mp hname).symm

namespace Document

/-! ### Coming to a number -/

/-- The type of a node, with no line or one that can be read. -/
def Begins (fields : List (Text × Json)) (typeName : String) : Prop :=
  fields.lookup (Text.ofString "type") = some (.text typeName) ∧
    ∀ i, fields.lookup (Text.ofString "line") = some i → ∃ line, lineOf i = .ok line

/-- A field that is loaded as an expression. -/
def HoldsExpr (fields : List (Text × Json)) (key : String) : Prop :=
  ∃ i e, fields.lookup (Text.ofString key) = some i ∧ ofJson i = .ok (.statement (.bare e))

/-- Loading the one comes to the other, a part of it. The operator of `ArithmeticExpr` stands between
the operands, that of `BooleanExpr` before them; negation has no right one. -/
inductive Opens : Json → Json → Prop where
  | item {fields before j after ds} : Begins fields "Program" →
      fields.lookup (Text.ofString "body") = some (.array (before ++ j :: after)) →
      ofItems before = .ok ds → Opens (.object fields) j
  | pushed {fields j} : Begins fields "PushStmt" →
      fields.lookup (Text.ofString "expr") = some j → Opens (.object fields) j
  | arithLeft {fields j} : Begins fields "ArithmeticExpr" →
      fields.lookup (Text.ofString "left") = some j → Opens (.object fields) j
  | arithRight {fields j} (op : ArithOp) : Begins fields "ArithmeticExpr" →
      HoldsExpr fields "left" → fields.lookup (Text.ofString "op") = some (.text op.name) →
      fields.lookup (Text.ofString "right") = some j → Opens (.object fields) j
  | negated {fields j} : Begins fields "BooleanExpr" →
      fields.lookup (Text.ofString "op") = some (.text "not") →
      fields.lookup (Text.ofString "left") = some j → Opens (.object fields) j
  | logicLeft {fields j} (op : LogicOp) : Begins fields "BooleanExpr" →
      fields.lookup (Text.ofString "op") = some (.text op.name) →
      fields.lookup (Text.ofString "left") = some j → Opens (.object fields) j
  | logicRight {fields j} (op : LogicOp) : Begins fields "BooleanExpr" →
      fields.lookup (Text.ofString "op") = some (.text op.name) → HoldsExpr fields "left" →
      fields.lookup (Text.ofString "right") = some j → Opens (.object fields) j

/-- A node with a number that is too large. Its line is looked at whatever it is. -/
inductive HasHuge : Json → Prop where
  | line {fields negative} :
      fields.lookup (Text.ofString "line") = some (.float (.infinite negative)) →
      HasHuge (.object fields)
  | value {fields n} : Begins fields "NumberLiteral" →
      fields.lookup (Text.ofString "value") = some (.integer n) → overflowBound ≤ n.natAbs →
      HasHuge (.object fields)

/-- Loading comes to a node with a number that is too large. -/
def MeetsHuge (j : Json) : Prop := ∃ x, Relation.ReflTransGen Opens j x ∧ HasHuge x

/-! ### Failing over a number -/

def Overflows {α : Type} (x : Except LoadError α) : Prop :=
  ∃ e, x = .error e ∧ e.family = .overflow

section

variable {α β : Type}

@[simp] theorem overflows_ok (a : α) : ¬ Overflows (.ok a) := by
  simp [Overflows]

@[simp] theorem overflows_error {e : LoadError} :
    Overflows (.error e : Except LoadError α) ↔ e.family = .overflow := by
  simp [Overflows]

theorem overflows_bind {x : Except LoadError α} {f : α → Except LoadError β} :
    Overflows (x >>= f) ↔ Overflows x ∨ ∃ a, x = .ok a ∧ Overflows (f a) := by
  cases x with
  | error e =>
    have hbind : (.error e : Except LoadError α) >>= f = .error e := rfl
    simp [hbind]
  | ok a =>
    have hbind : (.ok a : Except LoadError α) >>= f = f a := rfl
    simp [hbind]

theorem overflows_map {x : Except LoadError α} {f : α → β} :
    Overflows (f <$> x) ↔ Overflows x := by
  cases x with
  | error e =>
    have hmap : f <$> (.error e : Except LoadError α) = .error e := rfl
    simp [hmap]
  | ok a =>
    have hmap : f <$> (.ok a : Except LoadError α) = .ok (f a) := rfl
    simp [hmap]

end

theorem overflows_numberOf_iff {j : Json} :
    Overflows (numberOf j) ↔ ∃ n, j = .integer n ∧ overflowBound ≤ n.natAbs := by
  cases j with
  | integer n =>
    simp only [numberOf, Json.integer.injEq, exists_eq_left', ← Value.doubleOfInt?_eq_none_iff]
    cases Value.doubleOfInt? n <;> simp [LoadError.family]
  | null | boolean _ | float _ | text _ | array _ | object _ => simp [numberOf, LoadError.family]

theorem overflows_lineOf_iff {j : Json} :
    Overflows (lineOf j) ↔ ∃ negative, j = .float (.infinite negative) := by
  cases j with
  | float x => cases x <;> simp [lineOf, Double.trunc?, Double.isNaN, LoadError.family]
  | text t =>
    rw [lineOf]
    split <;> simp [LoadError.family]
  | integer _ | boolean _ | null | array _ | object _ => simp [lineOf, LoadError.family]

variable {fields : List (Text × Json)}

/-! ### Fields -/

theorem get_eq_ok_iff {typeName key : String} {f : Field} :
    (ofFields fields).get typeName key = .ok f ↔
      ∃ i, fields.lookup (Text.ofString key) = some i ∧ f = loaded i := by
  rw [Fields.get, get?_ofFields]
  cases fields.lookup (Text.ofString key) with
  | none => simp
  | some i => simp [eq_comm]

theorem line_eq_ok_iff :
    (∃ line, (ofFields fields).line = .ok line) ↔
      ∀ i, fields.lookup (Text.ofString "line") = some i → ∃ line, lineOf i = .ok line := by
  rw [Fields.line, get?_ofFields]
  cases fields.lookup (Text.ofString "line") with
  | none => simp
  | some i => simp [loaded]

theorem asExpr_eq_ok_iff {d : Document} {e : Expr} :
    asExpr d = .ok e ↔ d = .statement (.bare e) := by
  unfold asExpr
  split
  · simp
  · simp
  · rename_i hbare _
    simp only [reduceCtorEq, false_iff]
    exact hbare e

theorem expr_eq_ok_iff {typeName key : String} {e : Expr} :
    (ofFields fields).expr typeName key = .ok e ↔
      ∃ i, fields.lookup (Text.ofString key) = some i ∧ ofJson i = .ok (.statement (.bare e)) := by
  constructor
  · intro h
    obtain ⟨f, hget, h⟩ := bind_eq_ok h
    obtain ⟨i, hi, rfl⟩ := get_eq_ok_iff.mp hget
    obtain ⟨d, hd, h⟩ := bind_eq_ok h
    rw [asExpr_eq_ok_iff] at h
    exact ⟨i, hi, h ▸ hd⟩
  · rintro ⟨i, hi, he⟩
    exact expr_of_lookup hi he typeName

theorem oneOf_eq_ok_iff {α : Type} {typeName key : String} {ofName? : String → Option α}
    {unknown : Json → LoadError} {a : α} :
    (ofFields fields).oneOf typeName key ofName? unknown = .ok a ↔
      ∃ s : String, fields.lookup (Text.ofString key) = some (.text s) ∧ ofName? s = some a := by
  constructor
  · intro h
    obtain ⟨f, hget, h⟩ := bind_eq_ok h
    obtain ⟨i, hi, rfl⟩ := get_eq_ok_iff.mp hget
    split at h
    · rename_i t ht
      split at h
      · rename_i hname
        obtain ⟨s, hs, hname⟩ := Option.bind_eq_some_iff.mp hname
        cases h
        change i = .text t at ht
        rw [ht, Text.eq_ofString_of_string? hs] at hi
        exact ⟨s, hi, hname⟩
      · cases h
    · cases h
  · rintro ⟨s, hs, ha⟩
    exact oneOf_of_lookup hs ha typeName unknown

/-! ### Where it is a part that fails -/

section

variable {j : Json} {e : LoadError}

theorem ofJson_of_begins {typeName : String} (h : Begins fields typeName) :
    ∃ line, ofJson (.object fields) = (ofFields fields).tagged typeName line := by
  obtain ⟨line, hline⟩ := line_eq_ok_iff.mpr h.2
  refine ⟨line, ?_⟩
  rw [ofJson, Fields.assemble, hline, get?_ofFields, h.1]
  simp [loaded, bind, Except.bind]

theorem expr_of_error {key : String} (h : fields.lookup (Text.ofString key) = some j)
    (hj : ofJson j = .error e) (typeName : String) :
    (ofFields fields).expr typeName key = .error e := by
  rw [Fields.expr, get_of_lookup h]
  change (ofJson j >>= fun d => asExpr d) = _
  rw [hj]
  rfl

theorem ofItems_of_error {before after : List Json} {ds : List Document}
    (hbefore : ofItems before = .ok ds) (hj : ofJson j = .error e) :
    ofItems (before ++ j :: after) = .error e := by
  induction before generalizing ds with
  | nil =>
    rw [List.nil_append, ofItems, hj]
    rfl
  | cons i before ih =>
    rw [ofItems] at hbefore
    obtain ⟨d, hd, hbefore⟩ := bind_eq_ok hbefore
    obtain ⟨rest, hrest, -⟩ := bind_eq_ok hbefore
    rw [List.cons_append, ofItems, hd, ih hrest]
    rfl

theorem logicName?_name (op : LogicOp) : Fields.logicName? op.name = some (some op) := by
  simp [Fields.logicName?, op.name_ne_not]

/-- What a part fails with, once loading comes to it, the whole fails with. -/
theorem ofJson_of_opens {i : Json} (h : Opens j i) (hi : ofJson i = .error e) :
    ofJson j = .error e := by
  cases h with
  | item hbegins hbody hbefore =>
    obtain ⟨line, hj⟩ := ofJson_of_begins hbegins
    rw [hj, Fields.tagged, get_of_lookup hbody]
    change Document.program <$> ofBody (.array _) = _
    rw [ofBody, ofItems_of_error hbefore hi]
    rfl
  | pushed hbegins hexpr =>
    obtain ⟨line, hj⟩ := ofJson_of_begins hbegins
    rw [hj, Fields.tagged, expr_of_error hexpr hi]
    rfl
  | arithLeft hbegins hleft =>
    obtain ⟨line, hj⟩ := ofJson_of_begins hbegins
    rw [hj, Fields.tagged, Fields.arithmetic, expr_of_error hleft hi]
    rfl
  | arithRight op hbegins hleft hop hright =>
    obtain ⟨line, hj⟩ := ofJson_of_begins hbegins
    obtain ⟨l, left, hl, hleft⟩ := hleft
    rw [hj, Fields.tagged, Fields.arithmetic, expr_of_lookup hl hleft,
      oneOf_of_lookup hop op.ofName?_name, expr_of_error hright hi]
    rfl
  | negated hbegins hop hleft =>
    obtain ⟨line, hj⟩ := ofJson_of_begins hbegins
    have hnot : Fields.logicName? "not" = some none := rfl
    rw [hj, Fields.tagged, Fields.logical, oneOf_of_lookup hop hnot,
      expr_of_error hleft hi]
    rfl
  | logicLeft op hbegins hop hleft =>
    obtain ⟨line, hj⟩ := ofJson_of_begins hbegins
    rw [hj, Fields.tagged, Fields.logical,
      oneOf_of_lookup hop (logicName?_name op), expr_of_error hleft hi]
    rfl
  | logicRight op hbegins hop hleft hright =>
    obtain ⟨line, hj⟩ := ofJson_of_begins hbegins
    obtain ⟨l, left, hl, hleft⟩ := hleft
    rw [hj, Fields.tagged, Fields.logical,
      oneOf_of_lookup hop (logicName?_name op),
      expr_of_lookup hl hleft, expr_of_error hright hi]
    rfl

end

/-! ### Where it is a number that fails -/

section

variable {typeName key : String}

/-- That a field is missing is not about a number. -/
theorem overflows_get_bind {α : Type} {f : Field → Except LoadError α} :
    Overflows ((ofFields fields).get typeName key >>= f) ↔
      ∃ i, fields.lookup (Text.ofString key) = some i ∧ Overflows (f (loaded i)) := by
  rw [overflows_bind, Fields.get, get?_ofFields]
  cases fields.lookup (Text.ofString key) with
  | none => simp [LoadError.family]
  | some i => simp

theorem overflows_number_iff :
    Overflows (ofFields fields).number ↔
      ∃ n, fields.lookup (Text.ofString "value") = some (.integer n) ∧
        overflowBound ≤ n.natAbs := by
  rw [Fields.number, overflows_get_bind]
  constructor
  · rintro ⟨i, hi, h⟩
    obtain ⟨n, rfl, hn⟩ := overflows_numberOf_iff.mp h
    exact ⟨n, hi, hn⟩
  · rintro ⟨n, hi, hn⟩
    exact ⟨_, hi, overflows_numberOf_iff.mpr ⟨n, rfl, hn⟩⟩

theorem overflows_line_iff :
    Overflows (ofFields fields).line ↔
      ∃ negative, fields.lookup (Text.ofString "line") = some (.float (.infinite negative)) := by
  rw [Fields.line, get?_ofFields]
  cases fields.lookup (Text.ofString "line") with
  | none => simp
  | some i => simp [loaded, overflows_lineOf_iff]

theorem overflows_expr_iff :
    Overflows ((ofFields fields).expr typeName key) ↔
      ∃ i, fields.lookup (Text.ofString key) = some i ∧ Overflows (ofJson i) := by
  have hexpr : ∀ d : Document, ¬ Overflows (asExpr d) := by
    intro d
    unfold asExpr
    split <;> simp [LoadError.family]
  have hpart : ∀ i : Json, Overflows (ofJson i >>= fun d => asExpr d) ↔ Overflows (ofJson i) := by
    simp [overflows_bind, hexpr]
  rw [Fields.expr, overflows_get_bind]
  exact exists_congr fun i => and_congr_right fun _ => hpart i

theorem not_overflows_name : ¬ Overflows ((ofFields fields).name typeName) := by
  rw [Fields.name, overflows_get_bind]
  rintro ⟨i, -, h⟩
  split at h
  · split at h <;> simp [LoadError.family] at h
  · simp [LoadError.family] at h

theorem not_overflows_text : ¬ Overflows (ofFields fields).text := by
  rw [Fields.text, overflows_get_bind]
  rintro ⟨i, -, h⟩
  split at h <;> simp [LoadError.family] at h

theorem not_overflows_oneOf {α : Type} {ofName? : String → Option α} {unknown : Json → LoadError}
    (hunknown : ∀ got, (unknown got).family ≠ .overflow) :
    ¬ Overflows ((ofFields fields).oneOf typeName key ofName? unknown) := by
  rw [Fields.oneOf, overflows_get_bind]
  rintro ⟨i, -, h⟩
  split at h
  · split at h
    · exact overflows_ok _ h
    · exact hunknown _ (overflows_error.mp h)
  · exact hunknown _ (overflows_error.mp h)

end

theorem overflows_of_hasHuge {j : Json} (h : HasHuge j) : Overflows (ofJson j) := by
  cases h with
  | line hline =>
    rw [ofJson, Fields.assemble, overflows_bind]
    exact .inl (overflows_line_iff.mpr ⟨_, hline⟩)
  | value hbegins hvalue hn =>
    obtain ⟨line, hj⟩ := ofJson_of_begins hbegins
    rw [hj, Fields.tagged, overflows_bind]
    exact .inl (overflows_number_iff.mpr ⟨_, hvalue, hn⟩)

theorem part_of_overflows_items {items : List Json} (h : Overflows (ofItems items)) :
    ∃ before i after ds, items = before ++ i :: after ∧ ofItems before = .ok ds ∧
      Overflows (ofJson i) := by
  induction items with
  | nil => exact absurd h (overflows_ok _)
  | cons i items ih =>
    rw [ofItems, overflows_bind] at h
    obtain h | ⟨d, hd, h⟩ := h
    · exact ⟨[], i, items, [], rfl, rfl, h⟩
    · obtain ⟨before, k, after, ds, rfl, hbefore, hk⟩ := ih (overflows_map.mp h)
      refine ⟨i :: before, k, after, d :: ds, rfl, ?_, hk⟩
      rw [ofItems, hd, hbefore]
      rfl

theorem part_of_overflows_body {b : Json} (h : Overflows (ofBody b)) :
    ∃ before i after ds, b = .array (before ++ i :: after) ∧ ofItems before = .ok ds ∧
      Overflows (ofJson i) := by
  unfold ofBody at h
  split at h
  · obtain ⟨before, i, after, ds, rfl, hbefore, hi⟩ := part_of_overflows_items h
    exact ⟨before, i, after, ds, rfl, hbefore, hi⟩
  · split at h <;> simp [LoadError.family] at h
  · split at h <;> simp [LoadError.family] at h
  · simp [LoadError.family] at h

/-- A number of the node is too large, or loading comes to a part that fails over one. -/
def ComesToHuge (fields : List (Text × Json)) : Prop :=
  HasHuge (.object fields) ∨ ∃ i, Opens (.object fields) i ∧ Overflows (ofJson i)

theorem comesToHuge_of_arithmetic {line : Int} (hbegins : Begins fields "ArithmeticExpr")
    (h : Overflows ((ofFields fields).arithmetic line)) : ComesToHuge fields := by
  rw [Fields.arithmetic, overflows_bind] at h
  obtain h | ⟨left, hleft, h⟩ := h
  · obtain ⟨i, hi, hover⟩ := overflows_expr_iff.mp h
    exact .inr ⟨i, .arithLeft hbegins hi, hover⟩
  rw [overflows_bind] at h
  obtain h | ⟨op, hop, h⟩ := h
  · exact absurd h (not_overflows_oneOf (by simp [LoadError.family]))
  obtain ⟨l, hl, hleft⟩ := expr_eq_ok_iff.mp hleft
  obtain ⟨s, hs, hname⟩ := oneOf_eq_ok_iff.mp hop
  obtain rfl := ArithOp.name_of_ofName? hname
  obtain ⟨i, hi, hover⟩ := overflows_expr_iff.mp (overflows_map.mp h)
  exact .inr ⟨i, .arithRight op hbegins ⟨l, left, hl, hleft⟩ hs hi, hover⟩

theorem comesToHuge_of_logical {line : Int} (hbegins : Begins fields "BooleanExpr")
    (h : Overflows ((ofFields fields).logical line)) : ComesToHuge fields := by
  rw [Fields.logical, overflows_bind] at h
  obtain h | ⟨op?, hop, h⟩ := h
  · exact absurd h (not_overflows_oneOf (by simp [LoadError.family]))
  obtain ⟨s, hs, hname⟩ := oneOf_eq_ok_iff.mp hop
  rw [overflows_bind] at h
  unfold Fields.logicName? at hname
  split at hname
  · rename_i hnot
    subst hnot
    cases hname
    obtain h | ⟨left, -, h⟩ := h
    · obtain ⟨i, hi, hover⟩ := overflows_expr_iff.mp h
      exact .inr ⟨i, .negated hbegins hs hi, hover⟩
    · exact absurd h (overflows_ok _)
  · obtain ⟨op, hknown, rfl⟩ := Option.map_eq_some_iff.mp hname
    obtain rfl := LogicOp.name_of_ofName? hknown
    obtain h | ⟨left, hleft, h⟩ := h
    · obtain ⟨i, hi, hover⟩ := overflows_expr_iff.mp h
      exact .inr ⟨i, .logicLeft op hbegins hs hi, hover⟩
    · obtain ⟨l, hl, hleft⟩ := expr_eq_ok_iff.mp hleft
      obtain ⟨i, hi, hover⟩ := overflows_expr_iff.mp (overflows_map.mp h)
      exact .inr ⟨i, .logicRight op hbegins hs ⟨l, left, hl, hleft⟩ hi, hover⟩

theorem comesToHuge_of_tagged {typeName : String} {line : Int} (hbegins : Begins fields typeName)
    (h : Overflows ((ofFields fields).tagged typeName line)) : ComesToHuge fields := by
  unfold Fields.tagged at h
  split at h
  case h_1 =>
    obtain ⟨b, hb, h⟩ := overflows_get_bind.mp h
    obtain ⟨before, i, after, ds, rfl, hbefore, hover⟩ :=
      part_of_overflows_body (overflows_map.mp h)
    exact .inr ⟨i, .item hbegins hb hbefore, hover⟩
  -- Literals.
  case h_2 =>
    obtain ⟨n, hvalue, hn⟩ := overflows_number_iff.mp (overflows_map.mp h)
    exact .inl (.value hbegins hvalue hn)
  case h_3 => exact absurd (overflows_map.mp h) not_overflows_text
  case h_4 =>
    obtain ⟨i, -, h⟩ := overflows_get_bind.mp h
    exact absurd h (overflows_ok _)
  -- Names.
  case h_5 | h_10 | h_11 | h_12 => exact absurd (overflows_map.mp h) not_overflows_name
  -- Operators.
  case h_6 => exact comesToHuge_of_arithmetic hbegins (overflows_map.mp h)
  case h_7 => exact comesToHuge_of_logical hbegins (overflows_map.mp h)
  case h_8 =>
    obtain ⟨i, hi, hover⟩ := overflows_expr_iff.mp (overflows_map.mp h)
    exact .inr ⟨i, .pushed hbegins hi, hover⟩
  case h_9 =>
    have hconvert := overflows_map.mp (overflows_map.mp h)
    exact absurd hconvert (not_overflows_oneOf (by simp [LoadError.family]))
  -- Statements with a line only, and no node at all.
  case h_13 | h_14 | h_15 | h_16 => exact absurd h (overflows_ok _)
  case h_17 => simp [LoadError.family] at h

theorem comesToHuge_of_overflows (h : Overflows (ofJson (.object fields))) :
    ComesToHuge fields := by
  rw [ofJson, Fields.assemble, overflows_bind] at h
  obtain h | ⟨line, hline, h⟩ := h
  · obtain ⟨negative, hinfinite⟩ := overflows_line_iff.mp h
    exact .inl (.line hinfinite)
  rw [get?_ofFields] at h
  cases htype : fields.lookup (Text.ofString "type") with
  | none => simp [htype, LoadError.family] at h
  | some i =>
    rw [htype] at h
    cases i with
    | text t =>
      simp only [Option.map_some, loaded] at h
      cases hstring : t.string? with
      | none => simp [hstring, LoadError.family] at h
      | some typeName =>
        obtain rfl := Text.eq_ofString_of_string? hstring
        rw [hstring] at h
        exact comesToHuge_of_tagged ⟨htype, line_eq_ok_iff.mp ⟨line, hline⟩⟩ h
    | null | boolean _ | integer _ | float _ | array _ | object _ =>
      simp [loaded, LoadError.family] at h

/-! ### The whole document -/

theorem sizeOf_lookup_lt {key : Text} {i : Json} (h : fields.lookup key = some i) :
    sizeOf i < sizeOf (Json.object fields) := by
  obtain ⟨before, after, hfields, -⟩ := List.lookup_eq_some_iff.mp h
  have hmem : (key, i) ∈ fields := by simp [hfields]
  have hlt := List.sizeOf_lt_of_mem hmem
  simp only [Prod.mk.sizeOf_spec, Json.object.sizeOf_spec] at hlt ⊢
  omega

theorem Opens.sizeOf_lt {j i : Json} (h : Opens j i) : sizeOf i < sizeOf j := by
  cases h with
  | @item fields before _ after _ _ hbody _ =>
    have hmem : i ∈ before ++ i :: after := by simp
    have hlt := List.sizeOf_lt_of_mem hmem
    have hbody := sizeOf_lookup_lt hbody
    simp only [Json.array.sizeOf_spec] at hbody
    omega
  | pushed _ hpart | arithLeft _ hpart | arithRight _ _ _ _ hpart | negated _ _ hpart
  | logicLeft _ _ _ hpart | logicRight _ _ _ _ hpart => exact sizeOf_lookup_lt hpart

/-- Loading fails over a number that is too large exactly when it comes to one. -/
theorem overflows_iff_meetsHuge {j : Json} : Overflows (ofJson j) ↔ MeetsHuge j := by
  constructor
  · intro h
    -- A part that fails is smaller than the whole.
    induction hsize : sizeOf j using Nat.strong_induction_on generalizing j with
    | _ size ih =>
      subst hsize
      cases j with
      | object fields =>
        obtain hhuge | ⟨i, hopens, hi⟩ := comesToHuge_of_overflows h
        · exact ⟨_, .refl, hhuge⟩
        · obtain ⟨x, hreach, hhuge⟩ := ih _ hopens.sizeOf_lt hi rfl
          exact ⟨x, .head hopens hreach, hhuge⟩
      | null => exact absurd h (overflows_ok _)
      | boolean _ | integer _ | float _ | text _ | array _ =>
        simp [ofJson, LoadError.family] at h
  · rintro ⟨x, hreach, hhuge⟩
    induction hreach using Relation.ReflTransGen.head_induction_on with
    | refl => exact overflows_of_hasHuge hhuge
    | head hopens _ ih =>
      obtain ⟨e, he, hfamily⟩ := ih
      exact ⟨e, ofJson_of_opens hopens he, hfamily⟩

end Document

end StackLang
