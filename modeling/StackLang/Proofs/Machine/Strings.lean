import StackLang.Proofs.Machine.Blocks
import StackLang.Proofs.Document.Loading

/-! # Texts that are strings

Where the texts in a program and the lines that it reads are strings, so are all texts that a run
computes with, and every sink takes what it prints. -/

namespace StackLang

/-- A text that is no string holds half of a surrogate pair. -/
def Text.IsString (t : Text) : Prop := ∃ s : String, t = .ofString s

namespace Text

theorem isString_iff {t : Text} : t.IsString ↔ ∀ c ∈ t.codes, ∃ d, c = .char d := by
  constructor
  · rintro ⟨s, rfl⟩ c hc
    obtain ⟨d, -, rfl⟩ := List.mem_map.mp hc
    exact ⟨d, rfl⟩
  · intro h
    obtain ⟨codes⟩ := t
    have hcodes : ∃ cs : List Char, codes = cs.map .char := by
      induction codes with
      | nil => exact ⟨[], rfl⟩
      | cons c codes ih =>
        obtain ⟨⟨d, rfl⟩, hrest⟩ := List.forall_mem_cons.mp h
        obtain ⟨cs, rfl⟩ := ih hrest
        exact ⟨d :: cs, rfl⟩
    obtain ⟨cs, rfl⟩ := hcodes
    exact ⟨String.ofList cs, by rw [ofString, String.toList_ofList]⟩

@[simp] theorem isString_ofString (s : String) : (ofString s).IsString := ⟨s, rfl⟩

@[simp] theorem isString_append {t u : Text} :
    (t ++ u).IsString ↔ t.IsString ∧ u.IsString := by
  have hcodes : (t ++ u).codes = t.codes ++ u.codes := rfl
  simp only [isString_iff, hcodes, List.forall_mem_append]

theorem isString_intercalate {separator : Text} (hsep : separator.IsString) {ts : List Text}
    (hts : ∀ t ∈ ts, t.IsString) : (Text.intercalate separator ts).IsString := by
  induction ts with
  | nil => exact ⟨"", rfl⟩
  | cons t ts ih =>
    obtain ⟨ht, hrest⟩ := List.forall_mem_cons.mp hts
    cases ts with
    | nil =>
      have hone : Text.intercalate separator [t] = t := by simp [Text.intercalate]
      rwa [hone]
    | cons u us =>
      have hmore : Text.intercalate separator (t :: u :: us) =
          t ++ separator ++ Text.intercalate separator (u :: us) := by
        simp only [Text.intercalate, List.map_cons, List.intercalate_cons_cons]
        rfl
      rw [hmore]
      simp [ht, hsep, ih hrest]

end Text

/-- The texts in a tree are strings. -/
def Demand.strings : Demand where
  name _ := True
  text t := t.IsString
  line _ := True

def Value.IsString : Value → Prop
  | .text t => t.IsString
  | _ => True

namespace Value

theorem IsString.text? {v : Value} (h : v.IsString) {t : Text} (ht : v.text? = some t) :
    t.IsString := by
  cases v with
  | text u =>
    cases ht
    exact h
  | float x =>
    cases ht
    exact ⟨_, rfl⟩
  | boolean b =>
    cases ht
    exact ⟨_, rfl⟩
  | integer n =>
    rw [Value.text?] at ht
    obtain ⟨s, -, rfl⟩ := Option.map_eq_some_iff.mp ht
    exact ⟨s, rfl⟩

/-- Only a text may be no string. -/
theorem isString_of_kind {v : Value} (h : v.kind ≠ .text) : v.IsString := by
  cases v with
  | text t => exact absurd rfl h
  | float | integer | boolean => trivial

theorem IsString.convert {v w : Value} (hv : v.IsString) {target : Kind}
    (h : v.convert target = .ok w) : w.IsString := by
  by_cases htarget : target = .text
  · subst htarget
    obtain ⟨t, ht, rfl⟩ := Document.map_eq_ok h
    cases hshown : v.text? with
    | none => simp [toText, hshown] at ht
    | some u =>
      simp only [toText, hshown, Except.ok.injEq] at ht
      exact ht ▸ hv.text? hshown
  · exact isString_of_kind (kind_of_convert h ▸ htarget)

end Value

theorem mapError_eq_ok {ε ε' α : Type} {x : Except ε α} {f : ε → ε'} {a : α}
    (h : x.mapError f = .ok a) : x = .ok a := by
  cases x with
  | error => cases h
  | ok b => exact congrArg Except.ok (Except.ok.inj h)

theorem Expr.isString_value {locals : Locals}
    (hlocals : ∀ name v, locals.get? name = some v → v.IsString) {e : Expr}
    (he : e.Meets .strings) {v : Value} (h : e.value locals = .ok v) : v.IsString := by
  cases e with
  | number x line | boolean b line =>
    cases h
    trivial
  | text t line =>
    cases h
    exact he.1
  | var name line =>
    cases hname : locals.get? name with
    | none => simp [value, hname] at h
    | some w =>
      simp only [value, hname, Except.ok.injEq] at h
      exact h ▸ hlocals name w hname
  | arith op left right line =>
    obtain ⟨b, -, h⟩ := bind_eq_ok h
    obtain ⟨a, -, h⟩ := bind_eq_ok h
    obtain ⟨-, hinteger | hfloat⟩ := ArithOp.kind_of_apply (mapError_eq_ok h)
    · exact Value.isString_of_kind (by simp [hinteger])
    · exact Value.isString_of_kind (by simp [hfloat])
  | logic op left right line =>
    obtain ⟨b, -, h⟩ := bind_eq_ok h
    obtain ⟨a, -, h⟩ := bind_eq_ok h
    exact Value.isString_of_kind (by simp [LogicOp.kind_of_apply (mapError_eq_ok h)])
  | not e line =>
    obtain ⟨a, -, h⟩ := bind_eq_ok h
    exact Value.isString_of_kind (by simp [Value.kind_of_negate h])

namespace Locals

variable {P : Value → Prop} {l : Locals} (h : ∀ name v, l.get? name = some v → P v)
include h

theorem forall_set {v : Value} (hv : P v) (name : Text) :
    ∀ x w, (l.set name v).get? x = some w → P w := by
  intro x w hw
  rw [get?_set] at hw
  split at hw
  · cases hw
    exact hv
  · exact h x w hw

theorem forall_erase (name : Text) : ∀ x w, (l.erase name).get? x = some w → P w := by
  intro x w hw
  rw [get?_erase] at hw
  split at hw
  · cases hw
  · exact h x w hw

end Locals

/-- All texts in a state are strings, those that are still to be read among them. -/
structure Machine.HoldsStrings (m : Machine) : Prop where
  stack : ∀ v ∈ m.stack, v.IsString
  locals : ∀ name v, m.locals.get? name = some v → v.IsString
  input : ∀ t ∈ m.input, t.IsString

namespace Machine.HoldsStrings

variable {m : Machine} (h : m.HoldsStrings)
include h

theorem withStack {stack : List Value} (hstack : ∀ v ∈ stack, v.IsString) :
    (m.withStack stack).HoldsStrings :=
  ⟨hstack, h.locals, h.input⟩

theorem push {v : Value} (hv : v.IsString) : (m.push v).HoldsStrings :=
  h.withStack (List.forall_mem_cons.mpr ⟨hv, h.stack⟩)

theorem top {v : Value} {rest : List Value} (hstack : m.stack = v :: rest) :
    v.IsString ∧ ∀ w ∈ rest, w.IsString :=
  List.forall_mem_cons.mp (hstack ▸ h.stack)

end Machine.HoldsStrings

theorem Stmt.Yields.holdsStrings {m m' : Machine} {s : Stmt} (h : s.Yields m m')
    (hs : s.Meets .strings) (hm : m.HoldsStrings) : m'.HoldsStrings := by
  cases h with
  | push hv => exact hm.push (Expr.isString_value hm.locals hs.1 hv)
  | bare hv => exact hm.push (Expr.isString_value hm.locals hs hv)
  | print _ _ _ => exact ⟨hm.stack, hm.locals, hm.input⟩
  | pop hstack => exact hm.withStack (hm.top hstack).2
  | dup hstack =>
    obtain ⟨hv, hrest⟩ := hm.top hstack
    exact hm.withStack (by simpa [hv] using hrest)
  | @read line text rest hinput =>
    obtain ⟨htext, hrest⟩ := List.forall_mem_cons.mp (hinput ▸ hm.input)
    exact ⟨List.forall_mem_cons.mpr ⟨htext, hm.stack⟩, hm.locals, hrest⟩
  | convert hstack hw =>
    obtain ⟨hv, hrest⟩ := hm.top hstack
    exact hm.withStack (List.forall_mem_cons.mpr ⟨hv.convert hw, hrest⟩)
  | @store name _ v rest hstack =>
    obtain ⟨hv, hrest⟩ := hm.top hstack
    exact ⟨hrest, Locals.forall_set hm.locals hv name, hm.input⟩
  | load hv => exact hm.push (hm.locals _ _ hv)
  | @remove name _ => exact ⟨hm.stack, Locals.forall_erase hm.locals name, hm.input⟩

end StackLang
