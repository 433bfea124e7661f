import StackLang.Proofs.Machine.Encoding
import StackLang.Proofs.Number.IntegerTexts
import StackLang.Proofs.Number.Nearest

/-! # Conversions of integers

What becomes of an integer that is made a float or a text and an integer again, and which texts can
be made integers. A value that cannot be converted is gone, and the fault names the conversion. -/

namespace StackLang

namespace Stmt

variable {target : Kind} {v w : Value} {f : ConversionFault}

theorem exec_convert_ok (h : v.convert target = .ok w) (detail : Nat) (line : Int) (m : Machine) :
    exec detail (.convert target line) (m.push v) = .ok (m.push w) := by
  simp only [exec, Machine.convertTop, Machine.popThen, Machine.pop, Machine.push,
    Machine.withStack, h]

theorem exec_convert_error (h : v.convert target = .error f) (detail : Nat) (line : Int)
    (m : Machine) :
    exec detail (.convert target line) (m.push v) = .failed (.fault (.conversion f) none) m := by
  simp only [exec, Machine.convertTop, Machine.popThen, Machine.pop, Machine.push,
    Machine.withStack, h]
  rfl

theorem exec_convert_ok_iff {detail : Nat} {line : Int} {m : Machine} :
    exec detail (.convert target line) (m.push v) = .ok (m.push w) ↔ v.convert target = .ok w := by
  refine ⟨fun h => ?_, fun h => exec_convert_ok h detail line m⟩
  cases hv : v.convert target with
  | ok u =>
    have hpush : m.push u = m.push w := by
      simpa only [Outcome.ok.injEq] using (exec_convert_ok hv detail line m).symm.trans h
    have hstack : u :: m.stack = w :: m.stack := congrArg Machine.stack hpush
    rw [(List.cons.inj hstack).1]
  | error f => cases (exec_convert_error hv detail line m).symm.trans h

end Stmt

/-! ### By way of a double -/

theorem overflowBound_le_textLimit : overflowBound ≤ Integer.textLimit := by
  have hpow : ∀ j k, j ≤ 3 * k → Nat.pow 2 j ≤ Nat.pow 10 k := fun j k h =>
    Nat.le_trans (Nat.pow_le_pow_right (by decide) h) (pow_two_le_pow_ten k)
  obtain ⟨high, hhigh⟩ : ∃ high, high = Nat.pow 2 1024 := ⟨_, rfl⟩
  obtain ⟨low, hlow⟩ : ∃ low, low = Nat.pow 2 970 := ⟨_, rfl⟩
  rw [Integer.textLimit_eq, overflowBound_eq hhigh hlow]
  refine Nat.le_trans (Nat.sub_le _ _) ?_
  rw [hhigh]
  exact hpow 1024 Integer.digitLimit (by decide)

theorem textLimit_le_iff {n : Nat} : Integer.textLimit ≤ n ↔ 4300 < (Nat.digits 10 n).length := by
  rw [← Nat.not_lt, Integer.lt_textLimit_iff, Nat.not_le]
  rfl

theorem ConversionFault.message_tooLarge {n : Int} (h : Integer.textLimit ≤ n.natAbs) :
    (tooLarge n).message = digitLimitMessage := by
  have htext : (Value.integer n).text? = none := Value.text?_eq_none_iff.mpr h
  rw [Value.text?, Option.map_eq_none_iff] at htext
  -- A variable stands for the function: its definition would be computed with.
  obtain ⟨write?, hwrite⟩ : ∃ write?, write? = Integer.text? := ⟨_, rfl⟩
  rw [← hwrite] at htext
  rw [message.eq_def, ← hwrite]
  simp only [htext]

/-- An integer beyond the doubles is no float, and one that is too long to be written is refused for
the same reason with another message. Any other integer comes back from a float as the nearest one
of 53 significant bits, and so as it was exactly where it has no more of them. -/
theorem integers_come_back_nearest (n : Int) (m : Machine) (detail : Nat) (line : Int) :
    let cfloat (v : Value) := Stmt.exec detail (.convert .float line) (m.push v)
    let cint (v : Value) := Stmt.exec detail (.convert .integer line) (m.push v)
    let bound := Nat.pow 2 1024 - Nat.pow 2 970
    ((∃ f after, cfloat (.integer n) = .failed (.fault f none) after ∧
        f.name = "ConversionError") ↔ bound ≤ n.natAbs) ∧
    (4300 < (Nat.digits 10 n.natAbs).length → ∃ f, cfloat (.integer n) = .failed (.fault f none) m ∧
      f.name = "ConversionError" ∧ f.message = Text.ofString digitLimitMessage) ∧
    (n.natAbs < bound → ∃ x k, cfloat (.integer n) = .ok (m.push (.float x)) ∧
      cint (.float x) = .ok (m.push (.integer k)) ∧
      IsShort k.natAbs ∧ (∀ j : Int, IsShort j.natAbs → (k - n).natAbs ≤ (j - n).natAbs) ∧
      (k = n ↔ n = 0 ∨ ∃ (a : Int) (e : Nat),
        a % 2 = 1 ∧ a.natAbs < Nat.pow 2 53 ∧ n = a * (Nat.pow 2 e : Nat)) ∧
      (n.natAbs ≤ Nat.pow 2 53 → k = n)) := by
  intro cfloat cint bound
  have hbound : bound = overflowBound := (overflowBound_eq rfl rfl).symm
  have hrefused : overflowBound ≤ n.natAbs →
      cfloat (.integer n) = .failed (.fault (.conversion (.tooLarge n)) none) m := by
    intro hlarge
    refine Stmt.exec_convert_error ?_ detail line m
    rw [Value.convert, Value.toFloat_of_le hlarge]
    rfl
  have hback : n.natAbs < overflowBound → ∃ x, cfloat (.integer n) = .ok (m.push (.float x)) ∧
      cint (.float x) = .ok (m.push (.integer (nearestShort n))) := by
    intro hsmall
    obtain ⟨x, hx, hk⟩ := Value.toFloat_of_lt hsmall
    refine ⟨x, Stmt.exec_convert_ok ?_ detail line m, Stmt.exec_convert_ok ?_ detail line m⟩
    · rw [Value.convert, hx]
      rfl
    · rw [Value.convert, hk]
      rfl
  rw [hbound]
  refine ⟨⟨?_, fun hlarge => ⟨_, m, hrefused hlarge, rfl⟩⟩, fun hlong => ?_, fun hsmall => ?_⟩
  · rintro ⟨f, after, hf, -⟩
    refine Nat.not_lt.mp fun hsmall => ?_
    obtain ⟨x, hx, -⟩ := hback hsmall
    cases hf.symm.trans hx
  · have hlimit : Integer.textLimit ≤ n.natAbs := textLimit_le_iff.mpr hlong
    refine ⟨_, hrefused (Nat.le_trans overflowBound_le_textLimit hlimit), rfl, ?_⟩
    exact congrArg Text.ofString (ConversionFault.message_tooLarge hlimit)
  · obtain ⟨x, hx, hk⟩ := hback hsmall
    refine ⟨x, nearestShort n, hx, hk, ?_, fun j hj => nearestShort_nearest n hj,
      nearestShort_eq_self_iff.trans isShort_natAbs_iff, fun hexact => ?_⟩
    · rw [natAbs_nearestShort]
      exact isShort_roundSteps _
    · refine nearestShort_eq_self_iff.mpr ?_
      have hshort := isShort_mul_pow hexact 0
      rwa [Nat.pow_eq, Nat.pow_zero, Nat.mul_one] at hshort

/-- The least integer that is not its own double comes back as one of its neighbours. -/
theorem integers_come_back_nearest_neighbour :
    let n : Int := 9007199254740993
    let m := Machine.start []
    n.natAbs < Nat.pow 2 1024 - Nat.pow 2 970 ∧
      ∃ x k, Stmt.exec 0 (.convert .float 1) (m.push (.integer n)) = .ok (m.push (.float x)) ∧
        Stmt.exec 0 (.convert .integer 1) (m.push (.float x)) = .ok (m.push (.integer k)) ∧
        (k - n).natAbs = 1 := by
  intro n m
  have hrange : n.natAbs < Nat.pow 2 1024 - Nat.pow 2 970 := by decide +kernel
  obtain ⟨x, k, hx, hk, -, hnear, hself, -⟩ := (integers_come_back_nearest n m 0 1).2.2 hrange
  have hle : (k - n).natAbs ≤ (n - 1 - n).natAbs := hnear (n - 1) ⟨1, 53, by decide, by decide⟩
  have hne : k ≠ n := by
    intro h
    obtain h0 | ⟨a, e, hodd, ha, hn⟩ := hself.mp h
    · exact absurd h0 (by decide)
    · cases e with
      | zero =>
        have hlt : a.natAbs < 9007199254740992 := ha
        rw [Nat.pow_eq, Nat.pow_zero, Int.natCast_one, Int.mul_one] at hn
        omega
      | succ e =>
        rw [Nat.pow_eq, Nat.pow_succ, Int.natCast_mul, ← Int.mul_assoc] at hn
        omega
  refine ⟨hrange, x, k, hx, hk, ?_⟩
  omega

/-! ### By way of a text -/

namespace Value

variable {t : Text} {n : Int}

theorem toInteger_text : toInteger (.text t) = .ok n ↔ Integer.read t.chars = .ok n := by
  cases h : Integer.read t.chars with
  | ok k => simp [toInteger, h]
  | error e => cases e <;> simp [toInteger, h]

/-- A text that is no string is no integer either. -/
theorem toInteger_text_eq_ok_iff : toInteger (.text t) = .ok n ↔
    ∃ (s : String) (values : List Nat), t = .ofString s ∧
      SpellsInteger s.toList values n ∧ 1 ≤ values.length ∧ values.length ≤ 4300 := by
  rw [toInteger_text, Integer.read_eq_ok_iff]
  constructor
  · rintro ⟨values, hspells, hpos, hlen⟩
    obtain ⟨s, rfl⟩ : t.IsString := by
      refine Text.isString_iff.mpr fun c hc => ?_
      cases c with
      | char d => exact ⟨d, rfl⟩
      | half k => exact absurd (List.mem_map_of_mem hc) hspells.replacement_not_mem
    rw [Text.chars_ofString] at hspells
    exact ⟨s, values, rfl, hspells, hpos, hlen⟩
  · rintro ⟨s, values, rfl, hspells, hpos, hlen⟩
    rw [Text.chars_ofString]
    exact ⟨values, hspells, hpos, hlen⟩

theorem toText_integer_of_lt (h : n.natAbs < Integer.textLimit) :
    toText (.integer n) = .ok (Text.ofString (Integer.text n)) := by
  have htext : (integer n).text? = some (Text.ofString (Integer.text n)) := by
    simp only [text?, Integer.text?, if_pos h, Option.map_some]
  rw [toText, htext]

theorem toText_integer_of_le (h : Integer.textLimit ≤ n.natAbs) :
    toText (.integer n) = .error .digitLimit := by
  have htext : (integer n).text? = none := text?_eq_none_iff.mpr h
  rw [toText, htext]

end Value

/-- A text is an integer exactly where it is a sign or none and from 1 to 4300 digits, with nothing
around them but white space, and then it is the one that these digits spell; any other text cannot
be converted. An integer is written exactly where it has no more digits than that, and is read again
from what is written. -/
theorem integer_texts_are_decimal (m : Machine) (detail : Nat) (line : Int) :
    let cint (t : Text) := Stmt.exec detail (.convert .integer line) (m.push (.text t))
    let cstr (n : Int) := Stmt.exec detail (.convert .text line) (m.push (.integer n))
    let refused (o : Outcome Machine) : Prop :=
      ∃ f, o = .failed (.fault f none) m ∧ f.name = "ConversionError"
    (∀ t n, cint t = .ok (m.push (.integer n)) ↔ ∃ (s : String) (values : List Nat),
      t = .ofString s ∧ SpellsInteger s.toList values n ∧
        1 ≤ values.length ∧ values.length ≤ 4300) ∧
    (∀ t, (∃ n, cint t = .ok (m.push (.integer n))) ∨ refused (cint t)) ∧
    (∀ n, (Nat.digits 10 n.natAbs).length ≤ 4300 →
      ∃ t, cstr n = .ok (m.push (.text t)) ∧ cint t = .ok (m.push (.integer n))) ∧
    (∀ n, 4300 < (Nat.digits 10 n.natAbs).length → refused (cstr n)) := by
  intro cint cstr refused
  have hread : ∀ t n, cint t = .ok (m.push (.integer n)) ↔ Value.toInteger (.text t) = .ok n := by
    intro t n
    refine Stmt.exec_convert_ok_iff.trans ?_
    rw [Value.convert]
    cases Value.toInteger (.text t) <;> simp [Except.map]
  refine ⟨fun t n => (hread t n).trans Value.toInteger_text_eq_ok_iff, fun t => ?_, fun n hshort => ?_,
    fun n hlong => ?_⟩
  · cases h : Value.toInteger (.text t) with
    | ok n => exact .inl ⟨n, (hread t n).mpr h⟩
    | error f =>
      refine .inr ⟨.conversion f, Stmt.exec_convert_error ?_ detail line m, rfl⟩
      rw [Value.convert, h]
      rfl
  · have hlt : n.natAbs < Integer.textLimit := Integer.lt_textLimit_iff.mpr hshort
    refine ⟨.ofString (Integer.text n), Stmt.exec_convert_ok ?_ detail line m, (hread _ n).mpr ?_⟩
    · rw [Value.convert, Value.toText_integer_of_lt hlt]
      rfl
    · rw [Value.toInteger_text, Text.chars_ofString]
      exact Integer.read_text hlt
  · have hle : Integer.textLimit ≤ n.natAbs := textLimit_le_iff.mpr hlong
    refine ⟨.conversion .digitLimit, Stmt.exec_convert_error ?_ detail line m, rfl⟩
    rw [Value.convert, Value.toText_integer_of_le hle]
    rfl

/-- Digits of two scripts behind a minus, with white space around them, and what is written of the
integer that they spell. -/
theorem integer_texts_are_decimal_scripts :
    let m := Machine.start []
    SpellsInteger " -\u06612\n".toList [1, 2] (-12) ∧
      Stmt.exec 0 (.convert .integer 1) (m.push (.text (.ofString " -\u06612\n"))) =
        .ok (m.push (.integer (-12))) ∧
      (Nat.digits 10 (-12 : Int).natAbs).length ≤ 4300 ∧
      ∃ t, Stmt.exec 0 (.convert .text 1) (m.push (.integer (-12))) = .ok (m.push (.text t)) ∧
        Stmt.exec 0 (.convert .integer 1) (m.push (.text t)) = .ok (m.push (.integer (-12))) := by
  intro m
  have hvalue : Integer.ofMagnitude true (Nat.ofDigits 10 [1, 2].reverse) = -12 := by decide
  have hspells : SpellsInteger " -\u06612\n".toList [1, 2] (-12) := by
    have h := @SpellsInteger.digits [' '] ['-'] true ['\u0661', '2'] [1, 2] ['\n']
      (List.all_eq_true.mp (by decide)) .minus (by decide) (List.all_eq_true.mp (by decide))
    rwa [hvalue] at h
  have hshort : (Nat.digits 10 (-12 : Int).natAbs).length ≤ 4300 := by simp
  obtain ⟨hread, -, hwritten, -⟩ := integer_texts_are_decimal m 0 1
  exact ⟨hspells, (hread _ _).mpr ⟨_, _, rfl, hspells, by decide, by decide⟩, hshort,
    hwritten (-12) hshort⟩

end StackLang
