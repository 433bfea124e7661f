import Mathlib.Data.Int.Basic
import StackLang.Value.Operator

/-! # Division of integers

Quotients are rounded toward zero, and a remainder has the sign of the dividend. The two operators
fit together, and nothing but their answers meets both conditions. -/

namespace StackLang

/-- What division of `x` by `y` leaves when the quotient is rounded toward zero. -/
structure IsTruncated (x y q r : Int) : Prop where
  total : x = q * y + r
  small : r.natAbs < y.natAbs
  sign : r = 0 ∨ r.sign = x.sign

namespace IsTruncated

variable {x y q q' r r' : Int}

/-- Two remainders lie on the same side of zero, so that no multiple of the divisor is between
them. -/
theorem natAbs_sub_lt (h : IsTruncated x y q r) (h' : IsTruncated x y q' r') :
    (r' - r).natAbs < y.natAbs := by
  have hside : ∀ s : Int, s = 0 ∨ s.sign = x.sign → (0 < s → 0 < x) ∧ (s < 0 → x < 0) := by
    rintro s (rfl | hs)
    · exact ⟨fun h => absurd h (by decide), fun h => absurd h (by decide)⟩
    · rw [← Int.sign_eq_one_iff_pos, ← Int.sign_eq_one_iff_pos (a := x),
        ← Int.sign_eq_neg_one_iff_neg, ← Int.sign_eq_neg_one_iff_neg (a := x), hs]
      exact ⟨id, id⟩
  have hr := hside r h.sign
  have hr' := hside r' h'.sign
  have hsmall := h.small
  have hsmall' := h'.small
  omega

theorem unique (h : IsTruncated x y q r) (h' : IsTruncated x y q' r') : q' = q ∧ r' = r := by
  have hmul : (q - q') * y = r' - r := by
    have htotal := h.total
    have htotal' := h'.total
    rw [Int.sub_mul]
    omega
  have hq : q' = q := by
    refine Decidable.byContradiction fun hne => ?_
    have hpos : 0 < (q - q').natAbs := by omega
    have hle : y.natAbs ≤ (r' - r).natAbs := by
      rw [← hmul, Int.natAbs_mul]
      exact Nat.le_mul_of_pos_left _ hpos
    exact Nat.not_le.mpr (h.natAbs_sub_lt h') hle
  refine ⟨hq, ?_⟩
  rw [hq, Int.sub_self, Int.zero_mul] at hmul
  omega

end IsTruncated

namespace ArithOp

theorem quotient_eq_tdiv (x y : Int) : quotient x y = x.tdiv y := by
  have hpos : ∀ n, decide (Int.ofNat n < 0) = false := fun n =>
    decide_eq_false (Int.not_lt.mpr (Int.natCast_nonneg n))
  have hneg : ∀ n, decide (Int.negSucc n < 0) = true := fun n =>
    decide_eq_true (Int.negSucc_lt_zero n)
  -- By the signs, as truncated division is defined.
  cases x with
  | ofNat a =>
    cases y with
    | ofNat b =>
      rw [quotient, hpos, hpos]
      rfl
    | negSucc b =>
      rw [quotient, hpos, hneg]
      rfl
  | negSucc a =>
    cases y with
    | ofNat b =>
      rw [quotient, hneg, hpos]
      rfl
    | negSucc b =>
      rw [quotient, hneg, hneg]
      rfl

theorem isTruncated_quotient (x : Int) {y : Int} (hy : y ≠ 0) :
    IsTruncated x y (quotient x y) (x - y * quotient x y) := by
  rw [quotient_eq_tdiv, ← Int.tmod_def]
  refine ⟨(Int.tdiv_mul_add_tmod x y).symm, ?_, ?_⟩
  · rw [Int.natAbs_tmod]
    exact Nat.mod_lt _ (Int.natAbs_pos.mpr hy)
  · by_cases hdvd : y ∣ x
    · exact .inl (Int.tmod_eq_zero_of_dvd hdvd)
    · rw [Int.sign_tmod, if_neg hdvd]
      exact .inr rfl

theorem neg_quotient (x y : Int) : quotient (-x) y = -quotient x y := by
  rw [quotient_eq_tdiv, quotient_eq_tdiv, Int.neg_tdiv]

theorem quotient_neg (x y : Int) : quotient x (-y) = -quotient x y := by
  rw [quotient_eq_tdiv, quotient_eq_tdiv, Int.tdiv_neg]

/-- The operators that divide. -/
def divisions : List ArithOp := [divide, modulo]

theorem apply_zero {op : ArithOp} (hop : op ∈ divisions) (x : Int) :
    ∃ f, op.apply (.integer x) (.integer 0) = .error f ∧ f.name = "DivisionByZero" := by
  cases op with
  | divide => exact ⟨.zeroDivisor, rfl, rfl⟩
  | modulo => exact ⟨.zeroModulus, rfl, rfl⟩
  | add | subtract | multiply => simp [divisions] at hop

theorem apply_divide (x : Int) {y : Int} (hy : y ≠ 0) :
    divide.apply (.integer x) (.integer y) = .ok (.integer (quotient x y)) := by
  rw [apply, onIntegers, if_neg hy]
  rfl

theorem apply_modulo (x : Int) {y : Int} (hy : y ≠ 0) :
    modulo.apply (.integer x) (.integer y) = .ok (.integer (x - y * quotient x y)) := by
  rw [apply, onIntegers, if_neg hy]
  rfl

end ArithOp

/-- Division of an integer by zero fails, and so does its remainder. By any other integer, the two
operators answer with the one quotient and the one remainder of truncated division, from which the
dividend is made again; a sign of either operand goes into the quotient, and that of the divisor is
nothing to the remainder. -/
theorem integer_division_truncates (x y : Int) :
    let answers (op : ArithOp) (a b c : Int) : Prop :=
      op.apply (.integer a) (.integer b) = .ok (.integer c)
    (y = 0 → ∀ op ∈ ArithOp.divisions,
      ∃ f, op.apply (.integer x) (.integer y) = .error f ∧ f.name = "DivisionByZero") ∧
    (y ≠ 0 → ∃ q r, answers .divide x y q ∧ answers .modulo x y r ∧
      IsTruncated x y q r ∧ (∀ q' r', IsTruncated x y q' r' → q' = q ∧ r' = r) ∧
      (∃ p, answers .multiply q y p ∧ answers .add p r x) ∧
      answers .divide (-x) y (-q) ∧ answers .divide x (-y) (-q) ∧ answers .modulo x (-y) r) := by
  intro answers
  refine ⟨fun hy op hop => hy ▸ ArithOp.apply_zero hop x, fun hy => ?_⟩
  have hneg : -y ≠ 0 := Int.neg_ne_zero.mpr hy
  have htruncated := ArithOp.isTruncated_quotient x hy
  refine ⟨_, _, ArithOp.apply_divide x hy, ArithOp.apply_modulo x hy, htruncated,
    fun q' r' h => htruncated.unique h, ⟨_, rfl, ?_⟩, ?_, ?_, ?_⟩
  · have hsum := htruncated.total.symm
    exact congrArg (fun n => Except.ok (Value.integer n)) hsum
  · rw [← ArithOp.neg_quotient]
    exact ArithOp.apply_divide (-x) hy
  · rw [← ArithOp.quotient_neg]
    exact ArithOp.apply_divide x hneg
  · have hsame : x - -y * ArithOp.quotient x (-y) = x - y * ArithOp.quotient x y := by
      rw [ArithOp.quotient_neg, Int.neg_mul_neg]
    rw [← hsame]
    exact ArithOp.apply_modulo x hneg

/-- The quotient of -7 and 2 is -3, not -4, and the remainder is negative. -/
theorem integer_division_truncates_negative :
    (2 : Int) ≠ 0 ∧ ArithOp.divide.apply (.integer (-7)) (.integer 2) = .ok (.integer (-3)) ∧
      ArithOp.modulo.apply (.integer (-7)) (.integer 2) = .ok (.integer (-1)) := by
  have hy : (2 : Int) ≠ 0 := by decide
  obtain ⟨q, r, hq, hr, -, hunique, -⟩ := (integer_division_truncates (-7) 2).2 hy
  obtain ⟨rfl, rfl⟩ := hunique (-3) (-1) ⟨by decide, by decide, by decide⟩
  exact ⟨hy, hq, hr⟩

end StackLang
