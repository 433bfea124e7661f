import Mathlib.Algebra.Order.Field.Power
import Mathlib.Data.Nat.Digits.Lemmas
import Mathlib.Tactic.Ring
import StackLang.Proofs.Number.Order

/-! # Numbers that decimals denote

A decimal is a rational number, and reading it keeps the order of these numbers. So what stands
between two decimals that are read as one double is read as that double, too. -/

namespace StackLang

/-- A number of steps, counted in ones. -/
def inOnes (n : Nat) : ℚ := n / oneSteps

theorem cast_oneSteps_pos : (0 : ℚ) < oneSteps := Nat.cast_pos.mpr oneSteps_pos

theorem zpow_ten_pos (e : Int) : (0 : ℚ) < (10 : ℚ) ^ e := zpow_pos (by norm_num) e

theorem zpow_ten_add (k : Nat) (e : Int) :
    (10 : ℚ) ^ (k + e) = (Nat.pow 10 k : Nat) * (10 : ℚ) ^ e := by
  rw [zpow_add₀ (by norm_num), zpow_natCast, Nat.pow_eq]
  push_cast
  rfl

theorem zpow_ten_eq_div (e : Int) :
    (10 : ℚ) ^ e = (Nat.pow 10 e.toNat : Nat) / (Nat.pow 10 (-e).toNat : Nat) := by
  obtain ⟨k, rfl | rfl⟩ := e.eq_nat_or_neg <;> simp

namespace Decimal

/-- The number that a decimal denotes. -/
def toRat (d : Decimal) : ℚ := d.digits * (10 : ℚ) ^ d.exponent

/-- The steps that it is read as. -/
def steps (d : Decimal) : Nat := roundSteps d.numerator d.denominator

/-- How many digits it has. -/
def width (d : Decimal) : Nat := (Nat.digits 10 d.digits).length

variable {c d e : Decimal} {n : Nat}

theorem toDouble_eq_finite_iff (negative : Bool) (h : Held n) :
    d.toDouble negative = .finite negative n h ↔ d.steps = n := by
  rw [toDouble_eq_round]
  constructor
  · intro hd
    by_cases hlt : d.steps < stepLimit
    · have hheld : Held d.steps := ⟨dvd_roundSteps _ _, hlt⟩
      exact (Double.finite.inj ((Double.round_of_held hheld rfl negative).symm.trans hd)).2
    · cases hd.symm.trans (Double.round_of_limit_le (Nat.not_lt.mp hlt) negative)
  · intro hd
    exact Double.round_of_held h hd negative

/-! ### Order -/

theorem toRat_mul_oneSteps (d : Decimal) : d.toRat * oneSteps = d.numerator / d.denominator := by
  rw [toRat, numerator, denominator, zpow_ten_eq_div]
  push_cast
  ring

/-- The greater number is not read as less. -/
theorem steps_mono (h : d.toRat ≤ e.toRat) : d.steps ≤ e.steps := by
  have hd : (0 : ℚ) < d.denominator := Nat.cast_pos.mpr d.denominator_pos
  have he : (0 : ℚ) < e.denominator := Nat.cast_pos.mpr e.denominator_pos
  have hmul := mul_le_mul_of_nonneg_right h cast_oneSteps_pos.le
  rw [toRat_mul_oneSteps, toRat_mul_oneSteps, div_le_div_iff₀ hd he] at hmul
  exact roundSteps_le_of_cross d.denominator_pos e.denominator_pos (by exact_mod_cast hmul)

theorem steps_congr (h : d.toRat = e.toRat) : d.steps = e.steps :=
  Nat.le_antisymm (steps_mono h.le) (steps_mono h.ge)

theorem steps_between (hc : c.steps = n) (he : e.steps = n) (hcd : c.toRat ≤ d.toRat)
    (hde : d.toRat ≤ e.toRat) : d.steps = n :=
  Nat.le_antisymm (he ▸ steps_mono hde) (hc ▸ steps_mono hcd)

theorem toRat_le {j k : Nat} (h : j ≤ k) {i : Int} : toRat ⟨j, i⟩ ≤ toRat ⟨k, i⟩ :=
  mul_le_mul_of_nonneg_right (Nat.cast_le.mpr h) (zpow_ten_pos i).le

/-! ### Digits -/

theorem toRat_pow {k : Nat} {i lead : Int} (h : lead = k + i) :
    toRat ⟨Nat.pow 10 k, i⟩ = (10 : ℚ) ^ lead := by
  rw [toRat, h, zpow_ten_add]

theorem width_le_iff {k : Nat} : d.width ≤ k ↔ d.digits < Nat.pow 10 k :=
  Nat.digits_length_le_iff (by decide) d.digits

theorem width_pos (h : 0 < d.steps) : 0 < d.width := by
  refine Nat.pos_of_ne_zero fun hzero => ?_
  have htiny : d.isTiny = true := by
    rw [isTiny, Nat.lt_one_iff.mp (width_le_iff.mp hzero.le)]
    rfl
  rw [steps, roundSteps_of_isTiny htiny] at h
  cases h

theorem toRat_dropZeros (k : Nat) (d : Decimal) : (dropZeros k d).toRat = d.toRat := by
  induction k generalizing d with
  | zero => rfl
  | succ k ih =>
    unfold dropZeros
    split
    · rename_i h
      obtain ⟨m, hm⟩ := Nat.dvd_of_mod_eq_zero h.1
      rw [ih, toRat, toRat, hm, Nat.mul_div_cancel_left m (by decide), zpow_add_one₀ (by norm_num)]
      push_cast
      ring
    · rfl

theorem digits_dropZeros_le (k : Nat) (d : Decimal) : (dropZeros k d).digits ≤ d.digits := by
  induction k generalizing d with
  | zero => exact Nat.le_refl _
  | succ k ih =>
    unfold dropZeros
    split
    · exact Nat.le_trans (ih _) (Nat.div_le_self _ _)
    · exact Nat.le_refl _

theorem toRat_normal (d : Decimal) : d.normal.toRat = d.toRat := toRat_dropZeros _ d

/-- Of a power of ten at least one zero is dropped. -/
theorem width_normal_le {k : Nat} (h : d.digits ≤ Nat.pow 10 (k + 1)) : d.normal.width ≤ k + 1 := by
  rw [width_le_iff]
  obtain hlt | heq := Nat.lt_or_eq_of_le h
  · exact Nat.lt_of_le_of_lt (digits_dropZeros_le _ d) hlt
  · have hten : Nat.pow 10 (k + 1) = 10 * Nat.pow 10 k := Nat.pow_succ'
    have hpos : 0 < Nat.pow 10 k := Nat.pow_pos (by decide)
    obtain ⟨fuel, hfuel⟩ : ∃ fuel, d.digits.log2 = fuel + 1 := by
      refine Nat.exists_eq_succ_of_ne_zero fun hzero => ?_
      have hlog := Nat.lt_log2_self (n := d.digits)
      rw [hzero] at hlog
      omega
    rw [normal, hfuel, dropZeros, if_pos (by omega)]
    refine Nat.lt_of_le_of_lt (digits_dropZeros_le _ _) ?_
    dsimp only
    omega

end Decimal

end StackLang
