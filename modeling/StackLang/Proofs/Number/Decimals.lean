import StackLang.Number.Decimal

/-! # Decimals and the doubles nearest to them

The double nearest to a decimal depends on the number alone, not on how its digits and its exponent
share it: a zero at the end of the digits may be moved into the exponent and back. The answers given
at once for exponents far off are those that rounding gives. -/

namespace StackLang

theorem oneSteps_eq : oneSteps = Nat.pow 2 1074 := by
  delta oneSteps
  exact Eq.refl _

theorem stepLimit_eq : stepLimit = Nat.pow 2 2098 := by
  delta stepLimit
  exact Eq.refl _

theorem pow_two_le_pow_ten (k : Nat) : Nat.pow 2 (3 * k) ≤ Nat.pow 10 k :=
  calc Nat.pow 2 (3 * k) = Nat.pow 8 k := Nat.pow_mul 2 3 k
    _ ≤ Nat.pow 10 k := Nat.pow_le_pow_left (by decide) k

theorem double_mul_lt {m one j k : Nat} (hone : one = Nat.pow 2 j) (h : m.log2 + (j + 6) ≤ 3 * k) :
    2 * (m * one) < Nat.pow 10 k := by
  have hm : m < Nat.pow 2 (m.log2 + 1) := Nat.lt_log2_self
  have hpos : 0 < one := hone ▸ pow_two_pos j
  calc 2 * (m * one) < 2 * (Nat.pow 2 (m.log2 + 1) * one) :=
        Nat.mul_lt_mul_of_pos_left (Nat.mul_lt_mul_of_pos_right hm hpos) (by decide)
    _ = Nat.pow 2 (1 + (m.log2 + 1 + j)) := by
        rw [hone, pow_add_mul 1, pow_add_mul (m.log2 + 1)]
    _ ≤ Nat.pow 2 (3 * k) := Nat.pow_le_pow_right (by decide) (by omega)
    _ ≤ Nat.pow 10 k := pow_two_le_pow_ten k

theorem limit_le_mul {limit one m j k l : Nat} (hlimit : limit = Nat.pow 2 l)
    (hone : one = Nat.pow 2 j) (hm : 0 < m) (h : l ≤ 3 * k + j) :
    limit ≤ m * Nat.pow 10 k * one := by
  calc limit = Nat.pow 2 l := hlimit
    _ ≤ Nat.pow 2 (3 * k + j) := Nat.pow_le_pow_right (by decide) h
    _ = Nat.pow 2 (3 * k) * one := by rw [hone, pow_add_mul]
    _ ≤ m * Nat.pow 10 k * one :=
        Nat.mul_le_mul_right _ (Nat.le_trans (pow_two_le_pow_ten k) (Nat.le_mul_of_pos_left _ hm))

/-! ### Rounding a quotient -/

theorem roundDiv_mul_mul {c : Nat} (h : 0 < c) (a b : Nat) :
    roundDiv (a * c) (b * c) = roundDiv a b := by
  have hq : a * c / (b * c) = a / b := Nat.mul_div_mul_right a b h
  have hr : 2 * (a * c % (b * c)) = 2 * (a % b) * c := by
    rw [Nat.mul_mod_mul_right, Nat.mul_assoc]
  simp only [roundDiv, hq, hr, Nat.mul_lt_mul_right h]

theorem roundSteps_mul_mul {c : Nat} (h : 0 < c) (a b : Nat) :
    roundSteps (a * c) (b * c) = roundSteps a b := by
  have hq : a * c / (b * c) = a / b := Nat.mul_div_mul_right a b h
  simp only [roundSteps, hq]
  rw [Nat.mul_right_comm b c, roundDiv_mul_mul h]

/-- Equal quotients are rounded alike. -/
theorem roundSteps_eq_of_cross {a b c d : Nat} (hb : 0 < b) (hd : 0 < d) (h : a * d = c * b) :
    roundSteps a b = roundSteps c d := by
  rw [← roundSteps_mul_mul hd a b, h, Nat.mul_comm b d, roundSteps_mul_mul hb]

theorem roundDiv_eq_zero {a b : Nat} (h : 2 * a < b) : roundDiv a b = 0 := by
  have hlt : a < b := by omega
  rw [roundDiv, Nat.mod_eq_of_lt hlt, if_pos h, Nat.div_eq_of_lt hlt]

/-- Less than half a step is no step. -/
theorem roundSteps_eq_zero {a b : Nat} (h : 2 * a < b) : roundSteps a b = 0 := by
  have hq : a / b = 0 := Nat.div_eq_of_lt (by omega)
  have hb : b * Nat.pow 2 (excess 0) = b := Nat.mul_one b
  simp only [roundSteps, hq, hb, roundDiv_eq_zero h, Nat.zero_mul]

theorem div_le_roundDiv (a b : Nat) : a / b ≤ roundDiv a b := by
  unfold roundDiv
  repeat' split
  all_goals omega

/-- Rounding keeps the leading bit. -/
theorem le_roundSteps {a b n k : Nat} (hn : n = Nat.pow 2 k) (h : n ≤ a / b) :
    n ≤ roundSteps a b := by
  subst hn
  have hpos : 0 < Nat.pow 2 k := pow_two_pos k
  have hne : a / b ≠ 0 := by omega
  have hk : k ≤ (a / b).log2 := (Nat.le_log2 hne).mpr h
  have he : excess (a / b) ≤ (a / b).log2 := Nat.sub_le _ _
  have hself : Nat.pow 2 (a / b).log2 ≤ a / b := Nat.log2_self_le hne
  -- The leading bit is a multiple of what is cut off.
  have hsplit : Nat.pow 2 ((a / b).log2 - excess (a / b)) * Nat.pow 2 (excess (a / b)) =
      Nat.pow 2 (a / b).log2 := by
    rw [← pow_add_mul, Nat.sub_add_cancel he]
  have hdiv : Nat.pow 2 ((a / b).log2 - excess (a / b)) ≤ a / (b * Nat.pow 2 (excess (a / b))) := by
    rw [← Nat.div_div_eq_div_mul, Nat.le_div_iff_mul_le (pow_two_pos _), hsplit]
    exact hself
  calc Nat.pow 2 k ≤ Nat.pow 2 (a / b).log2 := Nat.pow_le_pow_right (by decide) hk
    _ = Nat.pow 2 ((a / b).log2 - excess (a / b)) * Nat.pow 2 (excess (a / b)) := hsplit.symm
    _ ≤ roundSteps a b := Nat.mul_le_mul_right _ (Nat.le_trans hdiv (div_le_roundDiv _ _))

namespace Double

theorem ofSteps_of_held {n : Nat} (h : Held n) (negative : Bool)
    (aligned : Nat.pow 2 (excess n) ∣ n) : ofSteps negative n aligned = finite negative n h := by
  rw [ofSteps, dif_pos h.2]

theorem ofSteps_of_limit_le {n : Nat} (h : stepLimit ≤ n) (negative : Bool)
    (aligned : Nat.pow 2 (excess n) ∣ n) : ofSteps negative n aligned = infinite negative := by
  rw [ofSteps, dif_neg (Nat.not_lt.mpr h)]

theorem round_congr {a b c d : Nat} (h : roundSteps a b = roundSteps c d) (negative : Bool) :
    round negative a b = round negative c d := by
  simp only [round, h]

theorem round_of_held {a b n : Nat} (h : Held n) (hr : roundSteps a b = n) (negative : Bool) :
    round negative a b = finite negative n h := by
  subst hr
  exact ofSteps_of_held h negative _

theorem round_of_limit_le {a b : Nat} (h : stepLimit ≤ roundSteps a b) (negative : Bool) :
    round negative a b = infinite negative := ofSteps_of_limit_le h negative _

theorem round_cases (negative : Bool) (a b : Nat) :
    round negative a b = infinite negative ∨ ∃ n h, round negative a b = finite negative n h := by
  by_cases h : roundSteps a b < stepLimit
  · have hheld : Held (roundSteps a b) := ⟨dvd_roundSteps a b, h⟩
    exact .inr ⟨_, hheld, round_of_held hheld rfl negative⟩
  · exact .inl (round_of_limit_le (Nat.not_lt.mp h) negative)

end Double

namespace Decimal

theorem denominator_pos (d : Decimal) : 0 < d.denominator := Nat.pow_pos (by decide)

/-! ### Exponents far off -/

theorem roundSteps_of_isTiny {d : Decimal} (h : d.isTiny = true) :
    roundSteps d.numerator d.denominator = 0 := by
  apply roundSteps_eq_zero
  rw [isTiny, Bool.or_eq_true, decide_eq_true_eq, decide_eq_true_eq] at h
  rcases h with h0 | h
  · have hn : d.numerator = 0 := by rw [numerator, h0, Nat.zero_mul, Nat.zero_mul]
    have := d.denominator_pos
    omega
  · obtain ⟨m, e⟩ := d
    obtain ⟨k, rfl⟩ : ∃ k : Nat, e = -k := ⟨(-e).toNat, by simp only at h; omega⟩
    have hexp : (-(k : Int)).toNat = 0 := by omega
    have hden : (- -(k : Int)).toNat = k := by omega
    simp only at h
    have hone : Nat.pow 10 0 = 1 := rfl
    simp only [numerator, denominator, hexp, hden, hone, Nat.mul_one]
    exact double_mul_lt oneSteps_eq (by omega)

theorem limit_le_of_isHuge {d : Decimal} (h : d.isHuge = true) :
    stepLimit ≤ roundSteps d.numerator d.denominator := by
  rw [isHuge, Bool.and_eq_true, decide_eq_true_eq, decide_eq_true_eq] at h
  obtain ⟨hpos, he⟩ := h
  have hden : d.denominator = 1 := by
    have hexp : (-d.exponent).toNat = 0 := by omega
    rw [denominator, hexp, Nat.pow_eq, Nat.pow_zero]
  rw [hden]
  refine le_roundSteps stepLimit_eq ?_
  rw [Nat.div_one]
  exact limit_le_mul stepLimit_eq oneSteps_eq hpos (by omega)

/-- Rounding gives every answer. -/
theorem toDouble_eq_round (negative : Bool) (d : Decimal) :
    d.toDouble negative = .round negative d.numerator d.denominator := by
  unfold toDouble
  split
  · exact (Double.round_of_held held_zero (roundSteps_of_isTiny ‹_›) negative).symm
  · split
    · exact (Double.round_of_limit_le (limit_le_of_isHuge ‹_›) negative).symm
    · rfl

/-! ### Zeros between digits and exponent -/

theorem roundSteps_shift (m k : Nat) (e : Int) :
    roundSteps (numerator ⟨m * Nat.pow 10 k, e⟩) (denominator ⟨m * Nat.pow 10 k, e⟩) =
      roundSteps (numerator ⟨m, e + k⟩) (denominator ⟨m, e + k⟩) := by
  refine roundSteps_eq_of_cross (denominator_pos _) (denominator_pos _) ?_
  have hadd : ∀ i j, Nat.pow 10 (i + j) = Nat.pow 10 i * Nat.pow 10 j := Nat.pow_add 10
  have hexp : k + e.toNat + (-(e + k)).toNat = (e + k).toNat + (-e).toNat := by omega
  have hpow := congrArg (Nat.pow 10) hexp
  rw [hadd, hadd, hadd] at hpow
  simp only [numerator, denominator]
  generalize oneSteps = one
  calc m * Nat.pow 10 k * Nat.pow 10 e.toNat * one * Nat.pow 10 (-(e + k)).toNat
      = m * one * (Nat.pow 10 k * Nat.pow 10 e.toNat * Nat.pow 10 (-(e + k)).toNat) := by
        ac_rfl
    _ = m * one * (Nat.pow 10 (e + k).toNat * Nat.pow 10 (-e).toNat) := by rw [hpow]
    _ = m * Nat.pow 10 (e + k).toNat * one * Nat.pow 10 (-e).toNat := by ac_rfl

theorem toDouble_shift (negative : Bool) (m k : Nat) (e : Int) :
    toDouble negative ⟨m * Nat.pow 10 k, e⟩ = toDouble negative ⟨m, e + k⟩ := by
  rw [toDouble_eq_round, toDouble_eq_round]
  exact Double.round_congr (roundSteps_shift m k e) negative

theorem toDouble_dropZeros (negative : Bool) (n : Nat) (d : Decimal) :
    (dropZeros n d).toDouble negative = d.toDouble negative := by
  induction n generalizing d with
  | zero => rfl
  | succ n ih =>
    unfold dropZeros
    split
    · rename_i h
      have hdigits : d.digits / 10 * Nat.pow 10 1 = d.digits :=
        Nat.div_mul_cancel (Nat.dvd_of_mod_eq_zero h.1)
      have hshift := toDouble_shift negative (d.digits / 10) 1 d.exponent
      rw [hdigits] at hshift
      rw [ih]
      exact hshift.symm
    · rfl

theorem toDouble_normal (negative : Bool) (d : Decimal) :
    d.normal.toDouble negative = d.toDouble negative := toDouble_dropZeros negative _ d

end Decimal

end StackLang
