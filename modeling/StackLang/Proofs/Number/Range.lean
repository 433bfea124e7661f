import StackLang.Proofs.Number.Decimals
import StackLang.Value.Conversion

/-! # Integers in the range of doubles

The finite doubles end below 2^1024, the largest being 2^1024 - 2^971. An integer is rounded to
a finite double up to the middle between these two, which is rounded up. -/

namespace StackLang

/-- The middle between `2^(54 + k)` and the number with 53 significant bits below it. -/
def middleBelow (k : Nat) : Nat := (Nat.pow 2 54 - 1) * Nat.pow 2 k

/-- The middle between the largest finite double and 2^1024. -/
def overflowBound : Nat := middleBelow 970

theorem middleBelow_add (k j : Nat) : middleBelow (k + j) = middleBelow k * Nat.pow 2 j := by
  rw [middleBelow, middleBelow, pow_add_mul, Nat.mul_assoc]

theorem roundSteps_one (a : Nat) :
    roundSteps a 1 = roundDiv a (Nat.pow 2 (excess a)) * Nat.pow 2 (excess a) := by
  simp only [roundSteps, Nat.div_one, Nat.one_mul]

theorem excess_eq {a k : Nat} (hlow : Nat.pow 2 (52 + k) ≤ a) (hhigh : a < Nat.pow 2 (53 + k)) :
    excess a = k := by
  have hne : a ≠ 0 := by
    have hpos := pow_two_pos (52 + k)
    omega
  have hlog : 52 + k ≤ a.log2 := (Nat.le_log2 hne).mpr hlow
  have hle := excess_le_of_lt hhigh
  unfold excess at hle ⊢
  omega

/-- A quotient in the middle above an odd number is rounded up. -/
theorem lt_roundDiv_iff {a b n : Nat} (hb : 0 < b) (hn : n % 2 = 1) :
    n < roundDiv a (2 * b) ↔ (2 * n + 1) * b ≤ a := by
  have ha : a = 2 * (b * (a / (2 * b))) + a % (2 * b) := by
    rw [← Nat.mul_assoc, Nat.div_add_mod]
  have hr : a % (2 * b) < 2 * b := Nat.mod_lt a (by omega)
  have hmiddle : (2 * n + 1) * b = 2 * (b * n) + b := by
    rw [Nat.add_mul, Nat.one_mul, Nat.mul_assoc, Nat.mul_comm n]
  unfold roundDiv
  generalize a / (2 * b) = q at ha ⊢
  generalize a % (2 * b) = r at ha hr ⊢
  rw [hmiddle, ha]
  obtain hq | rfl | hq := Nat.lt_trichotomy q n
  · have hle : b * q + b ≤ b * n := Nat.mul_le_mul_left b hq
    repeat' split
    all_goals omega
  · repeat' split
    all_goals omega
  · have hle : b * n + b ≤ b * q := Nat.mul_le_mul_left b hq
    repeat' split
    all_goals omega

/-- A number of steps is rounded up to a power of two from the middle below it on. -/
theorem le_roundSteps_one_iff {a k : Nat} :
    Nat.pow 2 (54 + k) ≤ roundSteps a 1 ↔ middleBelow k ≤ a := by
  rw [middleBelow]
  have hk := pow_two_pos k
  have hhalf : Nat.pow 2 (53 + k) = Nat.pow 2 53 * Nat.pow 2 k := pow_add_mul 53 k
  have hwhole : Nat.pow 2 (54 + k) = Nat.pow 2 54 * Nat.pow 2 k := pow_add_mul 54 k
  by_cases hhigh : Nat.pow 2 (54 + k) ≤ a
  · have hle : Nat.pow 2 (54 + k) ≤ roundSteps a 1 := le_roundSteps rfl (by rwa [Nat.div_one])
    have hmul : (Nat.pow 2 54 - 1) * Nat.pow 2 k ≤ Nat.pow 2 54 * Nat.pow 2 k :=
      Nat.mul_le_mul_right _ (Nat.sub_le _ _)
    exact iff_of_true hle (Nat.le_trans hmul (hwhole ▸ hhigh))
  by_cases hlow : Nat.pow 2 (53 + k) ≤ a
  · have he : excess a = k + 1 := by
      refine excess_eq ?_ ?_
      · rwa [show 52 + (k + 1) = 53 + k by omega]
      · rwa [show 53 + (k + 1) = 54 + k by omega, ← Nat.not_le]
    have htwo : Nat.pow 2 (k + 1) = 2 * Nat.pow 2 k := by rw [Nat.add_comm, pow_add_mul]
    have hsplit : Nat.pow 2 (54 + k) = Nat.pow 2 53 * (2 * Nat.pow 2 k) := by
      rw [← htwo, ← pow_add_mul]
      congr 1
      omega
    rw [roundSteps_one, he, htwo, hsplit, Nat.mul_le_mul_right_iff (by omega)]
    exact lt_roundDiv_iff (n := Nat.pow 2 53 - 1) hk (by decide)
  · have he : excess a ≤ k := excess_le_of_lt (Nat.not_le.mp hlow)
    have hround : roundSteps a 1 ≤ Nat.pow 2 (53 + k) := by
      have hdiv := roundDiv_le_pow a 1
      rw [Nat.div_one, Nat.one_mul] at hdiv
      rw [roundSteps_one, hhalf]
      exact Nat.mul_le_mul hdiv (Nat.pow_le_pow_right (by decide) he)
    have hmul : Nat.pow 2 53 * Nat.pow 2 k ≤ (Nat.pow 2 54 - 1) * Nat.pow 2 k :=
      Nat.mul_le_mul_right _ (by decide)
    have hdouble : Nat.pow 2 (54 + k) = 2 * Nat.pow 2 (53 + k) := by
      rw [show 54 + k = 1 + (53 + k) by omega, pow_add_mul]
    have hpos := pow_two_pos (53 + k)
    exact iff_of_false (by omega) (by omega)

theorem limit_le_roundSteps_iff {limit one j k l m : Nat} (hone : one = Nat.pow 2 j)
    (hlimit : limit = Nat.pow 2 l) (hl : l = 54 + (k + j)) :
    limit ≤ roundSteps (m * one) 1 ↔ middleBelow k ≤ m := by
  rw [hlimit, hl, le_roundSteps_one_iff, hone, middleBelow_add,
    Nat.mul_le_mul_right_iff (pow_two_pos j)]

namespace Double

theorem isFinite_round_iff (negative : Bool) (a b : Nat) :
    (round negative a b).isFinite ↔ roundSteps a b < stepLimit := by
  by_cases h : roundSteps a b < stepLimit
  · have hheld : Held (roundSteps a b) := ⟨dvd_roundSteps a b, h⟩
    rw [round_of_held hheld rfl]
    exact iff_of_true rfl h
  · rw [round_of_limit_le (Nat.not_lt.mp h)]
    exact iff_of_false Bool.false_ne_true h

end Double

namespace Value

/-- An integer is too large for a double from the middle between the largest one and 2^1024 on. -/
theorem doubleOfInt?_eq_none_iff {n : Int} :
    doubleOfInt? n = none ↔ overflowBound ≤ n.natAbs := by
  have hnone : doubleOfInt? n = none ↔ ¬ (Double.ofInt n).isFinite := by
    rw [doubleOfInt?]
    split <;> simp [*]
  rw [hnone, Double.ofInt, Double.isFinite_round_iff, Nat.not_lt]
  exact limit_le_roundSteps_iff oneSteps_eq stepLimit_eq rfl

end Value

end StackLang
