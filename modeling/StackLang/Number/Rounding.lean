/-!
# Rounding to whole steps

Magnitudes are whole numbers of steps, a step being 2^-1074, the least positive double. A double
keeps 53 significant bits of its number of steps and stays below 2^1024. Quotients are rounded to
the nearest such number, a tie going to the even neighbour; what comes out is always `Held`, and
what is `Held` is left alone.
-/

namespace StackLang

/-- Steps in one. -/
def oneSteps : Nat := Nat.pow 2 1074

/-- The first number of steps that is too large for a finite double. -/
def stepLimit : Nat := Nat.pow 2 2098

/-- How many low bits of a number of steps a double cannot keep. -/
def excess (n : Nat) : Nat := n.log2 - 52

def Held (n : Nat) : Prop := Nat.pow 2 (excess n) ∣ n ∧ n < stepLimit

instance (n : Nat) : Decidable (Held n) := inferInstanceAs (Decidable (_ ∧ _))

theorem pow_two_pos (k : Nat) : 0 < Nat.pow 2 k := Nat.two_pow_pos k

theorem stepLimit_pos : 0 < stepLimit := by decide +kernel

theorem held_zero : Held 0 := ⟨by simp [excess], stepLimit_pos⟩

/-- The whole number nearest to `a / b`, the even one of two that are equally near. -/
def roundDiv (a b : Nat) : Nat :=
  if 2 * (a % b) < b then a / b
  else if b < 2 * (a % b) then a / b + 1
  else if a / b % 2 = 0 then a / b
  else a / b + 1

/-- The number of steps nearest to `a / b` among those with 53 significant bits. -/
def roundSteps (a b : Nat) : Nat :=
  let k := excess (a / b)
  roundDiv a (b * Nat.pow 2 k) * Nat.pow 2 k

theorem roundDiv_le (a b : Nat) : roundDiv a b ≤ a / b + 1 := by
  unfold roundDiv
  split
  · omega
  · split
    · omega
    · split <;> omega

theorem roundDiv_mul_right {b : Nat} (h : 0 < b) (a : Nat) : roundDiv (a * b) b = a := by
  simp [roundDiv, Nat.mul_div_cancel a h, h]

theorem pow_add_mul (j k : Nat) : Nat.pow 2 (j + k) = Nat.pow 2 j * Nat.pow 2 k := Nat.pow_add 2 j k

theorem lt_two_pow_excess (n : Nat) : n < Nat.pow 2 (53 + excess n) :=
  Nat.lt_of_lt_of_le Nat.lt_log2_self
    (Nat.pow_le_pow_right (by decide) (by unfold excess; omega))

theorem excess_le_of_lt {n k : Nat} (h : n < Nat.pow 2 (53 + k)) : excess n ≤ k := by
  by_cases h0 : n = 0
  · simp [h0, excess]
  · have := (Nat.log2_lt h0).2 h
    unfold excess
    omega

theorem excess_two_pow (k : Nat) : excess (Nat.pow 2 (53 + k)) = k + 1 := by
  have h : (Nat.pow 2 (53 + k)).log2 = 53 + k := Nat.log2_two_pow
  rw [excess, h]
  omega

theorem dvd_excess_of_le {m k : Nat} (h : m ≤ Nat.pow 2 53) :
    Nat.pow 2 (excess (m * Nat.pow 2 k)) ∣ m * Nat.pow 2 k := by
  by_cases he : m = Nat.pow 2 53
  · rw [he, ← pow_add_mul, excess_two_pow]
    exact Nat.pow_dvd_pow 2 (by omega)
  · have hlt : m * Nat.pow 2 k < Nat.pow 2 (53 + k) := by
      rw [pow_add_mul]
      exact Nat.mul_lt_mul_of_pos_right (Nat.lt_of_le_of_ne h he) (pow_two_pos k)
    exact Nat.dvd_trans (Nat.pow_dvd_pow 2 (excess_le_of_lt hlt)) (Nat.dvd_mul_left _ _)

theorem roundDiv_le_pow (a b : Nat) :
    roundDiv a (b * Nat.pow 2 (excess (a / b))) ≤ Nat.pow 2 53 := by
  refine Nat.le_trans (roundDiv_le a _) (Nat.succ_le_of_lt ?_)
  rw [← Nat.div_div_eq_div_mul]
  apply Nat.div_lt_of_lt_mul
  rw [Nat.mul_comm, ← pow_add_mul]
  exact lt_two_pow_excess (a / b)

theorem dvd_roundSteps (a b : Nat) : Nat.pow 2 (excess (roundSteps a b)) ∣ roundSteps a b :=
  dvd_excess_of_le (roundDiv_le_pow a b)

/-- A number of steps with no more than 53 significant bits is its own rounding. -/
theorem roundSteps_of_dvd {n : Nat} (h : Nat.pow 2 (excess n) ∣ n) {b : Nat} (hb : 0 < b) :
    roundSteps (n * b) b = n := by
  obtain ⟨m, hm⟩ := h
  have hq : n * b / b = n := Nat.mul_div_cancel n hb
  have hn : n * b = m * (b * Nat.pow 2 (excess n)) := by
    calc n * b = Nat.pow 2 (excess n) * m * b := by rw [← hm]
      _ = m * (b * Nat.pow 2 (excess n)) := by
        rw [Nat.mul_comm (Nat.pow 2 (excess n)) m, Nat.mul_assoc,
          Nat.mul_comm (Nat.pow 2 (excess n)) b]
  have hr : roundDiv (n * b) (b * Nat.pow 2 (excess n)) = m := by
    rw [hn, roundDiv_mul_right (Nat.mul_pos hb (pow_two_pos _))]
  simp only [roundSteps, hq]
  rw [hr, Nat.mul_comm]
  exact hm.symm

/-- So is one that a double holds. -/
theorem roundSteps_of_held {n : Nat} (h : Held n) {b : Nat} (hb : 0 < b) :
    roundSteps (n * b) b = n := roundSteps_of_dvd h.1 hb

end StackLang
