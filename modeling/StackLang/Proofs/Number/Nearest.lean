import Mathlib.Data.Nat.Factorization.Basic
import StackLang.Machine.Exec
import StackLang.Proofs.Number.Order

/-! # Integers made doubles and integers again

An integer that is made a double comes back as the nearest integer that has no more than 53
significant bits. Integers beyond the doubles are refused. -/

namespace StackLang

/-- No more than 53 bits from the first one to the last. -/
def IsShort (n : Nat) : Prop := ∃ m k, m < Nat.pow 2 53 ∧ n = m * Nat.pow 2 k

/-! ### Rounding to the nearest -/

/-- A rounded quotient is no farther off than another whole number. -/
theorem roundDiv_nearest (a : Nat) {d : Nat} (hd : 0 < d) (c : Nat) :
    ((roundDiv a d * d : Nat) - a : Int).natAbs ≤ ((c * d : Nat) - a : Int).natAbs := by
  have ha : d * (a / d) + a % d = a := Nat.div_add_mod a d
  have hr : a % d < d := Nat.mod_lt a hd
  unfold roundDiv
  generalize a / d = q at ha ⊢
  generalize a % d = r at ha hr ⊢
  have hnext : (q + 1) * d = d * q + d := by rw [Nat.succ_mul, Nat.mul_comm]
  have hthis : q * d = d * q := Nat.mul_comm q d
  -- The other one is below the quotient or above it.
  obtain hc | hc := Nat.lt_or_ge q c
  · have hle : (q + 1) * d ≤ c * d := Nat.mul_le_mul_right d hc
    repeat' split
    all_goals omega
  · have hle : c * d ≤ q * d := Nat.mul_le_mul_right d hc
    repeat' split
    all_goals omega

theorem isShort_mul_pow {m : Nat} (hm : m ≤ Nat.pow 2 53) (k : Nat) : IsShort (m * Nat.pow 2 k) := by
  obtain rfl | hlt := Nat.eq_or_lt_of_le hm
  · refine ⟨1, 53 + k, by decide, ?_⟩
    rw [Nat.one_mul, pow_add_mul]
  · exact ⟨m, k, hlt, rfl⟩

theorem isShort_roundSteps (a : Nat) : IsShort (roundSteps a 1) := by
  have hle := roundDiv_le_pow a 1
  rw [Nat.div_one, Nat.one_mul] at hle
  rw [roundSteps_one]
  exact isShort_mul_pow hle _

theorem pow_le_of_excess {a k : Nat} (hk : 0 < k) (he : excess a = k) : Nat.pow 2 (52 + k) ≤ a := by
  unfold excess at he
  have hne : a ≠ 0 := by
    rintro rfl
    rw [Nat.log2_zero] at he
    omega
  exact (Nat.le_log2 hne).mp (by omega)

/-- Rounding gives the nearest number that is short. One with a lower last bit is below the leading
bit, which is a candidate, too. -/
theorem roundSteps_nearest (a : Nat) {b : Nat} (hb : IsShort b) :
    ((roundSteps a 1 : Nat) - a : Int).natAbs ≤ ((b : Nat) - a : Int).natAbs := by
  obtain ⟨m, e, hm, rfl⟩ := hb
  rw [roundSteps_one]
  obtain ⟨k, hk⟩ : ∃ k, excess a = k := ⟨_, rfl⟩
  rw [hk]
  obtain hlt | hle := Nat.lt_or_ge e k
  · have hlead : Nat.pow 2 52 * Nat.pow 2 k ≤ a := by
      rw [← pow_add_mul]
      exact pow_le_of_excess (by omega) hk
    have hbelow : m * Nat.pow 2 e ≤ Nat.pow 2 52 * Nat.pow 2 k :=
      calc m * Nat.pow 2 e ≤ Nat.pow 2 53 * Nat.pow 2 e := Nat.mul_le_mul_right _ (Nat.le_of_lt hm)
        _ = Nat.pow 2 (53 + e) := (pow_add_mul 53 e).symm
        _ ≤ Nat.pow 2 (52 + k) := Nat.pow_le_pow_right (by decide) (by omega)
        _ = Nat.pow 2 52 * Nat.pow 2 k := pow_add_mul 52 k
    have hnear := roundDiv_nearest a (pow_two_pos k) (Nat.pow 2 52)
    omega
  · have hsplit : m * Nat.pow 2 e = m * Nat.pow 2 (e - k) * Nat.pow 2 k := by
      rw [Nat.mul_assoc, ← pow_add_mul, Nat.sub_add_cancel hle]
    rw [hsplit]
    exact roundDiv_nearest a (pow_two_pos k) _

theorem roundSteps_eq_self_iff {a : Nat} : roundSteps a 1 = a ↔ IsShort a := by
  constructor
  · intro h
    exact h ▸ isShort_roundSteps a
  · intro h
    have hnear := roundSteps_nearest a h
    omega

/-- Less than half a divisor from a multiple of it, a number is rounded to that multiple. -/
theorem roundDiv_of_near {a d m : Nat} (h : 2 * ((a : Int) - (m * d : Nat)).natAbs < d) :
    roundDiv a d = m := by
  have ha : d * (a / d) + a % d = a := Nat.div_add_mod a d
  have hr : a % d < d := Nat.mod_lt a (by omega)
  rw [Nat.mul_comm m d] at h
  unfold roundDiv
  generalize a / d = q at ha ⊢
  generalize a % d = r at ha hr ⊢
  obtain hq | rfl | hq := Nat.lt_trichotomy q m
  · have hle : d * (q + 1) ≤ d * m := Nat.mul_le_mul_left d hq
    have heq : m = q + 1 := by
      refine Decidable.byContradiction fun hne => ?_
      have hfar : d * (q + 2) ≤ d * m := Nat.mul_le_mul_left d (by omega)
      rw [Nat.mul_add] at hle hfar
      omega
    subst heq
    rw [Nat.mul_succ] at h
    rw [if_neg (by omega), if_pos (by omega)]
  · rw [if_pos (by omega)]
  · have hle : d * (m + 1) ≤ d * q := Nat.mul_le_mul_left d hq
    rw [Nat.mul_succ] at hle
    omega

/-- Rounding is off by half a divisor at the most. -/
theorem roundDiv_half (a : Nat) {d : Nat} (hd : 0 < d) :
    2 * ((roundDiv a d * d : Nat) - a : Int).natAbs ≤ d := by
  have ha : d * (a / d) + a % d = a := Nat.div_add_mod a d
  have hr : a % d < d := Nat.mod_lt a hd
  unfold roundDiv
  generalize a / d = q at ha ⊢
  generalize a % d = r at ha hr ⊢
  have hnext : (q + 1) * d = d * q + d := by rw [Nat.succ_mul, Nat.mul_comm]
  have hthis : q * d = d * q := Nat.mul_comm q d
  repeat' split
  all_goals omega

theorem two_pow_52 : Nat.pow 2 52 = 4503599627370496 := rfl

theorem two_pow_53 : Nat.pow 2 53 = 9007199254740992 := rfl

theorem two_pow_54 : Nat.pow 2 54 = 18014398509481984 := rfl

theorem exists_mul_pow_excess {n : Nat} (h : Nat.pow 2 (excess n) ∣ n) :
    ∃ m, m < Nat.pow 2 53 ∧ n = m * Nat.pow 2 (excess n) := by
  obtain ⟨m, hm⟩ := h
  rw [Nat.mul_comm] at hm
  refine ⟨m, ?_, hm⟩
  have hhigh := lt_two_pow_excess n
  rw [pow_add_mul] at hhigh
  exact Nat.lt_of_mul_lt_mul_right (Nat.lt_of_le_of_lt (Nat.le_of_eq hm.symm) hhigh)

section Near

/-! A quotient that is off from a number of steps by less than a part in 2^54 is rounded to it. -/

variable {a b n : Nat} (hn : Nat.pow 2 (excess n) ∣ n)
  (h : Nat.pow 2 54 * ((a : Int) - (n * b : Nat)).natAbs < n * b)
include hn h

theorem excess_le_of_near : excess (a / b) ≤ excess n := by
  refine Nat.not_lt.mp fun hlt => ?_
  have hb : 0 < b := Nat.pos_of_mul_pos_left (Nat.lt_of_le_of_lt (Nat.zero_le _) h)
  obtain ⟨m, hm, hsplit⟩ := exists_mul_pow_excess hn
  generalize excess n = k at hlt hsplit
  subst hsplit
  have hquot := pow_le_of_excess (Nat.zero_lt_of_lt hlt) rfl
  rw [Nat.le_div_iff_mul_le hb] at hquot
  have hpow : Nat.pow 2 (53 + k) ≤ Nat.pow 2 (52 + excess (a / b)) :=
    Nat.pow_le_pow_right (by decide) (by omega)
  have hle : Nat.pow 2 53 * (Nat.pow 2 k * b) ≤ a := by
    rw [← Nat.mul_assoc, ← pow_add_mul]
    exact Nat.le_trans (Nat.mul_le_mul_right b hpow) hquot
  have hmul : m * (Nat.pow 2 k * b) ≤ (Nat.pow 2 53 - 1) * (Nat.pow 2 k * b) :=
    Nat.mul_le_mul_right _ (by omega)
  rw [Nat.mul_assoc] at h
  generalize Nat.pow 2 k * b = d at h hle hmul
  rw [two_pow_54] at h
  rw [two_pow_53] at hle hmul
  omega

/-- Where the quotient has fewer bits to lose, the number is the power of two above it. -/
theorem le_pow_of_near : n ≤ Nat.pow 2 (53 + excess (a / b)) := by
  have hb : 0 < b := Nat.pos_of_mul_pos_left (Nat.lt_of_le_of_lt (Nat.zero_le _) h)
  obtain heq | hlt := Nat.eq_or_lt_of_le (excess_le_of_near hn h)
  · rw [heq]
    exact Nat.le_of_lt (lt_two_pow_excess n)
  have hquot := lt_two_pow_excess (a / b)
  rw [Nat.div_lt_iff_lt_mul hb] at hquot
  generalize excess (a / b) = j at hlt hquot ⊢
  obtain ⟨t, rfl⟩ : Nat.pow 2 (1 + j) ∣ n :=
    Nat.dvd_trans (Nat.pow_dvd_pow 2 (by omega)) hn
  have hhalf : Nat.pow 2 (53 + j) = Nat.pow 2 52 * Nat.pow 2 (1 + j) := by
    rw [← pow_add_mul, ← Nat.add_assoc]
  rw [hhalf] at hquot ⊢
  rw [Nat.mul_comm _ t] at h ⊢
  refine Nat.mul_le_mul_right _ (Nat.not_lt.mp fun hbig => ?_)
  rw [Nat.mul_assoc] at h hquot
  generalize Nat.pow 2 (1 + j) * b = d at h hquot
  have hmul : (Nat.pow 2 52 + 1) * d ≤ t * d := Nat.mul_le_mul_right d hbig
  rw [two_pow_54] at h
  rw [two_pow_52] at hquot hmul
  omega

theorem roundSteps_of_near : roundSteps a b = n := by
  obtain ⟨m, hm⟩ : Nat.pow 2 (excess (a / b)) ∣ n :=
    Nat.dvd_trans (Nat.pow_dvd_pow 2 (excess_le_of_near hn h)) hn
  rw [Nat.mul_comm] at hm
  have hle : m ≤ Nat.pow 2 53 := by
    have hpow := le_pow_of_near hn h
    rw [pow_add_mul] at hpow
    exact Nat.le_of_mul_le_mul_right (Nat.le_trans (Nat.le_of_eq hm.symm) hpow) (pow_two_pos _)
  have hsplit : n * b = m * (b * Nat.pow 2 (excess (a / b))) := by
    rw [Nat.mul_comm b, ← Nat.mul_assoc, ← hm]
  rw [hsplit] at h
  rw [roundSteps, roundDiv_of_near (m := m), ← hm]
  generalize b * Nat.pow 2 (excess (a / b)) = d at h ⊢
  have hmul : m * d ≤ Nat.pow 2 53 * d := Nat.mul_le_mul_right d hle
  rw [two_pow_54] at h
  rw [two_pow_53] at hmul
  omega

end Near

/-- Whole numbers of ones are rounded as the numbers are. -/
theorem roundSteps_mul {one j : Nat} (hone : one = Nat.pow 2 j) (a : Nat) :
    roundSteps (a * one) 1 = roundSteps a 1 * one := by
  obtain hsmall | hlarge := Nat.lt_or_ge a (Nat.pow 2 53)
  · have hshort : IsShort a := ⟨a, 0, hsmall, (Nat.mul_one a).symm⟩
    rw [roundSteps_of_le hone (Nat.le_of_lt hsmall), roundSteps_eq_self_iff.mpr hshort]
  · obtain ⟨k, hk⟩ : ∃ k, excess a = k := ⟨_, rfl⟩
    have hpos : 0 < k := by
      refine Nat.pos_of_ne_zero fun hzero => ?_
      have hlt := lt_two_pow_excess a
      rw [hk, hzero] at hlt
      exact Nat.not_lt.mpr hlarge hlt
    have hhigh : a < Nat.pow 2 (53 + k) := hk ▸ lt_two_pow_excess a
    have he : excess (a * one) = k + j := by
      refine excess_eq ?_ ?_
      · rw [← Nat.add_assoc, pow_add_mul, hone]
        exact Nat.mul_le_mul_right _ (pow_le_of_excess hpos hk)
      · rw [← Nat.add_assoc, pow_add_mul, hone]
        exact Nat.mul_lt_mul_of_pos_right hhigh (pow_two_pos j)
    rw [roundSteps_one, roundSteps_one, he, hk, pow_add_mul, ← hone,
      roundDiv_mul_mul (hone ▸ pow_two_pos j), Nat.mul_assoc]

/-- What is short is an odd number of few bits with zeros behind it. -/
theorem isShort_natAbs_iff {n : Int} : IsShort n.natAbs ↔ n = 0 ∨
    ∃ (m : Int) (k : Nat), m % 2 = 1 ∧ m.natAbs < Nat.pow 2 53 ∧ n = m * (Nat.pow 2 k : Nat) := by
  constructor
  · rintro ⟨m, k, hm, hn⟩
    by_cases h0 : m = 0
    · rw [h0, Nat.zero_mul] at hn
      exact .inl (Int.natAbs_eq_zero.mp hn)
    · obtain ⟨j, o, ho, rfl⟩ := Nat.exists_eq_two_pow_mul_odd h0
      have hodd : o < Nat.pow 2 53 :=
        Nat.lt_of_le_of_lt (Nat.le_mul_of_pos_left o (Nat.two_pow_pos j)) hm
      have hn' : n.natAbs = o * Nat.pow 2 (j + k) := by
        rw [hn, pow_add_mul, Nat.mul_comm (2 ^ j) o, Nat.mul_assoc]
        rfl
      have ho' : o % 2 = 1 := Nat.odd_iff.mp ho
      refine .inr ?_
      obtain h | h := Int.natAbs_eq n
      · refine ⟨o, j + k, by omega, hodd, ?_⟩
        rw [h, hn', Int.natCast_mul]
      · refine ⟨-o, j + k, by omega, by rwa [Int.natAbs_neg], ?_⟩
        rw [h, hn', Int.natCast_mul, Int.neg_mul]
  · rintro (rfl | ⟨m, k, -, hm, rfl⟩)
    · exact ⟨0, 0, by decide, rfl⟩
    · exact ⟨m.natAbs, k, hm, by rw [Int.natAbs_mul, Int.natAbs_natCast]⟩

/-! ### There and back -/

/-- The short integer that is nearest. -/
def nearestShort (n : Int) : Int := Double.signed (n < 0) (roundSteps n.natAbs 1)

theorem natAbs_nearestShort (n : Int) : (nearestShort n).natAbs = roundSteps n.natAbs 1 := by
  unfold nearestShort Double.signed
  split
  · exact (Int.natAbs_neg _).trans (Int.natAbs_natCast _)
  · exact Int.natAbs_natCast _

theorem nearestShort_nearest (n : Int) {j : Int} (hj : IsShort j.natAbs) :
    (nearestShort n - n).natAbs ≤ (j - n).natAbs := by
  have hnear := roundSteps_nearest n.natAbs hj
  unfold nearestShort Double.signed
  generalize roundSteps n.natAbs 1 = r at hnear ⊢
  split
  next hneg =>
    have hlt : n < 0 := of_decide_eq_true hneg
    omega
  next hpos =>
    have hge : ¬ n < 0 := fun h => hpos (decide_eq_true h)
    omega

theorem nearestShort_eq_self_iff {n : Int} : nearestShort n = n ↔ IsShort n.natAbs := by
  constructor
  · intro h
    rw [← h, natAbs_nearestShort]
    exact isShort_roundSteps _
  · intro h
    have hnear := nearestShort_nearest n h
    omega

theorem signed_div (s : Bool) (n d : Nat) : Double.signed s (n / d) = (Double.signed s n).tdiv d := by
  cases s with
  | false => exact Int.ofNat_tdiv n d
  | true => exact (congrArg Neg.neg (Int.ofNat_tdiv n d)).trans (Int.neg_tdiv _ _).symm

namespace Value

theorem toFloat_integer (n : Int) :
    toFloat (.integer n) = (doubleOfInt? n).elim (.error (.tooLarge n)) .ok := by
  -- A variable stands for the function: its definition would be computed with.
  obtain ⟨nearest?, hnearest⟩ : ∃ nearest?, nearest? = doubleOfInt? := ⟨_, rfl⟩
  rw [toFloat.eq_def, ← hnearest]
  cases h : nearest? n <;> simp only [h, Option.elim]

theorem toFloat_of_le {n : Int} (h : overflowBound ≤ n.natAbs) :
    toFloat (.integer n) = .error (.tooLarge n) := by
  rw [toFloat_integer, doubleOfInt?_eq_none_iff.mpr h, Option.elim_none]

theorem toFloat_of_lt {n : Int} (h : n.natAbs < overflowBound) :
    ∃ x, toFloat (.integer n) = .ok x ∧ toInteger (.float x) = .ok (nearestShort n) := by
  obtain ⟨s, k, held, hn, hsteps⟩ := exists_doubleOfInt?_eq h
  refine ⟨.finite s k held, by rw [toFloat_integer, hn, Option.elim_some], ?_⟩
  have htrunc : Double.signed s (k / oneSteps) = nearestShort n := by
    rw [signed_div, hsteps, Double.stepsOfInt, roundSteps_mul oneSteps_eq, ← signed_div,
      Nat.mul_div_cancel _ oneSteps_pos]
    rfl
  exact congrArg Except.ok htrunc

end Value

end StackLang
