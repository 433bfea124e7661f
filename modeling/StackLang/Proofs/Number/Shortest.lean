import Mathlib.Algebra.Order.Group.Pointwise.Interval
import Mathlib.Tactic.FieldSimp
import StackLang.Proofs.Number.Layouts
import StackLang.Proofs.Number.Nearest
import StackLang.Proofs.Number.Values

/-! # The fewest digits that read back

The search for the digits of a double tries the multiples of a power of ten next to it, from one
digit on. Among all decimals that are read as the double it finds one with the fewest digits, and
none with as few is nearer; seventeen digits are enough. -/

namespace StackLang

open StackLang.Text

/-- A decimal is read as `n` steps, no other one with fewer digits is, and none with as few that is
nearer. -/
structure IsShortest (n : Nat) (d : Decimal) : Prop where
  reads : d.steps = n
  fewest : ∀ e : Decimal, e.steps = n → d.width ≤ e.width
  nearest : ∀ e : Decimal, e.steps = n → e.width ≤ d.width →
    |d.toRat - inOnes n| ≤ |e.toRat - inOnes n|

namespace Shortest

open Decimal

variable {n m : Nat} {d : Decimal} {e : Int}

theorem steps_exact (h : Held n) : (exact n).steps = n := roundSteps_exact h

theorem toRat_exact (n : Nat) : (exact n).toRat = inOnes n := by
  have hden : ((exact n).denominator : ℚ) ≠ 0 := Nat.cast_ne_zero.mpr (exact n).denominator_pos.ne'
  rw [inOnes, eq_div_iff cast_oneSteps_pos.ne', toRat_mul_oneSteps, numerator_exact, Nat.cast_mul,
    mul_div_cancel_right₀ _ hden]

theorem steps_of_mem_uIcc (h : Held n) {x : Decimal} (hx : x.steps = n)
    (hd : d.toRat ∈ Set.uIcc (inOnes n) x.toRat) : d.steps = n := by
  rw [← toRat_exact] at hd
  obtain ⟨hlow, hhigh⟩ | ⟨hlow, hhigh⟩ := Set.mem_uIcc.mp hd
  · exact steps_between (steps_exact h) hx hlow hhigh
  · exact steps_between hx (steps_exact h) hlow hhigh

/-! ### Multiples of a power of ten -/

/-- A number of steps over a power of ten is a quotient of whole numbers. -/
def dividend (n : Nat) (e : Int) : Nat := n * Nat.pow 10 (-e).toNat

def divisor (e : Int) : Nat := Nat.pow 10 e.toNat * oneSteps

/-- The last multiple of the power that is not above. -/
def floorOn (n : Nat) (e : Int) : Nat := dividend n e / divisor e

theorem divisor_pos (e : Int) : 0 < divisor e := Nat.mul_pos (Nat.pow_pos (by decide)) oneSteps_pos

theorem cast_divisor_pos (e : Int) : (0 : ℚ) < divisor e := Nat.cast_pos.mpr (divisor_pos e)

theorem inOnes_eq (n : Nat) (e : Int) : inOnes n = dividend n e / divisor e * (10 : ℚ) ^ e := by
  have hpow : ∀ k, ((Nat.pow 10 k : Nat) : ℚ) ≠ 0 := fun k =>
    Nat.cast_ne_zero.mpr (Nat.pow_pos (by decide)).ne'
  have hone := cast_oneSteps_pos.ne'
  have hup := hpow e.toNat
  have hdown := hpow (-e).toNat
  rw [inOnes, dividend, divisor, zpow_ten_eq_div]
  push_cast
  field_simp

theorem toRat_le_inOnes_iff : toRat ⟨m, e⟩ ≤ inOnes n ↔ m ≤ floorOn n e := by
  rw [toRat, inOnes_eq n e, mul_le_mul_iff_left₀ (zpow_ten_pos e), le_div_iff₀ (cast_divisor_pos e),
    floorOn, Nat.le_div_iff_mul_le (divisor_pos e)]
  exact_mod_cast Iff.rfl

theorem inOnes_lt_toRat_iff : inOnes n < toRat ⟨m, e⟩ ↔ floorOn n e < m := by
  rw [← not_le, toRat_le_inOnes_iff, Nat.not_le]

theorem abs_toRat_sub_inOnes (n m : Nat) (e : Int) : |toRat ⟨m, e⟩ - inOnes n| =
    ((m * divisor e : Nat) - dividend n e : Int).natAbs / divisor e * (10 : ℚ) ^ e := by
  have hpos := cast_divisor_pos e
  rw [toRat, inOnes_eq n e, ← sub_mul, abs_mul, abs_of_pos (zpow_ten_pos e), Nat.cast_natAbs,
    Int.cast_abs, sub_div' hpos.ne', abs_div, abs_of_pos hpos]
  push_cast
  rfl

/-! ### Neighbours -/

theorem roundDiv_eq_or (a b : Nat) : roundDiv a b = a / b ∨ roundDiv a b = a / b + 1 := by
  unfold roundDiv
  repeat' split
  all_goals simp

/-- One of the neighbours is the last multiple that is not above, the other one is the next. -/
theorem neighbours_eq_or (n : Nat) (e : Int) :
    neighbours n e = [⟨floorOn n e, e⟩, ⟨floorOn n e + 1, e⟩] ∨
      neighbours n e = [⟨floorOn n e + 1, e⟩, ⟨floorOn n e, e⟩] := by
  rw [neighbours, ← dividend, ← divisor, floorOn]
  obtain h | h := roundDiv_eq_or (dividend n e) (divisor e)
  · exact .inl (by rw [h, if_pos rfl])
  · exact .inr (by rw [h, if_neg (by omega), Nat.add_sub_cancel])

theorem mem_neighbours_iff :
    d ∈ neighbours n e ↔ d = ⟨floorOn n e, e⟩ ∨ d = ⟨floorOn n e + 1, e⟩ := by
  obtain h | h := neighbours_eq_or n e
  · simp [h]
  · simp [h, or_comm]

/-- The first of the neighbours is the nearest multiple. -/
theorem nearest_neighbour (n : Nat) (e : Int) :
    ∃ near far, neighbours n e = [near, far] ∧
      ∀ m, |near.toRat - inOnes n| ≤ |toRat ⟨m, e⟩ - inOnes n| := by
  refine ⟨_, _, rfl, fun m => ?_⟩
  have hnear := roundDiv_nearest (dividend n e) (divisor_pos e) m
  rw [← dividend, ← divisor, abs_toRat_sub_inOnes, abs_toRat_sub_inOnes]
  exact mul_le_mul_of_nonneg_right
    (div_le_div_of_nonneg_right (Nat.cast_le.mpr hnear) (cast_divisor_pos e).le) (zpow_ten_pos e).le

/-- A neighbour stands between a number of steps and any multiple. -/
theorem exists_neighbour_between (n m : Nat) (e : Int) :
    ∃ d ∈ neighbours n e, d.toRat ∈ Set.uIcc (inOnes n) (toRat ⟨m, e⟩) := by
  obtain hlt | hle := Nat.lt_or_ge (floorOn n e) m
  · refine ⟨_, mem_neighbours_iff.mpr (.inr rfl), Set.mem_uIcc.mpr (.inl ⟨?_, toRat_le hlt⟩)⟩
    exact (inOnes_lt_toRat_iff.mpr (Nat.lt_succ_self _)).le
  · refine ⟨_, mem_neighbours_iff.mpr (.inl rfl), Set.mem_uIcc.mpr (.inr ⟨toRat_le hle, ?_⟩)⟩
    exact toRat_le_inOnes_iff.mpr (Nat.le_refl _)

theorem readsBack_iff : readsBack n d = true ↔ d.steps = n := beq_iff_eq

/-- Where a multiple is read as the number of steps, a neighbour is found that is no farther off. -/
theorem exists_found (h : Held n) (hm : steps ⟨m, e⟩ = n) :
    ∃ d, (neighbours n e).find? (readsBack n) = some d ∧
      |d.toRat - inOnes n| ≤ |toRat ⟨m, e⟩ - inOnes n| := by
  obtain ⟨d, hd, hbetween⟩ := exists_neighbour_between n m e
  have hread : readsBack n d = true := readsBack_iff.mpr (steps_of_mem_uIcc h hm hbetween)
  obtain ⟨near, far, hn, hnear⟩ := nearest_neighbour n e
  rw [hn] at hd ⊢
  cases hfirst : readsBack n near with
  | true => exact ⟨near, List.find?_cons_of_pos hfirst, hnear m⟩
  | false =>
    have hne : d ≠ near := by
      rintro rfl
      rw [hread] at hfirst
      cases hfirst
    obtain rfl : d = far := by simpa [hne] using hd
    exact ⟨d, by simp [hfirst, hread], Set.abs_sub_left_of_mem_uIcc hbetween⟩

/-! ### The leading digit -/

theorem pow_mul_ne {one j k n : Nat} (hone : one = Nat.pow 2 j) (hk : 0 < k) :
    Nat.pow 10 k * n ≠ one := by
  intro heq
  have hten : 5 ∣ Nat.pow 10 k := Nat.dvd_trans (by decide) (dvd_pow_self 10 hk.ne')
  have hfive : 5 ∣ Nat.pow 2 j := hone ▸ heq ▸ Nat.dvd_mul_right_of_dvd hten n
  exact absurd (Nat.prime_five.dvd_of_dvd_pow hfive) (by decide)

theorem toDigits_bounds {q : Nat} (hq : 0 < q) : ∃ k, (Nat.toDigits 10 q).length = k + 1 ∧
    Nat.pow 10 k ≤ q ∧ q < Nat.pow 10 (k + 1) := by
  obtain ⟨k, hk⟩ := Nat.exists_eq_add_one.mpr (Nat.length_toDigits_pos (b := 10) (n := q))
  refine ⟨k, hk, Nat.not_lt.mp fun hlt => ?_, ?_⟩
  · obtain rfl | hpos := Nat.eq_zero_or_pos k
    · exact absurd hlt (Nat.not_lt.mpr hq)
    · have hle := length_toDigits_le hpos hlt
      omega
  · exact (Nat.length_toDigits_le_iff (by decide) (Nat.succ_pos k)).mp hk.le

theorem leading_bounds_of_le (h : oneSteps ≤ n) :
    (10 : ℚ) ^ leading n ≤ inOnes n ∧ inOnes n < (10 : ℚ) ^ (leading n + 1) := by
  obtain ⟨k, hk, hlow, hhigh⟩ := toDigits_bounds (Nat.div_pos h oneSteps_pos)
  have he : leading n = k := by
    rw [leading, if_pos h, hk]
    omega
  have hone := cast_oneSteps_pos
  rw [Nat.le_div_iff_mul_le oneSteps_pos, Nat.pow_eq] at hlow
  rw [Nat.div_lt_iff_lt_mul oneSteps_pos, Nat.pow_eq] at hhigh
  rw [he, inOnes, ← Nat.cast_succ, zpow_natCast, zpow_natCast, le_div_iff₀ hone, div_lt_iff₀ hone]
  exact ⟨by exact_mod_cast hlow, by exact_mod_cast hhigh⟩

/-- Below one the digits of the inverse are counted. They are not off by one, since no number of
steps below one is a power of ten. -/
theorem leading_bounds_of_lt (hn : 0 < n) (h : n < oneSteps) :
    (10 : ℚ) ^ leading n ≤ inOnes n ∧ inOnes n < (10 : ℚ) ^ (leading n + 1) := by
  obtain ⟨k, hk, hlow, hhigh⟩ := toDigits_bounds (Nat.div_pos h.le hn)
  have he : leading n = -((k + 1 : Nat) : Int) := by
    rw [leading, if_neg (Nat.not_le.mpr h), hk]
  have hnext : -((k + 1 : Nat) : Int) + 1 = -(k : Int) := by omega
  have hone := cast_oneSteps_pos
  have hpow : ∀ k, (0 : ℚ) < (10 : ℚ) ^ k := fun k => pow_pos (by norm_num) k
  rw [Nat.le_div_iff_mul_le hn] at hlow
  rw [Nat.div_lt_iff_lt_mul hn, Nat.pow_eq] at hhigh
  have hstrict : Nat.pow 10 k * n < oneSteps := by
    obtain rfl | hpos := Nat.eq_zero_or_pos k
    · exact (Nat.one_mul n).symm ▸ h
    · exact Nat.lt_of_le_of_ne hlow (pow_mul_ne oneSteps_eq hpos)
  rw [Nat.pow_eq] at hstrict
  rw [he, hnext, inOnes, zpow_neg, zpow_neg, zpow_natCast, zpow_natCast, le_div_iff₀ hone,
    div_lt_iff₀ hone, inv_mul_le_iff₀ (hpow _), lt_inv_mul_iff₀ (hpow _)]
  exact ⟨by exact_mod_cast hhigh.le, by exact_mod_cast hstrict⟩

theorem leading_bounds (hn : 0 < n) :
    (10 : ℚ) ^ leading n ≤ inOnes n ∧ inOnes n < (10 : ℚ) ^ (leading n + 1) := by
  obtain hle | hlt := le_or_gt oneSteps n
  · exact leading_bounds_of_le hle
  · exact leading_bounds_of_lt hn hlt

/-! ### How many digits are needed -/

section

variable (h : Held n) (hn : 0 < n)
include h hn

/-- The nearest multiple with seventeen digits is off by less than a part in 2^54. -/
theorem exists_seventeen : ∃ m, steps ⟨m, leading n - 16⟩ = n := by
  obtain ⟨hlead, -⟩ := leading_bounds hn
  obtain ⟨e, he⟩ : ∃ e, leading n = (16 : Nat) + e := ⟨leading n - 16, by omega⟩
  have hexp : leading n - 16 = e := by omega
  have hfar : Nat.pow 10 16 * divisor e ≤ dividend n e := by
    rw [he, inOnes_eq n e, zpow_ten_add, mul_le_mul_iff_left₀ (zpow_ten_pos e),
      le_div_iff₀ (cast_divisor_pos e)] at hlead
    exact_mod_cast hlead
  have hpos := divisor_pos e
  have hhalf := roundDiv_half (dividend n e) hpos
  rw [hexp]
  refine ⟨roundDiv (dividend n e) (divisor e), roundSteps_of_near h.1 ?_⟩
  rw [numerator, denominator, Nat.mul_assoc, ← dividend, ← divisor]
  dsimp only
  generalize divisor e = d at hpos hfar hhalf ⊢
  generalize dividend n e = a at hfar hhalf ⊢
  have hten : Nat.pow 10 16 = 10000000000000000 := rfl
  rw [hten] at hfar
  rw [two_pow_54]
  omega

/-- A decimal that is read as the number of steps has a multiple with no more digits beside it that
is, too. Where it is below the leading power of ten, that power is between. -/
theorem exists_multiple (hd : d.steps = n) {p : Nat} (hp : d.width ≤ p + 1) :
    ∃ m, steps ⟨m, leading n - p⟩ = n ∧
      |toRat ⟨m, leading n - p⟩ - inOnes n| ≤ |d.toRat - inOnes n| := by
  obtain ⟨hlead, -⟩ := leading_bounds hn
  generalize leading n = lead at hlead ⊢
  obtain hle | hlt := le_or_gt (lead - p) d.exponent
  · obtain ⟨k, hk⟩ : ∃ k : Nat, d.exponent = k + (lead - p) :=
      ⟨(d.exponent - (lead - p)).toNat, by omega⟩
    have hrat : toRat ⟨d.digits * Nat.pow 10 k, lead - p⟩ = d.toRat := by
      rw [toRat, toRat, hk, zpow_ten_add, Nat.cast_mul, mul_assoc]
    exact ⟨_, (steps_congr hrat).trans hd, by rw [hrat]⟩
  · have hpower : toRat ⟨Nat.pow 10 p, lead - p⟩ = (10 : ℚ) ^ lead := toRat_pow (by omega)
    have hbelow : d.toRat ≤ (10 : ℚ) ^ lead := by
      rw [← toRat_pow (k := p + 1) (i := lead - p - 1) (by omega)]
      refine mul_le_mul ?_ ?_ (zpow_ten_pos _).le (Nat.cast_nonneg _)
      · exact Nat.cast_le.mpr (width_le_iff.mp hp).le
      · exact zpow_le_zpow_right₀ (by norm_num) (Int.le_sub_one_of_lt hlt)
    have hbetween : toRat ⟨Nat.pow 10 p, lead - p⟩ ∈ Set.uIcc (inOnes n) d.toRat := by
      rw [hpower]
      exact Set.mem_uIcc.mpr (.inr ⟨hbelow, hlead⟩)
    exact ⟨_, steps_of_mem_uIcc h hd hbetween, Set.abs_sub_left_of_mem_uIcc hbetween⟩

end

theorem width_neighbour_le (hn : 0 < n) {p : Nat} (hd : d ∈ neighbours n (leading n - p)) :
    d.normal.width ≤ p + 1 := by
  have hpower : toRat ⟨Nat.pow 10 (p + 1), leading n - p⟩ = (10 : ℚ) ^ (leading n + 1) :=
    toRat_pow (by omega)
  have hfloor : floorOn n (leading n - p) < Nat.pow 10 (p + 1) := by
    rw [← inOnes_lt_toRat_iff, hpower]
    exact (leading_bounds hn).2
  refine width_normal_le ?_
  obtain rfl | rfl := mem_neighbours_iff.mp hd
  · exact hfloor.le
  · exact hfloor

/-! ### The search -/

theorem mem_of_range_eq {k p q : Nat} {front behind : List Nat}
    (h : List.range k = front ++ p :: behind) (hq : q < p) : q ∈ front := by
  have hp : p < k := List.mem_range.mp (h ▸ by simp)
  have hmem : q ∈ front ++ p :: behind := h ▸ List.mem_range.mpr (by omega)
  have hsorted : (front ++ p :: behind).Pairwise (· < ·) := h ▸ List.pairwise_lt_range
  obtain hfront | hrest := List.mem_append.mp hmem
  · exact hfront
  · obtain rfl | hbehind := List.mem_cons.mp hrest
    · exact absurd hq (Nat.lt_irrefl _)
    · have hlt := (List.pairwise_cons.mp (List.pairwise_append.mp hsorted).2.1).1 q hbehind
      omega

section

variable (h : Held n) (hn : 0 < n)
include h hn

/-- The search ends at the first number of digits with which a multiple is read as the number of
steps. -/
theorem exists_candidate : ∃ d p, shortest n = d.normal ∧
    (neighbours n (leading n - (p : Nat))).find? (readsBack n) = some d ∧
    ∀ q < p, ∀ m, steps ⟨m, leading n - (q : Nat)⟩ ≠ n := by
  obtain ⟨d, hd⟩ : ∃ d, (candidates n).find? (readsBack n) = some d := by
    obtain ⟨m, hm⟩ := exists_seventeen h hn
    obtain ⟨d, hd, -⟩ := exists_found h hm
    refine Option.isSome_iff_exists.mp (List.find?_isSome.mpr ⟨d, ?_, List.find?_some hd⟩)
    exact List.mem_flatMap.mpr ⟨16, by decide, List.mem_of_find?_eq_some hd⟩
  have hshortest : shortest n = d.normal := by
    rw [shortest, if_neg hn.ne', hd, Option.getD_some]
  rw [candidates, List.find?_flatMap, List.findSome?_eq_some_iff] at hd
  obtain ⟨front, p, behind, hsplit, hfound, hnone⟩ := hd
  refine ⟨d, p, hshortest, hfound, fun q hq m hm => ?_⟩
  obtain ⟨other, hother, -⟩ := exists_found h hm
  rw [hnone q (mem_of_range_eq hsplit hq)] at hother
  cases hother

theorem isShortest_shortest : IsShortest n (shortest n) := by
  obtain ⟨d, p, hshortest, hfound, hfirst⟩ := exists_candidate h hn
  have hwidth := width_neighbour_le hn (List.mem_of_find?_eq_some hfound)
  have hrat := toRat_normal d
  rw [← hshortest] at hwidth hrat
  refine ⟨?_, fun e he => ?_, fun e he hle => ?_⟩
  · rw [steps_congr hrat]
    exact readsBack_iff.mp (List.find?_some hfound)
  · refine hwidth.trans (Nat.not_lt.mp fun hlt => ?_)
    obtain ⟨q, hq⟩ := Nat.exists_eq_add_one.mpr (width_pos (he.symm ▸ hn))
    obtain ⟨m, hm, -⟩ := exists_multiple h hn he hq.le
    exact hfirst q (by omega) m hm
  · obtain ⟨m, hm, hnear⟩ := exists_multiple h hn he (hle.trans hwidth)
    obtain ⟨other, hother, hnearer⟩ := exists_found h hm
    obtain rfl : other = d := Option.some.inj (hother.symm.trans hfound)
    rw [hrat]
    exact hnearer.trans hnear

end

end Shortest

end StackLang
