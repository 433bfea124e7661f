import StackLang.Proofs.Number.Range
import StackLang.Value.Operator

/-! # Integers compared as doubles

A comparison turns integers into the doubles nearest to them. Rounding keeps the order, but it may
make equal what is not, beyond 2^53. -/

namespace StackLang

/-! ### Rounding keeps the order -/

theorem roundDiv_mono {a a' : Nat} (h : a ≤ a') (b : Nat) : roundDiv a b ≤ roundDiv a' b := by
  have hq : a / b ≤ a' / b := Nat.div_le_div_right h
  obtain hlt | heq := Nat.lt_or_eq_of_le hq
  · exact Nat.le_trans (roundDiv_le a b) (Nat.le_trans hlt (div_le_roundDiv a' b))
  · have ha : b * (a / b) + a % b = a := Nat.div_add_mod a b
    have ha' : b * (a' / b) + a' % b = a' := Nat.div_add_mod a' b
    rw [heq] at ha
    have hr : a % b ≤ a' % b := by omega
    simp only [roundDiv, heq]
    generalize a % b = r at hr
    generalize a' % b = r' at hr
    repeat' split
    all_goals omega

theorem excess_mono {a a' : Nat} (h : a ≤ a') : excess a ≤ excess a' :=
  excess_le_of_lt (Nat.lt_of_le_of_lt h (lt_two_pow_excess a'))

/-- A greater quotient is not rounded to less. Where it has more bits to lose, the power of two
between the quotients is between their roundings, too. -/
theorem roundSteps_mono {a a' : Nat} (h : a ≤ a') (b : Nat) : roundSteps a b ≤ roundSteps a' b := by
  have hq : a / b ≤ a' / b := Nat.div_le_div_right h
  obtain hlt | heq := Nat.lt_or_eq_of_le (excess_mono hq)
  · have hbetween : Nat.pow 2 (53 + excess (a / b)) ≤ a' / b := by
      refine Nat.not_lt.mp fun hsmall => ?_
      exact Nat.not_le.mpr hlt (excess_le_of_lt hsmall)
    calc roundSteps a b ≤ Nat.pow 2 53 * Nat.pow 2 (excess (a / b)) :=
          Nat.mul_le_mul_right _ (roundDiv_le_pow a b)
      _ = Nat.pow 2 (53 + excess (a / b)) := (pow_add_mul _ _).symm
      _ ≤ roundSteps a' b := le_roundSteps rfl hbetween
  · simp only [roundSteps, heq]
    exact Nat.mul_le_mul_right _ (roundDiv_mono h _)

theorem roundSteps_le_of_cross {a b c d : Nat} (hb : 0 < b) (hd : 0 < d) (h : a * d ≤ c * b) :
    roundSteps a b ≤ roundSteps c d := by
  rw [← roundSteps_mul_mul hd a b, ← roundSteps_mul_mul hb c d, Nat.mul_comm d b]
  exact roundSteps_mono h _

theorem oneSteps_pos : 0 < oneSteps :=
  Nat.lt_of_lt_of_eq (pow_two_pos _) oneSteps_eq.symm

/-- Up to 2^53 every whole number of ones is its own rounding. -/
theorem roundSteps_of_le {m one j : Nat} (hone : one = Nat.pow 2 j) (hm : m ≤ Nat.pow 2 53) :
    roundSteps (m * one) 1 = m * one := by
  have hdvd : Nat.pow 2 (excess (m * one)) ∣ m * one := by
    rw [hone]
    exact dvd_excess_of_le hm
  have hround := roundSteps_of_dvd hdvd Nat.one_pos
  rwa [Nat.mul_one] at hround

namespace Double

/-- The steps of the double nearest to an integer, with their sign. -/
def stepsOfInt (n : Int) : Int := signed (n < 0) (roundSteps (n.natAbs * oneSteps) 1)

theorem stepsOfInt_mono {m n : Int} (h : m ≤ n) : stepsOfInt m ≤ stepsOfInt n := by
  have hmono : ∀ a b : Nat, a ≤ b → roundSteps (a * oneSteps) 1 ≤ roundSteps (b * oneSteps) 1 :=
    fun a b hab => roundSteps_mono (Nat.mul_le_mul_right _ hab) 1
  simp only [stepsOfInt, signed, decide_eq_true_eq]
  split
  · split
    · exact Int.neg_le_neg (Int.ofNat_le.mpr (hmono _ _ (by omega)))
    · exact Int.le_trans (Int.neg_nonpos_of_nonneg (Int.natCast_nonneg _)) (Int.natCast_nonneg _)
  · rw [if_neg (by omega)]
    exact Int.ofNat_le.mpr (hmono _ _ (by omega))

theorem stepsOfInt_of_le {n : Int} (h : n.natAbs ≤ Nat.pow 2 53) : stepsOfInt n = n * oneSteps := by
  have hround : roundSteps (n.natAbs * oneSteps) 1 = n.natAbs * oneSteps :=
    roundSteps_of_le oneSteps_eq h
  rw [stepsOfInt, hround, signed]
  generalize oneSteps = one
  rw [Int.natCast_mul]
  split
  next hneg =>
    rw [Int.ofNat_natAbs_of_nonpos (Int.le_of_lt (of_decide_eq_true hneg)), Int.neg_mul,
      Int.neg_neg]
  next hneg =>
    rw [Int.natAbs_of_nonneg (Int.not_lt.mp fun h => hneg (decide_eq_true h))]

end Double

namespace Value

theorem exists_doubleOfInt?_eq {n : Int} (h : n.natAbs < overflowBound) :
    ∃ s k held, doubleOfInt? n = some (.finite s k held) ∧
      Double.signed s k = Double.stepsOfInt n := by
  have hfinite : (Double.ofInt n).isFinite := by
    refine Decidable.byContradiction fun hinfinite => ?_
    exact Nat.not_le.mpr h (doubleOfInt?_eq_none_iff.mp (if_neg hinfinite))
  have hlt : roundSteps (n.natAbs * oneSteps) 1 < stepLimit :=
    (Double.isFinite_round_iff _ _ _).mp hfinite
  have hheld : Held (roundSteps (n.natAbs * oneSteps) 1) := ⟨dvd_roundSteps _ _, hlt⟩
  refine ⟨_, _, hheld, ?_, rfl⟩
  rw [doubleOfInt?, Double.ofInt, Double.round_of_held hheld rfl]
  rfl

end Value

theorem middleBelow_eq {k l high low : Nat} (hhigh : high = Nat.pow 2 l)
    (hlow : low = Nat.pow 2 k) (h : l = 54 + k) : middleBelow k = high - low := by
  rw [hhigh, hlow, h, middleBelow, Nat.sub_mul, ← pow_add_mul, Nat.one_mul]

theorem overflowBound_eq {high low : Nat} (hhigh : high = Nat.pow 2 1024)
    (hlow : low = Nat.pow 2 970) : overflowBound = high - low := by
  have hmiddle := middleBelow_eq hhigh hlow rfl
  rw [overflowBound, hmiddle]

/-! ### Comparisons -/

namespace LogicOp

/-- The operators that compare numbers. -/
def comparisons : List LogicOp := [eq, ne, lt, le, gt, ge]

/-- What a comparison answers of two integers. -/
def onIntegers? : LogicOp → Int → Int → Option Bool
  | eq, a, b => some (decide (a = b))
  | ne, a, b => some (decide (a ≠ b))
  | lt, a, b => some (decide (a < b))
  | le, a, b => some (decide (a ≤ b))
  | gt, a, b => some (decide (b < a))
  | ge, a, b => some (decide (b ≤ a))
  | and, _, _ | or, _, _ => none

theorem le_eq_decide (a b : Int) : (decide (a < b) || decide (a = b)) = decide (a ≤ b) := by
  simp [Int.le_iff_lt_or_eq]

theorem onIntegers?_mul (op : LogicOp) (a b : Int) {c : Int} (hc : 0 < c) :
    op.onIntegers? (a * c) (b * c) = op.onIntegers? a b := by
  have heq : a * c = b * c ↔ a = b := Int.mul_eq_mul_right_iff (Int.ne_of_gt hc)
  cases op <;>
    simp only [onIntegers?, ne_eq, heq, Int.mul_lt_mul_right hc, Int.mul_le_mul_right hc]

theorem onDoubles?_finite (op : LogicOp) (s t : Bool) {k l : Nat} (hk : Held k) (hl : Held l) :
    op.onDoubles? (.finite s k hk) (.finite t l hl) =
      op.onIntegers? (Double.signed s k) (Double.signed t l) := by
  cases op with
  | eq | lt | gt | and | or => rfl
  | ne => simp [onDoubles?, onIntegers?, Double.eq]
  | le | ge => exact congrArg some (le_eq_decide _ _)

theorem operand_integer (n : Int) :
    operand (.integer n) = (Value.doubleOfInt? n).elim (.error .tooLarge) .ok := by
  -- A variable stands for the function: its definition would be computed with.
  obtain ⟨nearest?, hnearest⟩ : ∃ nearest?, nearest? = Value.doubleOfInt? := ⟨_, rfl⟩
  rw [operand.eq_def, ← hnearest]
  cases h : nearest? n <;> simp only [h, Option.elim]

theorem operand_of_le {n : Int} (h : overflowBound ≤ n.natAbs) :
    operand (.integer n) = .error .tooLarge := by
  rw [operand_integer, Value.doubleOfInt?_eq_none_iff.mpr h, Option.elim_none]

theorem operand_of_lt {n : Int} (h : n.natAbs < overflowBound) :
    ∃ s k held, operand (.integer n) = .ok (.finite s k held) ∧
      Double.signed s k = Double.stepsOfInt n := by
  obtain ⟨s, k, held, hn, hsteps⟩ := Value.exists_doubleOfInt?_eq h
  exact ⟨s, k, held, by rw [operand_integer, hn, Option.elim_some], hsteps⟩

theorem onNumbers_ok {op : LogicOp} {a b : Value} {x y : Double} {r : Bool}
    (ha : operand a = .ok x) (hb : operand b = .ok y) (hr : op.onDoubles? x y = some r) :
    op.onNumbers a b = .ok (.boolean r) := by
  simp only [onNumbers, ha, hb, hr]

theorem onNumbers_error (op : LogicOp) {a b : Value} {e : OperandFault}
    (h : operand a = .error e ∨ (∃ x, operand a = .ok x) ∧ operand b = .error e) :
    op.onNumbers a b = .error (.comparisonOperand op.name e) := by
  rcases h with ha | ⟨⟨x, ha⟩, hb⟩
  · simp only [onNumbers, ha]
  · simp only [onNumbers, ha, hb]

variable {m n : Int}

theorem apply_integer (op : LogicOp) (m n : Int) :
    op.apply (.integer m) (.integer n) = op.onNumbers (.integer m) (.integer n) := rfl

/-- Integers in the range of doubles are compared by the steps that they are rounded to. -/
theorem apply_of_lt (hm : m.natAbs < overflowBound) (hn : n.natAbs < overflowBound)
    {op : LogicOp} {r : Bool}
    (hr : op.onIntegers? (Double.stepsOfInt m) (Double.stepsOfInt n) = some r) :
    op.apply (.integer m) (.integer n) = .ok (.boolean r) := by
  obtain ⟨s, k, hk, hx, hsm⟩ := operand_of_lt hm
  obtain ⟨t, l, hl, hy, hsn⟩ := operand_of_lt hn
  rw [← hsm, ← hsn, ← onDoubles?_finite op s t hk hl] at hr
  exact (apply_integer op m n).trans (onNumbers_ok hx hy hr)

theorem exists_onIntegers?_eq {op : LogicOp} (hop : op ∈ comparisons) (a b : Int) :
    ∃ r, op.onIntegers? a b = some r := by
  cases op with
  | eq | ne | lt | le | gt | ge => exact ⟨_, rfl⟩
  | and | or => simp [comparisons] at hop

/-- Of two integers one is less, or they are equal, and the other comparisons say which it is. -/
theorem onIntegers?_agree (a b : Int) : ∃ l e g : Bool,
    lt.onIntegers? a b = some l ∧ eq.onIntegers? a b = some e ∧ gt.onIntegers? a b = some g ∧
    [l, e, g].count true = 1 ∧ ne.onIntegers? a b = some (!e) ∧
    le.onIntegers? a b = some (l || e) ∧ ge.onIntegers? a b = some (g || e) ∧
    lt.onIntegers? b a = some g ∧ gt.onIntegers? b a = some l ∧
    (a ≤ b → (l || e) = true ∧ g = false) ∧ (b ≤ a → (g || e) = true ∧ l = false) := by
  have hcomm : decide (a = b) = decide (b = a) := by simp [eq_comm]
  refine ⟨decide (a < b), decide (a = b), decide (b < a), rfl, rfl, rfl, ?_, ?_, ?_, ?_, rfl, rfl,
    fun h => ⟨?_, ?_⟩, fun h => ⟨?_, ?_⟩⟩
  · obtain hlt | heq | hgt := Int.lt_trichotomy a b
    · simp [hlt, Int.ne_of_lt hlt, Int.not_lt.mpr (Int.le_of_lt hlt)]
    · simp [heq]
    · simp [hgt, Int.ne_of_gt hgt, Int.not_lt.mpr (Int.le_of_lt hgt)]
  · exact congrArg some decide_not
  · exact congrArg some (le_eq_decide a b).symm
  · rw [hcomm]
    exact congrArg some (le_eq_decide b a).symm
  · rw [le_eq_decide]
    exact decide_eq_true h
  · exact decide_eq_false (Int.not_lt.mpr h)
  · rw [hcomm, le_eq_decide]
    exact decide_eq_true h
  · exact decide_eq_false (Int.not_lt.mpr h)

/-- A comparison of integers fails over one that is beyond the doubles. -/
theorem apply_of_le (op : LogicOp) (h : overflowBound ≤ m.natAbs ∨ overflowBound ≤ n.natAbs) :
    op.apply (.integer m) (.integer n) = .error (.comparisonOperand op.name .tooLarge) := by
  refine (apply_integer op m n).trans (onNumbers_error op ?_)
  by_cases hm : overflowBound ≤ m.natAbs
  · exact .inl (operand_of_le hm)
  · obtain ⟨s, k, hk, hx, -⟩ := operand_of_lt (Nat.not_le.mp hm)
    exact .inr ⟨⟨_, hx⟩, operand_of_le (h.resolve_left hm)⟩

end LogicOp

/-- Integers are compared by way of the doubles nearest to them, and those beyond the doubles not at
all. The comparisons agree with each other and never turn the order of two integers around; up to
2^53 they are exact. -/
theorem integer_order_kept (m n : Int) :
    let answers (op : LogicOp) (a b : Int) (r : Bool) : Prop :=
      op.apply (.integer a) (.integer b) = .ok (.boolean r)
    let bound := Nat.pow 2 1024 - Nat.pow 2 970
    (∀ op ∈ LogicOp.comparisons,
      (∃ f, op.apply (.integer m) (.integer n) = .error f ∧ f.name = "TypeMismatch") ↔
        bound ≤ m.natAbs ∨ bound ≤ n.natAbs) ∧
    (m.natAbs < bound → n.natAbs < bound → ∃ l e g : Bool,
      answers .lt m n l ∧ answers .eq m n e ∧ answers .gt m n g ∧ [l, e, g].count true = 1 ∧
      answers .ne m n (!e) ∧ answers .le m n (l || e) ∧ answers .ge m n (g || e) ∧
      answers .lt n m g ∧ answers .gt n m l ∧
      (m ≤ n → (l || e) = true ∧ g = false) ∧ (n ≤ m → (g || e) = true ∧ l = false) ∧
      (m.natAbs ≤ Nat.pow 2 53 → n.natAbs ≤ Nat.pow 2 53 →
        ∀ op r, op.onIntegers? m n = some r → answers op m n r)) := by
  intro answers bound
  have hbound : bound = overflowBound := (overflowBound_eq rfl rfl).symm
  rw [hbound]
  refine ⟨fun op hop => ⟨?_, fun hhuge => ⟨_, LogicOp.apply_of_le op hhuge, rfl⟩⟩, fun hm hn => ?_⟩
  · rintro ⟨f, hf, -⟩
    refine Decidable.byContradiction fun hrange => ?_
    obtain ⟨hm, hn⟩ := not_or.mp hrange
    obtain ⟨r, hr⟩ := LogicOp.exists_onIntegers?_eq hop (Double.stepsOfInt m) (Double.stepsOfInt n)
    cases hf.symm.trans (LogicOp.apply_of_lt (Nat.not_le.mp hm) (Nat.not_le.mp hn) hr)
  have hanswers : ∀ {op r}, op.onIntegers? (Double.stepsOfInt m) (Double.stepsOfInt n) = some r →
      answers op m n r := fun hr => LogicOp.apply_of_lt hm hn hr
  have hswapped : ∀ {op r}, op.onIntegers? (Double.stepsOfInt n) (Double.stepsOfInt m) = some r →
      answers op n m r := fun hr => LogicOp.apply_of_lt hn hm hr
  have hexact : m.natAbs ≤ Nat.pow 2 53 → n.natAbs ≤ Nat.pow 2 53 → ∀ op : LogicOp,
      op.onIntegers? (Double.stepsOfInt m) (Double.stepsOfInt n) = op.onIntegers? m n := by
    intro hm hn op
    rw [Double.stepsOfInt_of_le hm, Double.stepsOfInt_of_le hn]
    exact op.onIntegers?_mul m n (Int.natCast_pos.mpr oneSteps_pos)
  obtain ⟨l, e, g, hl, he, hg, hone, hne, hle, hge, hlt', hgt', hup, hdown⟩ :=
    LogicOp.onIntegers?_agree (Double.stepsOfInt m) (Double.stepsOfInt n)
  exact ⟨l, e, g, hanswers hl, hanswers he, hanswers hg, hone, hanswers hne, hanswers hle,
    hanswers hge, hswapped hlt', hswapped hgt', fun h => hup (Double.stepsOfInt_mono h),
    fun h => hdown (Double.stepsOfInt_mono h),
    fun hm hn op r hr => hanswers ((hexact hm hn op).trans hr)⟩

/-- Beyond 2^53 two integers may be rounded to one double. -/
theorem integer_order_kept_rounded :
    let m : Int := 9007199254740992
    let n : Int := 9007199254740993
    m.natAbs < Nat.pow 2 1024 - Nat.pow 2 970 ∧ n.natAbs < Nat.pow 2 1024 - Nat.pow 2 970 ∧
      m ≤ n ∧ LogicOp.le.apply (.integer m) (.integer n) = .ok (.boolean true) ∧
      LogicOp.gt.apply (.integer m) (.integer n) = .ok (.boolean false) := by
  intro m n
  have hm : m.natAbs < Nat.pow 2 1024 - Nat.pow 2 970 := by decide +kernel
  have hn : n.natAbs < Nat.pow 2 1024 - Nat.pow 2 970 := by decide +kernel
  obtain ⟨-, hin⟩ := integer_order_kept m n
  obtain ⟨l, e, g, -, -, hgt, -, -, hle, -, -, -, hmn, -⟩ := hin hm hn
  obtain ⟨htrue, rfl⟩ := hmn (by decide)
  exact ⟨hm, hn, by decide, htrue ▸ hle, hgt⟩

end StackLang
