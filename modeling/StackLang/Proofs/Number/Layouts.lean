import Mathlib.Data.List.Basic
import StackLang.Number.Layout
import StackLang.Number.Numeral
import StackLang.Proofs.Number.Decimals
import StackLang.Proofs.Text.Digits

/-! # Written doubles

The shortest decimal of a double reads back as that double, and every layout spells that decimal: as
digits around a point, or as digits with an exponent. -/

namespace StackLang

open StackLang.Text

/-! ### The shortest decimal -/

namespace Shortest

theorem numerator_exact (n : Nat) : (exact n).numerator = n * (exact n).denominator := by
  have hnum : (-1074 : Int).toNat = 0 := rfl
  have hden : (-(-1074) : Int).toNat = 1074 := rfl
  rw [exact, Decimal.numerator, Decimal.denominator, oneSteps_eq, hnum, hden]
  generalize 1074 = k
  have hten : Nat.pow 5 k * Nat.pow 2 k = Nat.pow 10 k := (Nat.mul_pow 5 2 k).symm
  have hone : Nat.pow 10 0 = 1 := rfl
  rw [hone, Nat.mul_one, Nat.mul_assoc, hten]

theorem roundSteps_exact {n : Nat} (h : Held n) :
    roundSteps (exact n).numerator (exact n).denominator = n := by
  rw [numerator_exact]
  exact roundSteps_of_held h (exact n).denominator_pos

theorem toDouble_shortest {n : Nat} (h : Held n) (negative : Bool) :
    (shortest n).toDouble negative = .finite negative n h := by
  unfold shortest
  split
  · subst n
    rfl
  · rw [Decimal.toDouble_normal, Decimal.toDouble_eq_round]
    refine Double.round_of_held h ?_ negative
    cases hf : (candidates n).find? (readsBack n) with
    | none => exact roundSteps_exact h
    | some d =>
      have hd : readsBack n d = true := List.find?_some hf
      exact eq_of_beq hd

theorem digits_shortest {n : Nat} (h : Held n) (h0 : (shortest n).digits = 0) :
    shortest n = ⟨0, 0⟩ := by
  have hz : (shortest n).toDouble false = .finite false 0 held_zero := by
    rw [Decimal.toDouble, if_pos]
    rw [Decimal.isTiny, h0]
    rfl
  rw [toDouble_shortest h] at hz
  cases hz
  rfl

end Shortest

namespace Layout

/-- Digits before and behind a point, the exponent, and the double they spell. No zero stands in
front that could be left out. -/
structure Figures (negative : Bool) (x : Double) (whole fraction : List Char) (exponent : Int) :
    Prop where
  whole_ne : whole ≠ []
  whole_digits : ∀ c ∈ whole, c.isDigit = true
  fraction_digits : ∀ c ∈ fraction, c.isDigit = true
  plain : whole.head? = some '0' → whole = ['0']
  value : Numeral.value negative whole fraction exponent = x

def pointText (fraction : List Char) : List Char :=
  if fraction = [] then [] else '.' :: fraction

theorem ascii_zeroDigits {n : Int} : ∀ c ∈ zeroDigits n, c.isDigit = true := by
  intro c hc
  rw [List.eq_of_mem_replicate hc]
  rfl

theorem append_ascii {as bs : List Char} (ha : ∀ c ∈ as, c.isDigit = true)
    (hb : ∀ c ∈ bs, c.isDigit = true) : ∀ c ∈ as ++ bs, c.isDigit = true := by
  intro c hc
  rcases List.mem_append.mp hc with hc | hc
  · exact ha c hc
  · exact hb c hc

theorem value_eq_toDouble (negative : Bool) (whole fraction : List Char) (exponent : Int) :
    Numeral.value negative whole fraction exponent =
      Decimal.toDouble negative ⟨digitsValue (whole ++ fraction), exponent - fraction.length⟩ := rfl

/-- A fraction of one zero is no fraction. -/
theorem value_zero_fraction (negative : Bool) (whole : List Char) :
    Numeral.value negative whole ['0'] 0 = Numeral.value negative whole [] 0 := by
  have hone : ['0'] = List.replicate 1 '0' := rfl
  rw [value_eq_toDouble, value_eq_toDouble, hone, digitsValue_append_zeros, Decimal.toDouble_shift,
    List.append_nil]
  rfl

section Texts

variable {l : Layout} {d : Decimal} (negative : Bool)

theorem value_whole (he : 0 ≤ d.exponent) :
    Numeral.value negative (Nat.toDigits 10 d.digits ++ zeroDigits d.exponent) [] 0 =
      d.toDouble negative := by
  have hexp : (0 : Int) - ([] : List Char).length + d.exponent.toNat = d.exponent := by
    simp only [List.length_nil]
    omega
  rw [value_eq_toDouble, List.append_nil, zeroDigits, digitsValue_append_zeros,
    digitsValue_toDigits, Decimal.toDouble_shift, hexp]

theorem plain_toDigits {n : Nat} (h : (Nat.toDigits 10 n).head? = some '0') : n = 0 := by
  by_contra hn
  exact head?_toDigits hn '0' h rfl

/-- All digits stand before the point. -/
theorem figures_whole (he : 0 ≤ d.exponent) (h0 : d.digits = 0 → d.exponent = 0)
    {fraction : List Char} (hf : fraction = [] ∨ fraction = ['0']) :
    Figures negative (d.toDouble negative) (Nat.toDigits 10 d.digits ++ zeroDigits d.exponent)
      fraction 0 where
  whole_ne := by simp [Nat.toDigits_ne_nil]
  whole_digits := append_ascii ascii_toDigits ascii_zeroDigits
  fraction_digits := List.all_eq_true.mp (by rcases hf with rfl | rfl <;> rfl)
  plain hh := by
    rw [List.head?_append_of_ne_nil _ Nat.toDigits_ne_nil] at hh
    have hz := plain_toDigits hh
    rw [h0 hz, hz]
    rfl
  value := by
    rcases hf with rfl | rfl
    · exact value_whole negative he
    · rw [value_zero_fraction, value_whole negative he]

/-- The point stands among the digits. -/
theorem figures_among {k : Nat} (hk : 0 < k) (he : d.exponent + (Nat.toDigits 10 d.digits).length = k)
    (hneg : d.exponent < 0) :
    Figures negative (d.toDouble negative) ((Nat.toDigits 10 d.digits).take k)
      ((Nat.toDigits 10 d.digits).drop k) 0 where
  whole_ne := by simp [Nat.toDigits_ne_nil, Nat.ne_of_gt hk]
  whole_digits c hc := ascii_toDigits c (List.mem_of_mem_take hc)
  fraction_digits c hc := ascii_toDigits c (List.mem_of_mem_drop hc)
  plain hh := by
    rw [List.head?_take, if_neg (Nat.ne_of_gt hk)] at hh
    have hz := plain_toDigits hh
    rw [hz, toDigits_zero] at he ⊢
    simp only [List.length_cons, List.length_nil] at he
    omega
  value := by
    have hexp : (0 : Int) - ((Nat.toDigits 10 d.digits).drop k).length = d.exponent := by
      rw [List.length_drop]
      omega
    rw [value_eq_toDouble, List.take_append_drop, digitsValue_toDigits, hexp]

/-- The point stands before all digits. -/
theorem figures_below {k : Nat} (he : d.exponent + (Nat.toDigits 10 d.digits).length + k = 0) :
    Figures negative (d.toDouble negative) ['0'] (List.replicate k '0' ++ Nat.toDigits 10 d.digits)
      0 where
  whole_ne := List.cons_ne_nil _ _
  whole_digits := List.all_eq_true.mp rfl
  fraction_digits := append_ascii (ascii_zeroDigits (n := k)) ascii_toDigits
  plain _ := rfl
  value := by
    have hzeros : ['0'] ++ (List.replicate k '0' ++ Nat.toDigits 10 d.digits) =
        List.replicate (k + 1) '0' ++ Nat.toDigits 10 d.digits := rfl
    have hexp : (0 : Int) - (List.replicate k '0' ++ Nat.toDigits 10 d.digits).length =
        d.exponent := by
      rw [List.length_append, List.length_replicate]
      omega
    rw [value_eq_toDouble, hzeros, digitsValue_zeros_append isDigit_toDigits, digitsValue_toDigits,
      hexp]

theorem positionalText_figures (h0 : d.digits = 0 → d.exponent = 0) :
    ∃ whole fraction, Figures negative (d.toDouble negative) whole fraction 0 ∧
      l.positionalText (Nat.toDigits 10 d.digits) d.exponent = whole ++ pointText fraction ∧
      (l.pointed (d.exponent + (Nat.toDigits 10 d.digits).length - 1) = true → fraction ≠ []) := by
  have hlen : 0 < (Nat.toDigits 10 d.digits).length := Nat.length_toDigits_pos
  unfold positionalText
  dsimp only
  split
  · rename_i he
    split
    · exact ⟨_, ['0'], figures_whole negative he h0 (.inr rfl), rfl, fun _ => by decide⟩
    · exact ⟨_, [], figures_whole negative he h0 (.inl rfl), rfl, fun hp => absurd hp ‹_›⟩
  · split
    · rename_i he hlead
      obtain ⟨k, hk⟩ : ∃ k : Nat, d.exponent + (Nat.toDigits 10 d.digits).length = k :=
        ⟨(d.exponent + (Nat.toDigits 10 d.digits).length).toNat, by omega⟩
      have htake : (d.exponent + (Nat.toDigits 10 d.digits).length - 1 + 1).toNat = k := by omega
      have hfrac : (Nat.toDigits 10 d.digits).drop k ≠ [] := by
        rw [ne_eq, List.drop_eq_nil_iff]
        omega
      refine ⟨_, _, figures_among negative (k := k) (by omega) hk (by omega), ?_, fun _ => hfrac⟩
      rw [htake, pointText, if_neg hfrac]
    · rename_i he hlead
      obtain ⟨k, hk⟩ : ∃ k : Nat, d.exponent + (Nat.toDigits 10 d.digits).length + k = 0 :=
        ⟨(-(d.exponent + (Nat.toDigits 10 d.digits).length)).toNat, by omega⟩
      have hzeros : (-(d.exponent + (Nat.toDigits 10 d.digits).length - 1) - 1).toNat = k := by omega
      have hfrac : List.replicate k '0' ++ Nat.toDigits 10 d.digits ≠ [] := by
        simp [Nat.toDigits_ne_nil]
      refine ⟨_, _, figures_below negative hk, ?_, fun _ => hfrac⟩
      rw [zeroDigits, hzeros, pointText, if_neg hfrac]
      rfl

theorem exponentText_cons (c : Char) (cs : List Char) (lead : Int) :
    exponentText (c :: cs) lead = c :: pointText cs ++
      'e' :: (if lead < 0 then '-' else '+') ::
        (zeroDigits (2 - (Nat.toDigits 10 lead.natAbs).length) ++ Nat.toDigits 10 lead.natAbs) := by
  unfold exponentText pointText
  cases cs <;> simp

theorem exponentText_figures (d : Decimal) :
    ∃ first rest exponent lead,
      Figures negative (d.toDouble negative) [first] rest lead ∧
      exponentText (Nat.toDigits 10 d.digits)
          (d.exponent + (Nat.toDigits 10 d.digits).length - 1) =
        first :: pointText rest ++ 'e' :: (if lead < 0 then '-' else '+') :: exponent ∧
      exponent ≠ [] ∧ (∀ c ∈ exponent, c.isDigit = true) ∧
      digitsValue exponent = lead.natAbs := by
  have hds : ∀ c ∈ Nat.toDigits 10 d.digits, c.isDigit = true := ascii_toDigits
  have hvalue := digitsValue_toDigits d.digits
  obtain ⟨c, cs, hcs⟩ := List.exists_cons_of_ne_nil (Nat.toDigits_ne_nil (n := d.digits) (b := 10))
  rw [hcs] at hds hvalue ⊢
  obtain ⟨hc, hrest⟩ := List.forall_mem_cons.mp hds
  have hexp : d.exponent + (c :: cs).length - 1 - cs.length = d.exponent := by
    rw [List.length_cons]
    omega
  refine ⟨c, cs, _, _, ⟨List.cons_ne_nil _ _, ?_, hrest, ?_, ?_⟩, exponentText_cons c cs _, ?_, ?_, ?_⟩
  · intro x hx
    rw [List.mem_singleton.mp hx]
    exact hc
  · intro hh
    cases hh
    rfl
  · rw [value_eq_toDouble, List.singleton_append, hvalue, hexp]
  · simp [Nat.toDigits_ne_nil]
  · exact append_ascii ascii_zeroDigits ascii_toDigits
  · rw [zeroDigits, digitsValue_zeros_append isDigit_toDigits, digitsValue_toDigits]

end Texts

theorem toList_text_finite (l : Layout) (negative : Bool) {n : Nat} (h : Held n) :
    ((Double.finite negative n h).text l).toList =
      signText negative ++ l.decimalText (Shortest.shortest n) := by
  simp [Double.text]

theorem exponent_of_digits {n : Nat} (h : Held n) (hd : (Shortest.shortest n).digits = 0) :
    (Shortest.shortest n).exponent = 0 := by
  rw [Shortest.digits_shortest h hd]

/-- In source text a number has digits and at most one point. -/
theorem source_figures {n : Nat} (h : Held n) :
    ∃ whole fraction, Figures false (.finite false n h) whole fraction 0 ∧
      ((Double.finite false n h).text source).toList = whole ++ pointText fraction := by
  obtain ⟨whole, fraction, hfig, htext, -⟩ :=
    positionalText_figures (l := source) false (exponent_of_digits h)
  rw [Shortest.toDouble_shortest h] at hfig
  refine ⟨whole, fraction, hfig, ?_⟩
  rw [toList_text_finite, ← htext]
  rfl

/-- What stands behind the digits and their point, and the exponent that it denotes. -/
inductive ExponentPart : List Char → Int → Prop where
  | none : ExponentPart [] 0
  | some {ds lead} : ds ≠ [] → (∀ c ∈ ds, c.isDigit = true) → digitsValue ds = lead.natAbs →
      ExponentPart ('e' :: (if lead < 0 then '-' else '+') :: ds) lead

/-- A decimal is written with digits, a point or none, and an exponent or none. -/
theorem decimalText_figures (l : Layout) (negative : Bool) {d : Decimal}
    (h0 : d.digits = 0 → d.exponent = 0) :
    ∃ whole fraction lead behind, Figures negative (d.toDouble negative) whole fraction lead ∧
      ExponentPart behind lead ∧
      (l.pointed (d.exponent + (Nat.toDigits 10 d.digits).length - 1) = true →
        fraction ≠ [] ∨ behind ≠ []) ∧
      l.decimalText d = whole ++ (pointText fraction ++ behind) := by
  rw [decimalText]
  split
  · obtain ⟨whole, fraction, hfig, htext, hpointed⟩ := positionalText_figures (l := l) negative h0
    refine ⟨whole, fraction, 0, [], hfig, .none, fun hp => .inl (hpointed hp), ?_⟩
    rw [htext, List.append_nil]
  · obtain ⟨first, more, exponent, lead, hfig, htext, hne, hds, hv⟩ :=
      exponentText_figures negative d
    refine ⟨[first], more, lead, _, hfig, .some hne hds hv, fun _ => .inr (List.cons_ne_nil _ _), ?_⟩
    rw [htext]
    rfl

/-- In tree files a number has a point or an exponent. -/
theorem tree_figures (negative : Bool) {n : Nat} (h : Held n) :
    ∃ whole fraction lead behind, Figures negative (.finite negative n h) whole fraction lead ∧
      ExponentPart behind lead ∧ (fraction ≠ [] ∨ behind ≠ []) ∧
      ((Double.finite negative n h).text tree).toList =
        signText negative ++ (whole ++ (pointText fraction ++ behind)) := by
  obtain ⟨whole, fraction, lead, behind, hfig, hexp, hpointed, htext⟩ :=
    decimalText_figures tree negative (exponent_of_digits h)
  rw [Shortest.toDouble_shortest h] at hfig
  refine ⟨whole, fraction, lead, behind, hfig, hexp, hpointed rfl, ?_⟩
  rw [toList_text_finite, htext]

end Layout

end StackLang
