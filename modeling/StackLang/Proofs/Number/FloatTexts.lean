import StackLang.Proofs.Json.ReadBack
import StackLang.Proofs.Number.Numerals
import StackLang.Proofs.Number.Shortest
import StackLang.Value.Conversion

/-! # Texts of floats

How a float is written, said apart from the writer: by a word, as a whole number or with the fewest
digits. Every such text is read as the float that it stands for, and only zero loses its sign. -/

namespace StackLang

open StackLang.Text

/-- How a float is written: by a word where it is not finite, as an integer where it is whole and
below 10^16, and otherwise with the fewest digits that are read as the float. -/
inductive FloatText : Double → List Char → Prop where
  | nan : FloatText .nan "NaN".toList
  | infinite {negative} :
      FloatText (.infinite negative) (Layout.signText negative ++ "Infinity".toList)
  | whole {negative n held k} : n = k * oneSteps → k < Nat.pow 10 16 →
      FloatText (.finite negative n held)
        (Layout.signText (negative && k != 0) ++ Nat.toDigits 10 k)
  | shortest {negative n held d} : (∀ k < Nat.pow 10 16, n ≠ k * oneSteps) → IsShortest n d →
      FloatText (.finite negative n held)
        (Layout.signText negative ++ Layout.display.decimalText d)

/-! ### What is written -/

theorem toList_text_signed (negative : Bool) (k : Nat) :
    (Integer.text (Double.signed negative k)).toList =
      Layout.signText (negative && k != 0) ++ Nat.toDigits 10 k := by
  have hsign : decide (Double.signed negative k < 0) = (negative && k != 0) := by
    cases negative with
    | false => simp [Double.signed]
    | true =>
      obtain rfl | hpos := Nat.eq_zero_or_pos k
      · rfl
      · simp [Double.signed, hpos, hpos.ne']
  have habs : (Double.signed negative k).natAbs = k := by
    cases negative <;> simp [Double.signed]
  rw [Integer.toList_text, hsign, habs]

theorem floatText_plain (x : Double) : FloatText x x.plain.toList := by
  cases x with
  | nan => exact .nan
  | infinite s => cases s <;> exact .infinite
  | finite s n h =>
    rw [Double.plain]
    split
    · rename_i hwhole
      have hk : n = n / oneSteps * oneSteps :=
        (Nat.div_mul_cancel (Nat.dvd_of_mod_eq_zero hwhole.1)).symm
      rw [toList_text_signed]
      exact .whole hk ((Nat.div_lt_iff_lt_mul oneSteps_pos).mpr hwhole.2)
    · rename_i hnot
      have hlarge : ∀ k < Nat.pow 10 16, n ≠ k * oneSteps := by
        intro k hk hn
        refine hnot ⟨?_, ?_⟩
        · rw [hn, Nat.mul_mod_left]
        · rw [hn]
          exact Nat.mul_lt_mul_of_pos_right hk oneSteps_pos
      have hpos : 0 < n := by
        refine Nat.pos_of_ne_zero fun hzero => hlarge 0 (by decide) ?_
        rw [hzero, Nat.zero_mul]
      rw [Layout.toList_text_finite]
      exact .shortest hlarge (Shortest.isShortest_shortest h hpos)

/-- The first whole number that is not written as one. -/
example : (Double.ofInt 10000000000000000).plain = "1e+16" := by decide +kernel

/-! ### Numbers as they are typed -/

namespace Json

theorem blanks_beside_numbers :
    (blanks.all fun r => decide (r.2 < 43) || decide (122 < r.1)) = true := by decide

theorem toNat_of_isScalarChar {c : Char} (h : isScalarChar c = true) :
    43 ≤ c.toNat ∧ c.toNat ≤ 122 := by
  simp only [isScalarChar, Char.isAlphanum, Bool.or_eq_true, beq_iff_eq] at h
  obtain (((halpha | hdigit) | rfl) | rfl) | rfl := h
  · obtain hupper | hlower := (Bool.or_eq_true _ _).mp halpha
    · obtain ⟨hlow, hhigh⟩ : 65 ≤ c.toNat ∧ c.toNat ≤ 90 := of_decide_eq_true hupper
      omega
    · obtain ⟨hlow, hhigh⟩ := (Bool.and_eq_true _ _).mp hlower
      have h97 : 97 ≤ c.toNat := of_decide_eq_true hlow
      have h122 : c.toNat ≤ 122 := of_decide_eq_true hhigh
      omega
  · obtain ⟨hlow, hhigh⟩ := (Bool.and_eq_true _ _).mp hdigit
    have h48 : 48 ≤ c.toNat := of_decide_eq_true hlow
    have h57 : c.toNat ≤ 57 := of_decide_eq_true hhigh
    omega
  · decide
  · decide
  · decide

theorem isBlank_of_isScalarChar {c : Char} (h : isScalarChar c = true) : isBlank c = false := by
  rw [Bool.eq_false_iff]
  intro hb
  obtain ⟨hlow, hhigh⟩ := toNat_of_isScalarChar h
  obtain ⟨r, hr, hl, hu⟩ := within_iff.mp hb
  have hd := List.all_eq_true.mp blanks_beside_numbers r hr
  simp only [Bool.or_eq_true, decide_eq_true_eq] at hd
  omega

/-- Neither white space nor a comma stands in the text of a number. -/
theorem IsScalar.readTyped? {text : List Char} (h : IsScalar text) :
    Numeral.readTyped? text = Numeral.read? text := by
  have hblank : ∀ c ∈ text, isBlank c = false := fun c hc => isBlank_of_isScalarChar (h.chars c hc)
  have htrim : trim text = text := by
    refine trim_of_ends ?_ ?_
    · exact fun c hc => hblank c (List.mem_of_mem_head? hc)
    · exact fun c hc => hblank c (List.mem_of_mem_getLast? hc)
  have hcomma : text.count ',' = 0 :=
    List.count_eq_zero.mpr fun hm => ne_of_isScalarChar (h.chars _ hm) (by decide) rfl
  rw [Numeral.readTyped?, htrim, Numeral.pointed, if_neg (by simp [hcomma])]

end Json

namespace Layout

theorem takeSign_signText {negative : Bool} {c : Char} (h : isDigit c = true) (cs : List Char) :
    takeSign (signText negative ++ c :: cs) = (negative, c :: cs) := by
  cases negative with
  | true => rfl
  | false => exact takeSign_of_digit h

theorem takeFraction_pointText {fraction behind : List Char} (hf : ∀ c ∈ fraction, isDigit c = true)
    (hb : ∀ c ∈ behind.head?, isDigit c = false ∧ c ≠ '.') :
    Numeral.takeFraction (pointText fraction ++ behind) = (fraction, behind) := by
  have hends : ∀ c ∈ behind.head?, isDigit c = false := fun c hc => (hb c hc).1
  unfold pointText
  split
  · subst fraction
    cases behind with
    | nil => rfl
    | cons c cs => simp [Numeral.takeFraction, (hb c rfl).2]
  · rw [List.cons_append, Numeral.takeFraction, takeWhile_append hf hends, dropWhile_append hf hends]

section

variable {behind : List Char} {lead : Int} (he : ExponentPart behind lead)
include he

theorem exponent?_part : Numeral.exponent? behind = some lead := by
  cases he with
  | none => rfl
  | @some ds lead hne hds hv =>
    have hall : ds.all isDigit = true :=
      List.all_eq_true.mpr fun c hc => isDigit_of_ascii (hds c hc)
    have hlead : (if decide (lead < 0) = true then -(lead.natAbs : Int) else lead.natAbs) = lead :=
      Integer.ofMagnitude_natAbs lead
    rw [Numeral.exponent?, takeSign_ite]
    dsimp only
    rw [if_pos ⟨.inl rfl, hne, hall⟩, hv, hlead]

theorem ExponentPart.not_point : ∀ c ∈ behind.head?, isDigit c = false ∧ c ≠ '.' := by
  cases he with
  | none => simp
  | some =>
    rintro c ⟨⟩
    decide

/-- Digits around a point behind a sign, with an exponent or none, are read as what they spell. -/
theorem Figures.readTyped? {negative : Bool} {x : Double} {whole fraction : List Char}
    (h : Figures negative x whole fraction lead) :
    Numeral.readTyped? (signText negative ++ (whole ++ (pointText fraction ++ behind))) = some x := by
  have hscalar := Json.isScalar_figures h he
  have hwhole : ∀ c ∈ whole, isDigit c = true := fun c hc => isDigit_of_ascii (h.whole_digits c hc)
  have hfraction : ∀ c ∈ fraction, isDigit c = true :=
    fun c hc => isDigit_of_ascii (h.fraction_digits c hc)
  have hunderscore : '_' ∉ signText negative ++ (whole ++ (pointText fraction ++ behind)) :=
    fun hm => Json.ne_of_isScalarChar (hscalar.chars _ hm) (by decide) rfl
  have hends : ∀ c ∈ (pointText fraction ++ behind).head?, isDigit c = false := by
    unfold pointText
    split
    · exact fun c hc => (he.not_point c hc).1
    · rintro c ⟨⟩
      decide
  have hunsigned := Numeral.unsigned?_append h.whole_ne hwhole negative hends
  rw [takeFraction_pointText hfraction he.not_point, exponent?_part he, Option.map_some, h.value]
    at hunsigned
  rw [hscalar.readTyped?, ← hunsigned]
  obtain ⟨c, cs, rfl⟩ := List.exists_cons_of_ne_nil h.whole_ne
  have hc := hwhole c List.mem_cons_self
  exact Numeral.read?_of_digit (takeSign_signText hc _) hc hunderscore

end

end Layout

/-! ### What is read -/

namespace Double

/-- Zero without its sign, and any other double as it is. -/
def unsignedZero (x : Double) : Double := if x = zero.neg then zero else x

theorem unsignedZero_finite (negative : Bool) {n : Nat} (h : Held n) :
    (finite negative n h).unsignedZero = finite (negative && n != 0) n h := by
  unfold unsignedZero
  split
  · rename_i heq
    obtain ⟨rfl, rfl⟩ := finite.inj heq
    rfl
  · rename_i hne
    have hsign : (negative && n != 0) = negative := by
      cases negative with
      | false => rfl
      | true =>
        refine bne_iff_ne.mpr fun hzero => hne ?_
        subst hzero
        rfl
    rw [hsign]

theorem eq_unsignedZero (x : Double) : x.unsignedZero.eq x = !x.isNaN := by
  cases x with
  | nan => rfl
  | infinite s => cases s <;> rfl
  | finite s n h =>
    rw [unsignedZero_finite]
    refine decide_eq_true ?_
    obtain rfl | hpos := Nat.eq_zero_or_pos n
    · cases s <;> rfl
    · rw [bne_iff_ne.mpr hpos.ne', Bool.and_true]

end Double

theorem Decimal.steps_whole {n k : Nat} (h : Held n) (hk : n = k * oneSteps) :
    Decimal.steps ⟨k, 0⟩ = n := by
  have hone : Nat.pow 10 (0 : Int).toNat = 1 := rfl
  have hround := roundSteps_of_held h Nat.one_pos
  rw [Nat.mul_one] at hround
  rw [steps, numerator, denominator, Int.neg_zero, hone, Nat.mul_one, ← hk, hround]

theorem FloatText.readTyped? {x : Double} {text : List Char} (h : FloatText x text) :
    Numeral.readTyped? text = some x.unsignedZero := by
  cases h with
  | nan => decide +kernel
  | @infinite negative => cases negative <;> decide +kernel
  | @whole negative n held k hn hlt =>
    have hsign : (n != 0) = (k != 0) := by
      rw [Bool.eq_iff_iff, bne_iff_ne, bne_iff_ne, hn, Nat.mul_ne_zero_iff,
        and_iff_left oneSteps_pos.ne']
    have hfig := Layout.figures_whole (d := ⟨k, 0⟩) (negative && k != 0) (Int.le_refl 0)
      (fun _ => rfl) (.inl rfl)
    rw [(Decimal.toDouble_eq_finite_iff _ held).mpr (Decimal.steps_whole held hn)] at hfig
    have hread := hfig.readTyped? .none
    rw [Double.unsignedZero_finite, hsign]
    simpa [Layout.zeroDigits, Layout.pointText] using hread
  | @shortest negative n held d hlarge hd =>
    have hpos : 0 < n := by
      refine Nat.pos_of_ne_zero fun hzero => hlarge 0 (by decide) ?_
      rw [hzero, Nat.zero_mul]
    have h0 : d.digits = 0 → d.exponent = 0 := by
      intro hzero
      have hwidth := Decimal.width_pos (hd.reads.symm ▸ hpos)
      rw [Decimal.width, hzero, Nat.digits_zero] at hwidth
      cases hwidth
    obtain ⟨whole, fraction, lead, behind, hfig, hexp, -, htext⟩ :=
      Layout.decimalText_figures .display negative h0
    rw [(Decimal.toDouble_eq_finite_iff _ held).mpr hd.reads] at hfig
    rw [htext, hfig.readTyped? hexp, Double.unsignedZero_finite, bne_iff_ne.mpr hpos.ne',
      Bool.and_true]

/-- Every float can be made a text, and the text is of one of the three kinds. It can be made a float
again, which is the same one, but for zero, which is without a sign; so it equals the first float
unless that is no number. -/
theorem float_texts_read_back (x : Double) : ∃ (t : String) (y : Double),
    Value.convert .text (.float x) = .ok (.text t) ∧ FloatText x t.toList ∧
    Value.convert .float (.text t) = .ok (.float y) ∧
    y.eq x = !x.isNaN ∧ y = if x = Double.zero.neg then .zero else x := by
  have hwritten := floatText_plain x
  have hread : Value.parseFloat x.plain = .ok x.unsignedZero := by
    rw [Value.parseFloat, Text.chars_ofString, hwritten.readTyped?]
  have hfloat : (Value.text x.plain).convert .float = (Value.parseFloat x.plain).map .float := rfl
  refine ⟨x.plain, x.unsignedZero, rfl, hwritten, ?_, x.eq_unsignedZero, rfl⟩
  rw [hfloat, hread]
  rfl

end StackLang
