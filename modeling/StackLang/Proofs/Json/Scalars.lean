import StackLang.Json.Reader
import StackLang.Json.Writer
import StackLang.Proofs.Number.IntegerTexts
import StackLang.Proofs.Number.Layouts

/-! # Written scalars

Words, numbers and quoted texts of JSON are read as the values that they were written from, as long
as nothing follows that could go on with a number. Integers must not be too long, and texts must be
strings. -/

namespace StackLang.Json

open StackLang.Text

/-- What may stand behind a written value: nothing, or what parts it from the next. -/
def Follows (rest : List Char) : Prop := ∀ c ∈ rest.head?, c = ',' ∨ c = '\n'

theorem isAsciiDigit_of_isDigit {cs : List Char} (h : ∀ c ∈ cs, c.isDigit = true) :
    ∀ c ∈ cs, isAsciiDigit c = true := h

section

variable {rest : List Char} (h : Follows rest)
include h

theorem Follows.not_digit : ∀ c ∈ rest.head?, isAsciiDigit c = false := by
  intro c hc
  rcases h c hc with rfl | rfl <;> decide

theorem Follows.not_point : ∀ c ∈ rest.head?, c ≠ '.' := by
  intro c hc
  rcases h c hc with rfl | rfl <;> decide

theorem scanExponent_of_follows : scanExponent rest = (none, rest) := by
  cases rest with
  | nil => rfl
  | cons c cs => rcases h c rfl with rfl | rfl <;> rfl

end

/-! ### Parts of numbers -/

theorem scanFraction_of_ne {rest : List Char} (h : ∀ c ∈ rest.head?, c ≠ '.') :
    scanFraction rest = ([], rest) := by
  cases rest with
  | nil => rfl
  | cons c cs => simp [scanFraction, h c rfl]

section

variable {ds rest : List Char} (hne : ds ≠ []) (hd : ∀ c ∈ ds, isAsciiDigit c = true)
  (hr : ∀ c ∈ rest.head?, isAsciiDigit c = false)
include hne hd hr

theorem scanWhole?_digits (hplain : ds.head? = some '0' → ds = ['0']) :
    scanWhole? (ds ++ rest) = some (ds, rest) := by
  obtain ⟨c, cs, rfl⟩ := List.exists_cons_of_ne_nil hne
  obtain ⟨hc, hcs⟩ := List.forall_mem_cons.mp hd
  rw [List.cons_append, scanWhole?]
  split
  · subst c
    have hnil : cs = [] := (List.cons.inj (hplain rfl)).2
    rw [hnil, List.nil_append]
  · rw [takeWhile_append hcs hr, dropWhile_append hcs hr]

omit hr in
theorem head?_digits : (ds ++ rest).head?.any isAsciiDigit = true := by
  obtain ⟨c, cs, rfl⟩ := List.exists_cons_of_ne_nil hne
  exact hd c List.mem_cons_self

theorem scanFraction_digits : scanFraction ('.' :: (ds ++ rest)) = (ds, rest) := by
  rw [scanFraction, if_pos (head?_digits hne hd), takeWhile_append hd hr,
    dropWhile_append hd hr]

theorem scanExponent_digits {lead : Int} (hv : digitsValue ds = lead.natAbs) :
    scanExponent ('e' :: (if lead < 0 then '-' else '+') :: (ds ++ rest)) = (some lead, rest) := by
  have hlead : (if decide (lead < 0) = true then -(lead.natAbs : Int) else lead.natAbs) = lead :=
    Integer.ofMagnitude_natAbs lead
  rw [scanExponent, if_pos (.inl rfl), takeSign_ite]
  dsimp only
  rw [if_pos (head?_digits hne hd), takeWhile_append hd hr, dropWhile_append hd hr, hv, hlead]

end

/-! ### Numbers -/

theorem scanWord?_digit {negative : Bool} {c : Char} (hc : isAsciiDigit c = true) (cs : List Char) :
    scanWord? (Layout.signText negative ++ c :: cs) = none := by
  have hne : ∀ d, isAsciiDigit d = false → d ≠ c := by
    rintro d hd rfl
    rw [hd] at hc
    cases hc
  cases negative <;>
    simp [scanWord?, words, Layout.signText, hne 'n' rfl, hne 't' rfl, hne 'f' rfl, hne 'N' rfl,
      hne 'I' rfl, hne '-' rfl]

theorem takeMinus_digit {negative : Bool} {c : Char} (hc : isAsciiDigit c = true)
    (cs : List Char) : takeMinus (Layout.signText negative ++ c :: cs) = (negative, c :: cs) := by
  cases negative with
  | true => rfl
  | false =>
    have hne : c ≠ '-' := by
      rintro rfl
      cases hc
    simp [takeMinus, Layout.signText, hne]

/-- How a number begins: with a row of digits, in which no zero stands in front. -/
structure Whole (whole rest : List Char) : Prop where
  ne : whole ≠ []
  digits : ∀ c ∈ whole, isAsciiDigit c = true
  plain : whole.head? = some '0' → whole = ['0']
  ends : ∀ c ∈ rest.head?, isAsciiDigit c = false

section

variable {negative : Bool} {whole rest rest' : List Char} (h : Whole whole rest)
include h

theorem Whole.takeMinus :
    takeMinus (Layout.signText negative ++ (whole ++ rest)) = (negative, whole ++ rest) := by
  obtain ⟨c, cs, rfl⟩ := List.exists_cons_of_ne_nil h.ne
  exact takeMinus_digit (h.digits c List.mem_cons_self) (cs ++ rest)

theorem Whole.scanWord? :
    scanWord? (Layout.signText negative ++ (whole ++ rest)) = none := by
  obtain ⟨c, cs, rfl⟩ := List.exists_cons_of_ne_nil h.ne
  exact scanWord?_digit (h.digits c List.mem_cons_self) (cs ++ rest)

theorem Whole.scanNumber_integer (hf : scanFraction rest = ([], rest))
    (he : scanExponent rest = (none, rest)) (hlen : whole.length ≤ Integer.digitLimit) :
    scanNumber (Layout.signText negative ++ (whole ++ rest)) =
      .ok (.integer (Integer.ofMagnitude negative (digitsValue whole)), rest) := by
  rw [scanNumber, h.takeMinus]
  dsimp only
  rw [scanWhole?_digits h.ne h.digits h.ends h.plain]
  dsimp only
  rw [hf]
  dsimp only
  rw [he]
  dsimp only
  rw [if_neg (Nat.not_lt.mpr hlen)]

theorem Whole.scanNumber_float {fraction : List Char} {e? : Option Int}
    (hf : scanFraction rest = (fraction, rest')) {after : List Char}
    (he : scanExponent rest' = (e?, after)) (hsome : fraction ≠ [] ∨ e?.isSome) :
    scanNumber (Layout.signText negative ++ (whole ++ rest)) =
      .ok (.float (Numeral.value negative whole fraction (e?.getD 0)), after) := by
  rw [scanNumber, h.takeMinus]
  dsimp only
  rw [scanWhole?_digits h.ne h.digits h.ends h.plain]
  dsimp only
  rw [hf]
  cases fraction with
  | nil =>
    obtain ⟨e, rfl⟩ := Option.isSome_iff_exists.mp (hsome.resolve_left fun hne => hne rfl)
    dsimp only
    rw [he]
    rfl
  | cons c cs =>
    dsimp only
    rw [he]

end

theorem stepScalar_integer {n : Int} (h : n.natAbs < Integer.textLimit) {rest : List Char}
    (hr : Follows rest) (stack : List Frame) :
    stepScalar stack ((Integer.text n).toList ++ rest) = .more (.after (.integer n)) stack rest := by
  have hlen : (Nat.toDigits 10 n.natAbs).length ≤ Integer.digitLimit := by
    rw [Integer.textLimit_eq] at h
    exact length_toDigits_le (by decide) h
  have hwhole : Whole (Nat.toDigits 10 n.natAbs) rest := by
    refine ⟨Nat.toDigits_ne_nil, isAsciiDigit_of_isDigit ascii_toDigits, fun hz => ?_, hr.not_digit⟩
    rw [Layout.plain_toDigits hz]
    rfl
  rw [Integer.toList_text, List.append_assoc, stepScalar, hwhole.scanWord?,
    hwhole.scanNumber_integer (scanFraction_of_ne hr.not_point) (scanExponent_of_follows hr) hlen,
    digitsValue_toDigits, Integer.ofMagnitude_natAbs]

/-- Digits around a point, with or without an exponent after them, are read as what they spell. -/
theorem stepScalar_figures {negative : Bool} {x : Double} {whole fraction : List Char}
    {lead : Int} {rest after : List Char} {e? : Option Int}
    (h : Layout.Figures negative x whole fraction lead) (he : scanExponent rest = (e?, after))
    (hlead : e?.getD 0 = lead) (hsome : fraction ≠ [] ∨ e?.isSome)
    (hr : ∀ c ∈ rest.head?, isAsciiDigit c = false ∧ c ≠ '.') (stack : List Frame) :
    stepScalar stack (Layout.signText negative ++ (whole ++ (Layout.pointText fraction ++ rest))) =
      .more (.after (.float x)) stack after := by
  have hnot : ∀ c ∈ rest.head?, isAsciiDigit c = false := fun c hc => (hr c hc).1
  have hfraction : scanFraction (Layout.pointText fraction ++ rest) = (fraction, rest) := by
    unfold Layout.pointText
    split
    · subst fraction
      exact scanFraction_of_ne fun c hc => (hr c hc).2
    · exact scanFraction_digits ‹_› h.fraction_digits hnot
  have hwhole : Whole whole (Layout.pointText fraction ++ rest) := by
    refine ⟨h.whole_ne, h.whole_digits, h.plain, ?_⟩
    unfold Layout.pointText
    split
    · exact hnot
    · intro c hc
      cases hc
      rfl
  rw [stepScalar, hwhole.scanWord?, hwhole.scanNumber_float hfraction he hsome, hlead, h.value]

theorem scanWord?_words {w : List Char × Json} (h : w ∈ words) (rest : List Char) :
    scanWord? (w.1 ++ rest) = some (w.2, rest) := by
  simp only [words, List.mem_cons, List.not_mem_nil, or_false] at h
  rcases h with rfl | rfl | rfl | rfl | rfl | rfl <;> rfl

theorem stepScalar_word {w : List Char × Json} (h : w ∈ words) (rest : List Char)
    (stack : List Frame) : stepScalar stack (w.1 ++ rest) = .more (.after w.2) stack rest := by
  rw [stepScalar, scanWord?_words h]

theorem scanExponent_part {behind rest : List Char} {lead : Int}
    (h : Layout.ExponentPart behind lead) (hr : Follows rest) :
    ∃ e?, scanExponent (behind ++ rest) = (e?, rest) ∧ e?.getD 0 = lead ∧
      (behind ≠ [] → e?.isSome) ∧
      ∀ c ∈ (behind ++ rest).head?, isAsciiDigit c = false ∧ c ≠ '.' := by
  cases h with
  | none =>
    exact ⟨none, scanExponent_of_follows hr, rfl, fun hne => absurd rfl hne,
      fun c hc => ⟨hr.not_digit c hc, hr.not_point c hc⟩⟩
  | some hne hds hv =>
    refine ⟨lead, ?_, rfl, fun _ => rfl, ?_⟩
    · exact scanExponent_digits hne (isAsciiDigit_of_isDigit hds) hr.not_digit hv
    · intro c hc
      cases hc
      decide

theorem stepScalar_finite (negative : Bool) {n : Nat} (h : Held n) {rest : List Char}
    (hr : Follows rest) (stack : List Frame) :
    stepScalar stack (((Double.finite negative n h).text .tree).toList ++ rest) =
      .more (.after (.float (.finite negative n h))) stack rest := by
  obtain ⟨whole, fraction, lead, behind, hfig, hexp, hsome, htext⟩ :=
    Layout.tree_figures negative h
  obtain ⟨e?, hscan, hlead, hbehind, hends⟩ := scanExponent_part hexp hr
  rw [htext]
  simp only [List.append_assoc]
  exact stepScalar_figures hfig hscan hlead (hsome.imp_right hbehind) hends stack

theorem stepScalar_float (x : Double) {rest : List Char} (hr : Follows rest)
    (stack : List Frame) :
    stepScalar stack ((x.text .tree).toList ++ rest) = .more (.after (.float x)) stack rest := by
  cases x with
  | nan => exact stepScalar_word (w := ("NaN".toList, .float .nan)) (by simp [words]) rest stack
  | infinite s =>
    cases s with
    | false =>
      exact stepScalar_word (w := ("Infinity".toList, .float (.infinite false))) (by simp [words])
        rest stack
    | true =>
      exact stepScalar_word (w := ("-Infinity".toList, .float (.infinite true))) (by simp [words])
        rest stack
  | finite negative n h => exact stepScalar_finite negative h hr stack

end StackLang.Json
