import StackLang.Text.Blank
import StackLang.Text.Digit
import StackLang.Text.Letter

/-! # Classes of characters

No digit is a letter, so what a lexeme begins with decides its kind; and a row of characters of one
class that stands before a character of another is what taking that class gives. No digit is white
space either, and trimming takes away exactly the white space at both ends. -/

namespace StackLang.Text

theorem zeros_beyond_letters : (zeros.all fun z => lettersBeyondAscii.all fun r =>
    Nat.blt r.2 z || Nat.ble (z + 10) r.1) = true := by decide +kernel

theorem zeros_beyond_ascii :
    (zeros.all fun z => decide (z = 0x30) || decide (128 ≤ z)) = true := by decide +kernel

theorem exists_zero_of_isDigit {c : Char} (h : isDigit c = true) :
    ∃ z ∈ zeros, z ≤ c.toNat ∧ c.toNat < z + 10 := by
  obtain ⟨d, hd⟩ := Option.isSome_iff_exists.mp h
  obtain ⟨z, hz, -⟩ := Option.map_eq_some_iff.mp hd
  have hp := List.find?_some hz
  simp only [Bool.and_eq_true, decide_eq_true_eq] at hp
  exact ⟨z, List.mem_of_find?_eq_some hz, hp⟩

theorem isDigit_of_isLetter {c : Char} (h : isLetter c = true) : isDigit c = false := by
  rw [Bool.eq_false_iff]
  intro hd
  obtain ⟨z, hz, hle, hlt⟩ := exists_zero_of_isDigit hd
  unfold isLetter at h
  split at h
  · have hzero := List.all_eq_true.mp zeros_beyond_ascii z hz
    have ha : 65 ≤ c.toNat := by
      rcases (Bool.or_eq_true _ _).mp h with hu | hl
      · exact (of_decide_eq_true hu).1
      · have h97 : 97 ≤ c.toNat := of_decide_eq_true ((Bool.and_eq_true _ _).mp hl).1
        omega
    simp only [Bool.or_eq_true, decide_eq_true_eq] at hzero
    omega
  · obtain ⟨r, hr, hl, hu⟩ := within_iff.mp h
    have hd := List.all_eq_true.mp (List.all_eq_true.mp zeros_beyond_letters z hz) r hr
    rw [Bool.or_eq_true, Nat.blt_eq, Nat.ble_eq] at hd
    omega

theorem zeros_beyond_blanks : (zeros.all fun z => blanks.all fun r =>
    decide (r.2 < z) || decide (z + 10 ≤ r.1)) = true := by decide +kernel

theorem isBlank_of_isDigit {c : Char} (h : isDigit c = true) : isBlank c = false := by
  rw [Bool.eq_false_iff]
  intro hb
  obtain ⟨z, hz, hle, hlt⟩ := exists_zero_of_isDigit h
  obtain ⟨r, hr, hl, hu⟩ := within_iff.mp hb
  have hd := List.all_eq_true.mp (List.all_eq_true.mp zeros_beyond_blanks z hz) r hr
  simp only [Bool.or_eq_true, decide_eq_true_eq] at hd
  omega

theorem ne_of_isDigit {c d : Char} (h : isDigit c = true) (hd : isDigit d = false) : c ≠ d := by
  rintro rfl
  rw [h] at hd
  cases hd

theorem not_mem_digits {ds : List Char} (h : ∀ c ∈ ds, isDigit c = true) {c : Char}
    (hc : isDigit c = false) : c ∉ ds :=
  fun hm => ne_of_isDigit (h c hm) hc rfl

theorem takeSign_of_digit {c : Char} {cs : List Char} (h : isDigit c = true) :
    takeSign (c :: cs) = (false, c :: cs) := by
  have hm := ne_of_isDigit h (d := '-') (by decide)
  have hp := ne_of_isDigit h (d := '+') (by decide)
  unfold takeSign
  split
  · cases ‹_ = _›; exact absurd rfl hm
  · cases ‹_ = _›; exact absurd rfl hp
  · rfl

theorem takeSign_ite (p : Prop) [Decidable p] (cs : List Char) :
    takeSign ((if p then '-' else '+') :: cs) = (decide p, cs) := by
  split <;> simp [takeSign, *]

/-! ### Rows of one class -/

section Rows

variable {p : Char → Bool} {as bs : List Char}

theorem takeWhile_append (ha : ∀ c ∈ as, p c = true) (hb : ∀ c ∈ bs.head?, p c = false) :
    (as ++ bs).takeWhile p = as := by
  rw [List.takeWhile_append_of_pos ha]
  cases bs with
  | nil => simp
  | cons b bs => simp [hb b rfl]

theorem dropWhile_append (ha : ∀ c ∈ as, p c = true) (hb : ∀ c ∈ bs.head?, p c = false) :
    (as ++ bs).dropWhile p = bs := by
  rw [List.dropWhile_append_of_pos ha]
  cases bs with
  | nil => rfl
  | cons b bs => simp [hb b rfl]

theorem head?_dropWhile (cs : List Char) : ∀ c ∈ (cs.dropWhile p).head?, p c = false := by
  intro c hc
  have h := List.head?_dropWhile_not p cs
  rw [Option.mem_def.mp hc] at h
  simpa using h

theorem mem_takeWhile {cs : List Char} : ∀ c ∈ cs.takeWhile p, p c = true :=
  List.all_eq_true.mp List.all_takeWhile

end Rows

/-! ### White space -/

/-- Nothing but white space. -/
def Blanks (cs : List Char) : Prop := ∀ c ∈ cs, isBlank c = true

theorem blanks_nil : Blanks [] := by
  intro c hc
  cases hc

theorem blanks_reverse {cs : List Char} (h : Blanks cs) : Blanks cs.reverse :=
  fun c hc => h c (List.mem_reverse.mp hc)

/-- What begins and ends with other characters is what trimming leaves of it. -/
theorem trim_append {before body after : List Char} (hb : Blanks before) (ha : Blanks after)
    (hne : body ≠ []) (hhead : ∀ c ∈ body.head?, isBlank c = false)
    (hlast : ∀ c ∈ body.getLast?, isBlank c = false) : trim (before ++ body ++ after) = body := by
  have hstart : ∀ c ∈ (body ++ after).head?, isBlank c = false := by
    obtain ⟨c, cs, rfl⟩ := List.exists_cons_of_ne_nil hne
    exact hhead
  have hend : ∀ c ∈ body.reverse.head?, isBlank c = false := by
    rwa [← List.getLast?_eq_head?_reverse]
  rw [trim, List.append_assoc, dropWhile_append hb hstart, trimEnd, List.reverse_append,
    dropWhile_append (blanks_reverse ha) hend, List.reverse_reverse]

theorem exists_trimEnd (cs : List Char) : ∃ after, Blanks after ∧ cs = trimEnd cs ++ after := by
  refine ⟨(cs.reverse.takeWhile isBlank).reverse, blanks_reverse mem_takeWhile, ?_⟩
  rw [trimEnd, ← List.reverse_append, List.takeWhile_append_dropWhile, List.reverse_reverse]

/-- Trimming takes away nothing but white space. -/
theorem exists_trim (cs : List Char) :
    ∃ before after, Blanks before ∧ Blanks after ∧ cs = before ++ trim cs ++ after := by
  obtain ⟨after, ha, hafter⟩ := exists_trimEnd (cs.dropWhile isBlank)
  refine ⟨cs.takeWhile isBlank, after, mem_takeWhile, ha, ?_⟩
  rw [trim, List.append_assoc, ← hafter, List.takeWhile_append_dropWhile]

end StackLang.Text
