import Mathlib.Data.List.Basic
import StackLang.Text.Digit

/-! # Rows of digits

The value of a row of digits, and the rows that decimal text of a number consists of: ASCII digits
that denote the number, the first of them a zero for zero only. -/

namespace StackLang.Text

/-! ### Values -/

theorem digitsValue_append {as bs : List Char} (h : ∀ c ∈ bs, isDigit c = true) :
    digitsValue (as ++ bs) = digitsValue as * Nat.pow 10 bs.length + digitsValue bs := by
  have hlen : (bs.filterMap digitValue?).length = bs.length := by
    induction bs with
    | nil => rfl
    | cons c cs ih =>
      obtain ⟨hc, hcs⟩ := List.forall_mem_cons.mp h
      obtain ⟨d, hd⟩ := Option.isSome_iff_exists.mp hc
      rw [List.filterMap_cons_some hd, List.length_cons, List.length_cons, ih hcs]
  rw [digitsValue, List.filterMap_append, ofDigits_append, hlen]
  rfl

theorem isDigit_zero : isDigit '0' = true := by decide

theorem isDigit_replicate_zero {n : Nat} : ∀ c ∈ List.replicate n '0', isDigit c = true := by
  intro c hc
  rw [List.eq_of_mem_replicate hc]
  exact isDigit_zero

theorem digitsValue_replicate_zero (n : Nat) : digitsValue (List.replicate n '0') = 0 := by
  induction n with
  | zero => rfl
  | succ n ih =>
    rw [List.replicate_succ', digitsValue_append fun c hc => ?_, ih, Nat.zero_mul, Nat.zero_add]
    · rfl
    · rw [List.mem_singleton.mp hc]
      exact isDigit_zero

/-- Zeros in front do not count. -/
theorem digitsValue_zeros_append {n : Nat} {cs : List Char} (h : ∀ c ∈ cs, isDigit c = true) :
    digitsValue (List.replicate n '0' ++ cs) = digitsValue cs := by
  rw [digitsValue_append h, digitsValue_replicate_zero, Nat.zero_mul, Nat.zero_add]

/-- Zeros at the end multiply. -/
theorem digitsValue_append_zeros (cs : List Char) (n : Nat) :
    digitsValue (cs ++ List.replicate n '0') = digitsValue cs * Nat.pow 10 n := by
  rw [digitsValue_append isDigit_replicate_zero, digitsValue_replicate_zero, List.length_replicate]
  rfl

/-! ### ASCII digits -/

theorem digitValue?_of_ascii {c : Char} (h : c.isDigit = true) :
    digitValue? c = some (c.toNat - '0'.toNat) := by
  simp only [Char.isDigit, Bool.and_eq_true, decide_eq_true_eq] at h
  obtain ⟨hlo, hhi⟩ := h
  have h48 : 0x30 ≤ c.toNat := hlo
  have h57 : c.toNat ≤ 57 := hhi
  have hfind : zeros.find? (fun z => decide (z ≤ c.toNat) && decide (c.toNat < z + 10)) =
      some 0x30 := by
    have hlt : c.toNat < 0x30 + 10 := by omega
    rw [zeros, List.find?_cons_of_pos]
    simp [h48, hlt]
  rw [digitValue?, hfind]
  rfl

theorem isDigit_of_ascii {c : Char} (h : c.isDigit = true) : isDigit c = true := by
  rw [isDigit, digitValue?_of_ascii h]
  rfl

theorem ascii_toDigits {n : Nat} : ∀ c ∈ Nat.toDigits 10 n, c.isDigit = true :=
  fun _ hc => Nat.isDigit_of_mem_toDigits (by decide) (by decide) hc

theorem isDigit_toDigits {n : Nat} : ∀ c ∈ Nat.toDigits 10 n, isDigit c = true :=
  fun c hc => isDigit_of_ascii (ascii_toDigits c hc)

theorem digitsValue_of_ascii {cs : List Char} (h : ∀ c ∈ cs, c.isDigit = true) :
    digitsValue cs = Nat.ofDigitChars 10 cs 0 := by
  have hmap : cs.filterMap digitValue? = cs.map fun c => c.toNat - '0'.toNat := by
    rw [← List.filterMap_eq_map]
    exact List.filterMap_congr fun c hc => digitValue?_of_ascii (h c hc)
  rw [digitsValue, hmap, ofDigits, List.foldl_map, Nat.ofDigitChars_eq_foldl]

@[simp] theorem digitsValue_toDigits (n : Nat) : digitsValue (Nat.toDigits 10 n) = n := by
  rw [digitsValue_of_ascii ascii_toDigits, Nat.ofDigitChars_ten_toDigits]

theorem digitChar_ne_zero {d : Nat} (h : d < 10) (h0 : d ≠ 0) : Nat.digitChar d ≠ '0' := by
  have hall : ∀ d < 10, d ≠ 0 → Nat.digitChar d ≠ '0' := by decide
  exact hall d h h0

/-- The first digit of a number is a zero only where it is the number zero. -/
theorem head?_toDigits {n : Nat} (h : n ≠ 0) : ∀ c ∈ (Nat.toDigits 10 n).head?, c ≠ '0' := by
  induction n using Nat.strongRecOn with
  | ind n ih =>
  intro c hc
  by_cases hlt : n < 10
  · rw [Nat.toDigits_of_lt_base hlt] at hc
    cases hc
    exact digitChar_ne_zero hlt h
  · rw [Nat.toDigits_of_base_le (by decide) (by omega),
      List.head?_append_of_ne_nil _ Nat.toDigits_ne_nil] at hc
    exact ih (n / 10) (by omega) (by omega) c hc

theorem length_toDigits_le {n k : Nat} (hk : 0 < k) (h : n < Nat.pow 10 k) :
    (Nat.toDigits 10 n).length ≤ k :=
  (Nat.length_toDigits_le_iff (by decide) hk).mpr h

theorem toDigits_zero : Nat.toDigits 10 0 = ['0'] := rfl

end StackLang.Text
