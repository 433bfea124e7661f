import Mathlib.Data.List.TakeWhile
import StackLang.Number.Numeral
import StackLang.Proofs.Text.Classes

/-! # Numerals of digits

Digits, and digits with a point and digits behind them, are read as the number they spell: they hold
no sign, no underscore and no exponent, and they name nothing. -/

namespace StackLang.Numeral

open StackLang.Text

theorem joinDigits_of_no_underscore {afterDigit : Bool} {cs : List Char} (h : '_' ∉ cs) :
    joinDigits afterDigit cs = some cs := by
  induction cs generalizing afterDigit with
  | nil => rfl
  | cons c cs ih =>
    rw [List.mem_cons, not_or] at h
    obtain ⟨hc, hcs⟩ := h
    rw [joinDigits, if_neg (Ne.symm hc), ih hcs]
    rfl

theorem toLower_of_digit {c : Char} (h : isDigit c = true) : c.toLower = c := by
  unfold Char.toLower
  split
  · have hu : c.isUpper = true := decide_eq_true ‹_ ∧ _›
    have hl : isLetter c = true := by
      have hlt : c.toNat < 128 := Nat.lt_of_le_of_lt (‹_ ∧ _› : _ ∧ c.val ≤ 'Z'.val).2 (by decide)
      rw [isLetter_ascii hlt]
      exact (Bool.or_eq_true _ _).mpr (.inl hu)
    rw [isDigit_of_isLetter hl] at h
    cases h
  · rfl

/-- The names of numbers begin with letters. -/
theorem named?_of_digit {negative : Bool} {c : Char} {cs : List Char} (h : isDigit c = true) :
    named? negative (c :: cs) = none := by
  have hne : ∀ {d : Char} {w : List Char}, isDigit d = false →
      String.ofList ((c :: cs).map Char.toLower) ≠ String.ofList (d :: w) := by
    intro d w hd he
    have hl := String.ofList_injective he
    rw [List.map_cons, toLower_of_digit h] at hl
    exact ne_of_isDigit h hd (List.cons.inj hl).1
  unfold named?
  rw [if_neg, if_neg]
  · exact hne (d := 'n') (w := ['a', 'n']) (by decide)
  · intro hw
    rcases hw with hw | hw
    · exact hne (d := 'i') (w := ['n', 'f']) (by decide) hw
    · exact hne (d := 'i') (w := ['n', 'f', 'i', 'n', 'i', 't', 'y']) (by decide) hw

/-- What begins with a digit behind its sign and has no underscore is read as digits, a point and an
exponent. -/
theorem read?_of_digit {negative : Bool} {text cs : List Char} {c : Char}
    (hs : takeSign text = (negative, c :: cs)) (hc : isDigit c = true) (hu : '_' ∉ text) :
    read? text = unsigned? negative (c :: cs) := by
  rw [read?, joinDigits_of_no_underscore hu]
  simp only [Option.bind_eq_bind, Option.bind_some, hs, named?_of_digit hc]
  rfl

section Digits

variable {ds : List Char} (hne : ds ≠ []) (hd : ∀ c ∈ ds, isDigit c = true)
include hne hd

/-- Digits are taken up to what follows them. -/
theorem unsigned?_append (negative : Bool) {rest : List Char}
    (hr : ∀ c ∈ rest.head?, isDigit c = false) :
    unsigned? negative (ds ++ rest) =
      (exponent? (takeFraction rest).2).map (value negative ds (takeFraction rest).1) := by
  rw [unsigned?, takeWhile_append hd hr, dropWhile_append hd hr]
  simp [hne]

theorem unsigned?_whole (negative : Bool) :
    unsigned? negative ds = some (value negative ds [] 0) := by
  have happend : unsigned? negative (ds ++ []) = some (value negative ds [] 0) :=
    unsigned?_append hne hd negative (by simp)
  rwa [List.append_nil] at happend

theorem read?_whole : read? ds = some (value false ds [] 0) := by
  have hu : '_' ∉ ds := not_mem_digits hd (by decide)
  rw [← unsigned?_whole hne hd]
  obtain ⟨c, cs, rfl⟩ := List.exists_cons_of_ne_nil hne
  have hc := hd c List.mem_cons_self
  exact read?_of_digit (takeSign_of_digit hc) hc hu

variable {fs : List Char} (hf : ∀ c ∈ fs, isDigit c = true)
include hf

theorem unsigned?_fraction (negative : Bool) :
    unsigned? negative (ds ++ '.' :: fs) = some (value negative ds fs 0) := by
  have htake : fs.takeWhile isDigit = fs := List.takeWhile_eq_self_iff.mpr hf
  have hdrop : fs.dropWhile isDigit = [] := List.dropWhile_eq_nil_iff.mpr hf
  rw [unsigned?_append hne hd negative (by rintro c ⟨⟩; decide)]
  simp [takeFraction, htake, hdrop, exponent?]

theorem read?_digits : read? (ds ++ '.' :: fs) = some (value false ds fs 0) := by
  have hu : '_' ∉ ds ++ '.' :: fs := by
    simp [not_mem_digits hd (c := '_') (by decide), not_mem_digits hf (c := '_') (by decide)]
  rw [← unsigned?_fraction hne hd hf]
  obtain ⟨c, cs, rfl⟩ := List.exists_cons_of_ne_nil hne
  have hc := hd c List.mem_cons_self
  exact read?_of_digit (takeSign_of_digit hc) hc hu

end Digits

end StackLang.Numeral
