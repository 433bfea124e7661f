import Mathlib.Data.Nat.Digits.Lemmas
import StackLang.Number.Integer
import StackLang.Number.Layout
import StackLang.Proofs.Text.Classes
import StackLang.Proofs.Text.Digits

/-! # Texts of integers

Which texts spell an integer, and which one: said apart from the reader, that accepts them unless
they have too many digits. What is written of an integer is such a text. -/

namespace StackLang

open StackLang.Text

/-- What may stand in front of the digits, and whether it is a minus. -/
inductive IsSign : List Char → Bool → Prop where
  | absent : IsSign [] false
  | plus : IsSign ['+'] false
  | minus : IsSign ['-'] true

/-- Characters that spell the integer `n`: white space, a sign or none, digits of these values, be
they of one script or of many, and white space again. -/
inductive SpellsInteger : List Char → List Nat → Int → Prop where
  | digits {before sign negative ds values after} : Blanks before → IsSign sign negative →
      ds.map digitValue? = values.map some → Blanks after →
      SpellsInteger (before ++ (sign ++ ds) ++ after) values
        (Integer.ofMagnitude negative (Nat.ofDigits 10 values.reverse))

/-! ### Digits and their values -/

theorem isDigit_of_map {ds : List Char} {values : List Nat}
    (h : ds.map digitValue? = values.map some) : ∀ c ∈ ds, isDigit c = true := by
  intro c hc
  have hmem : digitValue? c ∈ values.map some := h ▸ List.mem_map_of_mem hc
  obtain ⟨d, -, hd⟩ := List.mem_map.mp hmem
  rw [isDigit, ← hd]
  rfl

theorem exists_values {ds : List Char} (h : ∀ c ∈ ds, isDigit c = true) :
    ∃ values : List Nat, ds.map digitValue? = values.map some := by
  induction ds with
  | nil => exact ⟨[], rfl⟩
  | cons c ds ih =>
    obtain ⟨hc, hds⟩ := List.forall_mem_cons.mp h
    obtain ⟨d, hd⟩ := Option.isSome_iff_exists.mp hc
    obtain ⟨values, hvalues⟩ := ih hds
    exact ⟨d :: values, by rw [List.map_cons, List.map_cons, hd, hvalues]⟩

/-- The first digit counts most. -/
theorem digitsValue_eq_ofDigits {ds : List Char} {values : List Nat}
    (h : ds.map digitValue? = values.map some) :
    digitsValue ds = Nat.ofDigits 10 values.reverse := by
  have hvalues : ds.filterMap digitValue? = values := by
    have hmap := congrArg (List.filterMap id) h
    rwa [List.filterMap_map, List.filterMap_map, Function.id_comp, Function.id_comp,
      List.filterMap_some] at hmap
  rw [digitsValue, hvalues, ofDigits, Nat.ofDigits_eq_foldr, List.foldr_reverse]
  congr 1
  funext n d
  exact Nat.add_comm _ _

/-! ### Signs -/

theorem takeSign_append {sign ds : List Char} {negative : Bool} (hs : IsSign sign negative)
    (hd : ∀ c ∈ ds, isDigit c = true) : takeSign (sign ++ ds) = (negative, ds) := by
  cases hs with
  | absent =>
    cases ds with
    | nil => rfl
    | cons c ds => exact takeSign_of_digit (hd c List.mem_cons_self)
  | plus => rfl
  | minus => rfl

theorem exists_sign (cs : List Char) :
    ∃ sign, IsSign sign (takeSign cs).1 ∧ cs = sign ++ (takeSign cs).2 := by
  unfold takeSign
  split
  · exact ⟨['-'], .minus, rfl⟩
  · exact ⟨['+'], .plus, rfl⟩
  · exact ⟨[], .absent, rfl⟩

/-- A sign and digits have no white space at their ends. -/
theorem trim_signed {before sign ds after : List Char} {negative : Bool} (hb : Blanks before)
    (hs : IsSign sign negative) (hne : ds ≠ []) (hd : ∀ c ∈ ds, isDigit c = true)
    (ha : Blanks after) : trim (before ++ (sign ++ ds) ++ after) = sign ++ ds := by
  have hall : ∀ c ∈ sign ++ ds, isBlank c = false := by
    intro c hc
    rcases List.mem_append.mp hc with hc | hc
    · cases hs <;> simp at hc <;> subst c <;> decide
    · exact isBlank_of_isDigit (hd c hc)
  refine trim_append hb ha (List.append_ne_nil_of_right_ne_nil _ hne) ?_ ?_
  · exact fun c hc => hall c (List.mem_of_mem_head? hc)
  · exact fun c hc => hall c (List.mem_of_mem_getLast? hc)

/-- A half of a surrogate pair is shown as a character that is in no such text. -/
theorem SpellsInteger.replacement_not_mem {cs : List Char} {values : List Nat} {n : Int}
    (h : SpellsInteger cs values n) : '\uFFFD' ∉ cs := by
  cases h with
  | digits hb hs hvalues ha =>
    have hblank : isBlank '\uFFFD' ≠ true := by decide
    have hdigit : isDigit '\uFFFD' ≠ true := by decide
    intro hc
    rcases List.mem_append.mp hc with hc | hc
    · rcases List.mem_append.mp hc with hc | hc
      · exact hblank (hb _ hc)
      · rcases List.mem_append.mp hc with hc | hc
        · cases hs <;> simp at hc
        · exact hdigit (isDigit_of_map hvalues _ hc)
    · exact hblank (ha _ hc)

namespace Integer

theorem read_signed {before sign ds after : List Char} {negative : Bool} (hb : Blanks before)
    (hs : IsSign sign negative) (hne : ds ≠ []) (hd : ∀ c ∈ ds, isDigit c = true)
    (ha : Blanks after) (hlen : ds.length ≤ digitLimit) :
    read (before ++ (sign ++ ds) ++ after) = .ok (ofMagnitude negative (digitsValue ds)) := by
  have hall : ds.all isDigit = true := List.all_eq_true.mpr hd
  rw [read, trim_signed hb hs hne hd ha, takeSign_append hs hd]
  dsimp only
  rw [if_neg (by simp [hne, hall]), if_neg (Nat.not_lt.mpr hlen)]

/-- The reader accepts what spells an integer with no more digits than may be, and nothing else. -/
theorem read_eq_ok_iff {cs : List Char} {n : Int} :
    read cs = .ok n ↔
      ∃ values, SpellsInteger cs values n ∧ 1 ≤ values.length ∧ values.length ≤ digitLimit := by
  constructor
  · intro h
    obtain ⟨before, after, hb, ha, hcs⟩ := exists_trim cs
    obtain ⟨sign, hs, hsign⟩ := exists_sign (trim cs)
    rw [hsign] at hcs
    unfold read at h
    dsimp only at h
    generalize takeSign (trim cs) = p at hs h hcs
    obtain ⟨negative, ds⟩ := p
    dsimp only at hs h hcs
    split at h
    · cases h
    next hgood =>
      obtain ⟨hne, hd⟩ := not_or.mp hgood
      obtain ⟨values, hvalues⟩ := exists_values (List.all_eq_true.mp (by simpa using hd))
      have hlength : ds.length = values.length := by simpa using congrArg List.length hvalues
      split at h
      · cases h
      next hlen =>
        cases h
        refine ⟨values, ?_, ?_, hlength ▸ Nat.not_lt.mp hlen⟩
        · rw [hcs, digitsValue_eq_ofDigits hvalues]
          exact .digits hb hs hvalues ha
        · exact hlength ▸ List.length_pos_of_ne_nil hne
  · rintro ⟨values, hspells, hpos, hlen⟩
    cases hspells with
    | @digits before sign negative ds _ after hb hs hvalues ha =>
      have hlength : ds.length = values.length := by simpa using congrArg List.length hvalues
      have hne : ds ≠ [] := List.ne_nil_of_length_pos (hlength ▸ hpos)
      rw [read_signed hb hs hne (isDigit_of_map hvalues) ha (hlength ▸ hlen),
        digitsValue_eq_ofDigits hvalues]

/-! ### What is written -/

theorem ofMagnitude_natAbs (n : Int) : ofMagnitude (decide (n < 0)) n.natAbs = n := by
  unfold ofMagnitude
  split
  · rename_i h
    have hneg : n < 0 := of_decide_eq_true h
    omega
  · rename_i h
    have hpos : ¬ n < 0 := fun hneg => h (decide_eq_true hneg)
    omega

theorem textLimit_eq : textLimit = Nat.pow 10 digitLimit := by
  delta textLimit
  exact Eq.refl _

theorem toList_text (n : Int) :
    (text n).toList = Layout.signText (decide (n < 0)) ++ Nat.toDigits 10 n.natAbs := by
  simp [text, Layout.signText]

theorem isSign_signText (negative : Bool) : IsSign (Layout.signText negative) negative := by
  cases negative with
  | false => exact .absent
  | true => exact .minus

/-- An integer that is not too long to be written is read from what is written. -/
theorem read_text {n : Int} (h : n.natAbs < textLimit) : read (text n).toList = .ok n := by
  rw [textLimit_eq] at h
  have hread := read_signed blanks_nil (isSign_signText (decide (n < 0))) Nat.toDigits_ne_nil
    isDigit_toDigits blanks_nil (length_toDigits_le (by decide) h)
  rw [digitsValue_toDigits, ofMagnitude_natAbs] at hread
  rw [toList_text]
  rwa [List.nil_append, List.append_nil] at hread

/-- The integers that are not too long are those with no more digits than may be. -/
theorem lt_textLimit_iff {n : Nat} : n < textLimit ↔ (Nat.digits 10 n).length ≤ digitLimit := by
  rw [textLimit_eq]
  generalize digitLimit = limit
  exact (Nat.digits_length_le_iff (by decide) n).symm

end Integer

end StackLang
