import StackLang.Proofs.Number.Layouts
import StackLang.Proofs.Token.Places
import StackLang.Value.Conversion

/-! # Numerals

The characters that a number is cut out as. They are read in two ways, by the reader of tokens, which
puts the number together from the digits on both sides of the point, and by the conversion of typed
text, which takes the point as it is or for the comma. Both find the same float. -/

namespace StackLang.Lexical

open StackLang.Text

/-- Digits, and behind them at most one point and any digits. -/
inductive IsNumeral : List Char → Prop where
  | whole {ds} : ds ≠ [] → Digits ds → IsNumeral ds
  | fraction {ds point fs} : ds ≠ [] → Digits ds → IsPoint point → Digits fs →
      IsNumeral (ds ++ point :: fs)

/-- The comma for the dot, and the reverse. -/
def exchange (c : Char) : Char := if c = ',' then '.' else if c = '.' then ',' else c

variable {ds fs text after : List Char} {p : Char} {x : Double}

/-! ### Characters of numerals -/

theorem IsNumeral.mem (h : IsNumeral text) : ∀ c ∈ text, isDigit c = true ∨ IsPoint c := by
  cases h with
  | whole _ hd =>
    intro c hc
    exact .inl (hd c hc)
  | fraction _ hd hp hf =>
    intro c hc
    rcases List.mem_append.mp hc with hc | hc
    · exact .inl (hd c hc)
    · rcases List.mem_cons.mp hc with rfl | hc
      · exact .inr hp
      · exact .inl (hf c hc)

theorem IsNumeral.ne_nil (h : IsNumeral text) : text ≠ [] := by
  cases h with
  | whole hne => exact hne
  | fraction => simp

theorem IsNumeral.not_mem {d : Char} (h : IsNumeral text) (hd : isDigit d = false)
    (hp : ¬ IsPoint d) : d ∉ text := by
  intro hm
  rcases h.mem d hm with hdigit | hpoint
  · exact ne_of_isDigit hdigit hd rfl
  · exact hp hpoint

theorem IsNumeral.count_break (h : IsNumeral text) : text.count '\n' = 0 :=
  List.count_eq_zero.mpr (h.not_mem (by decide) (by simp [IsPoint]))

theorem IsNumeral.trim_eq (h : IsNumeral text) : trim text = text := by
  have hblank : ∀ c ∈ text, isBlank c = false := by
    intro c hc
    rcases h.mem c hc with hd | rfl | rfl
    · exact isBlank_of_isDigit hd
    · decide
    · decide
  refine trim_of_ends ?_ ?_
  · intro c hc
    exact hblank c (List.mem_of_mem_head? hc)
  · intro c hc
    exact hblank c (List.mem_of_mem_getLast? hc)

theorem Spells.isNumeral (h : Spells text (.number x) after) : IsNumeral text := by
  cases h with
  | whole hne hd => exact .whole hne hd
  | fraction hne hd hp hf => exact .fraction hne hd hp hf

/-- A numeral spells a number before whatever does not go on with it. -/
theorem IsNumeral.exists_spells (h : IsNumeral text)
    (ha : ∀ c ∈ after.head?, isDigit c = false ∧ ¬ IsPoint c) :
    ∃ x, Spells text (.number x) after := by
  cases h with
  | whole hne hd => exact ⟨_, .whole hne hd ((denotes_iff hne hd no_digits).mpr rfl) ha⟩
  | fraction hne hd hp hf =>
    exact ⟨_, .fraction hne hd hp hf ((denotes_iff hne hd hf).mpr rfl) fun c hc => (ha c hc).1⟩

/-! ### The other point -/

theorem map_digits {f : Char → Char} (hf : ∀ {c}, isDigit c = true → f c = c) (h : Digits ds) :
    ds.map f = ds :=
  (List.map_congr_left fun c hc => hf (h c hc)).trans (List.map_id ds)

theorem exchange_of_isDigit {c : Char} (h : isDigit c = true) : exchange c = c := by
  rw [exchange, if_neg (ne_of_isDigit h (by decide)), if_neg (ne_of_isDigit h (by decide))]

theorem IsPoint.exchange (h : IsPoint p) : IsPoint (exchange p) := by
  obtain rfl | rfl := h
  · exact .inr rfl
  · exact .inl rfl

theorem Spells.exchange (h : Spells text (.number x) after) :
    Spells (text.map exchange) (.number x) after := by
  cases h with
  | whole hne hd hx ha =>
    rw [map_digits exchange_of_isDigit hd]
    exact .whole hne hd hx ha
  | fraction hne hd hp hf hx ha =>
    rw [List.map_append, List.map_cons, map_digits exchange_of_isDigit hd,
      map_digits exchange_of_isDigit hf]
    exact .fraction hne hd hp.exchange hf hx ha

theorem Spells.head?_exchange (h : Spells text (.number x) after) :
    (text.map Lexical.exchange ++ after).head? = (text ++ after).head? := by
  cases h with
  | whole _ hd => rw [map_digits exchange_of_isDigit hd]
  | fraction hne hd =>
    rw [List.map_append, map_digits exchange_of_isDigit hd, List.append_assoc, List.append_assoc,
      List.head?_append_of_ne_nil _ hne, List.head?_append_of_ne_nil _ hne]

/-! ### Read as typed -/

theorem commaToPoint_of_isDigit {c : Char} (h : isDigit c = true) : Numeral.commaToPoint c = c :=
  if_neg (ne_of_isDigit h (by decide))

theorem pointed_digits (h : Digits ds) : Numeral.pointed ds = ds := by
  have hcount : ds.count ',' = 0 :=
    List.count_eq_zero.mpr (not_mem_digits h (by decide))
  rw [Numeral.pointed, if_neg]
  simp [hcount]

theorem pointed_fraction (hd : Digits ds) (hp : IsPoint p) (hf : Digits fs) :
    Numeral.pointed (ds ++ p :: fs) = ds ++ '.' :: fs := by
  obtain rfl | rfl := hp
  · rw [Numeral.pointed, if_neg]
    simp
  · have hcount : (ds ++ ',' :: fs).count ',' = 1 := by
      rw [List.count_append, List.count_cons_self,
        List.count_eq_zero.mpr (not_mem_digits hd (by decide)),
        List.count_eq_zero.mpr (not_mem_digits hf (by decide))]
    have hdot : '.' ∉ ds ++ ',' :: fs := by
      simp [not_mem_digits hd (c := '.') (by decide),
        not_mem_digits hf (c := '.') (by decide)]
    rw [Numeral.pointed, if_pos ⟨hcount, hdot⟩, List.map_append, List.map_cons,
      map_digits commaToPoint_of_isDigit hd, map_digits commaToPoint_of_isDigit hf]
    rfl

/-- That no fraction is read as the fraction zero makes no difference. -/
theorem numberValue_eq (ds fs : List Char) :
    Lexer.numberValue ds fs = Numeral.value false ds fs 0 := by
  unfold Lexer.numberValue
  split
  · subst fs
    exact Layout.value_zero_fraction false ds
  · rfl

theorem Spells.readTyped? (h : Spells text (.number x) after) : Numeral.readTyped? text = some x := by
  rw [Numeral.readTyped?, h.isNumeral.trim_eq]
  cases h with
  | whole hne hd hx =>
    rw [pointed_digits hd, Numeral.read?_whole hne hd, ← numberValue_eq,
      (denotes_iff hne hd no_digits).mp hx]
  | fraction hne hd hp hf hx =>
    rw [pointed_fraction hd hp hf, Numeral.read?_digits hne hd hf, ← numberValue_eq,
      (denotes_iff hne hd hf).mp hx]

theorem Spells.parseFloat (h : Spells text (.number x) after) :
    Value.parseFloat (.ofString (.ofList text)) = .ok x := by
  rw [Value.parseFloat, Text.chars_ofString, String.toList_ofList, h.readTyped?]

/-! ### At its place -/

theorem isNumeral_iff_cuts :
    IsNumeral text ↔ ∃ before line x front after, Cuts before ⟨.number x, line⟩ front text after := by
  constructor
  · intro h
    obtain ⟨x, hs⟩ := @IsNumeral.exists_spells text [] h (by simp)
    exact ⟨[], 1, x, [], [], cuts_iff.mpr ⟨.start, hs⟩⟩
  · rintro ⟨before, line, x, front, after, h⟩
    exact (cuts_iff.mp h).2.isNumeral

theorem Cuts.exchange {ts : List Token} {line : Int} {front : List Char}
    (h : Cuts ts ⟨.number x, line⟩ front text after) :
    tokenize (.ofList (front ++ text.map exchange ++ after)) =
      tokenize (.ofList (front ++ text ++ after)) := by
  have hs : Spells text (.number x) after := (cuts_iff.mp h).2
  have hne : ∀ {text}, IsNumeral text → String.ofList (front ++ text ++ after) ≠ "" := by
    intro text hn
    simp [hn.ne_nil]
  rw [tokenize_eq_tokens (hne hs.isNumeral), tokenize_eq_tokens (hne hs.exchange.isNumeral),
    String.toList_ofList, String.toList_ofList]
  refine h.respelled hs.exchange hs.head?_exchange ?_
  rw [hs.isNumeral.count_break, hs.exchange.isNumeral.count_break]

end StackLang.Lexical
