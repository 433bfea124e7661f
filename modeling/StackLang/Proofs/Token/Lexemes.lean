import StackLang.Proofs.Number.Numerals
import StackLang.Token.Lexer

/-! # Lexemes

What the characters of a lexeme are, and its value, said apart from the scans: a relation between
the characters, the lexeme and what follows, on which only the end of a number or word depends. A
scan finds exactly the lexeme that stands where it begins. -/

namespace StackLang.Lexical

open StackLang.Text

/-- What may stand between lexemes. -/
def IsBetween (c : Char) : Prop := c = ' ' ∨ c = '\t' ∨ c = '\r' ∨ c = '\n'

def IsQuote (c : Char) : Prop := c = '"' ∨ c = '\''

def IsPoint (c : Char) : Prop := c = '.' ∨ c = ','

def IsWordChar (c : Char) : Prop := isLetter c = true ∨ isDigit c = true ∨ c = '_' ∨ c = '-'

def Digits (cs : List Char) : Prop := ∀ c ∈ cs, isDigit c = true

theorem no_digits : Digits [] := by
  intro c hc
  cases hc

/-- The number that digits and the digits behind the point spell; no digits there count as zero. -/
def Denotes (ds fs : List Char) (x : Double) : Prop :=
  Numeral.read? (ds ++ '.' :: if fs = [] then ['0'] else fs) = some x

/-- The inside of a text literal, and the text. -/
inductive Units : List Char → List Char → Prop where
  | nil : Units [] []
  | plain {c raw value} : c ≠ '\\' → ¬ IsQuote c → Units raw value → Units (c :: raw) (c :: value)
  | newline {raw value} : Units raw value → Units ('\\' :: 'n' :: raw) ('\n' :: value)
  | escaped {c raw value} : c ≠ 'n' → Units raw value → Units ('\\' :: c :: raw) (c :: value)

/-- The characters of a lexeme, the lexeme, and the characters after it. -/
inductive Spells : List Char → Lexeme → List Char → Prop where
  | whole {ds x after} : ds ≠ [] → Digits ds → Denotes ds [] x →
      (∀ c ∈ after.head?, isDigit c = false ∧ ¬ IsPoint c) → Spells ds (.number x) after
  | fraction {ds point fs x after} : ds ≠ [] → Digits ds → IsPoint point → Digits fs →
      Denotes ds fs x → (∀ c ∈ after.head?, isDigit c = false) →
      Spells (ds ++ point :: fs) (.number x) after
  | text {q q' raw value after} : IsQuote q → IsQuote q' → Units raw value →
      Spells (q :: raw ++ [q']) (.text (String.ofList value)) after
  | word {c cs after} : isLetter c = true → (∀ d ∈ cs, IsWordChar d) →
      (∀ d ∈ after.head?, ¬ IsWordChar d) → c :: cs ≠ "true".toList →
      c :: cs ≠ "false".toList → Spells (c :: cs) (.word (String.ofList (c :: cs))) after
  | boolean {b after} : (∀ d ∈ after.head?, ¬ IsWordChar d) →
      Spells (if b then "true".toList else "false".toList) (.boolean b) after
  | symbol {c after} : isDigit c = false → ¬ IsQuote c → isLetter c = false → ¬ IsBetween c →
      Spells [c] (.symbol (String.ofList [c])) after

/-! ### Classes as the scans test them -/

theorem isQuote_eq_true {c : Char} : Lexer.isQuote c = true ↔ IsQuote c := by
  simp [Lexer.isQuote, IsQuote]

theorem isQuote_eq_false {c : Char} : Lexer.isQuote c = false ↔ ¬ IsQuote c := by
  rw [← isQuote_eq_true, Bool.not_eq_true]

theorem isSeparator_eq_true {c : Char} : Lexer.isSeparator c = true ↔ IsPoint c := by
  simp [Lexer.isSeparator, IsPoint]

theorem isWordChar_eq_true {c : Char} : Lexer.isWordChar c = true ↔ IsWordChar c := by
  simp [Lexer.isWordChar, IsWordChar, or_assoc]

theorem isWordChar_eq_false {c : Char} : Lexer.isWordChar c = false ↔ ¬ IsWordChar c := by
  rw [← isWordChar_eq_true, Bool.not_eq_true]

theorem wordChars_of_all (cs : List Char) (h : cs.all Lexer.isWordChar = true) :
    ∀ c ∈ cs, IsWordChar c := fun c hc => isWordChar_eq_true.mp (List.all_eq_true.mp h c hc)

theorem isDigit_of_point {c : Char} (h : IsPoint c) : isDigit c = false := by
  rcases h with rfl | rfl <;> decide

theorem isDigit_of_quote {c : Char} (h : IsQuote c) : isDigit c = false := by
  rcases h with rfl | rfl <;> decide

theorem not_isQuote_of_isLetter {c : Char} (h : isLetter c = true) : ¬ IsQuote c := by
  rintro (rfl | rfl) <;> exact absurd h (by decide)

theorem count_break_of_ne {cs : List Char} (h : ∀ c ∈ cs, c ≠ '\n') : cs.count '\n' = 0 :=
  List.count_eq_zero.mpr fun hm => h _ hm rfl

theorem count_break_digits {cs : List Char} (h : Digits cs) : cs.count '\n' = 0 :=
  count_break_of_ne fun c hc => ne_of_isDigit (h c hc) (by decide)

theorem count_break_fraction {ds fs : List Char} {p : Char} (hd : Digits ds) (hp : IsPoint p)
    (hf : Digits fs) : (ds ++ p :: fs).count '\n' = 0 := by
  have hn : p ≠ '\n' := by obtain rfl | rfl := hp <;> decide
  rw [List.count_append, List.count_cons_of_ne hn, count_break_digits hd, count_break_digits hf]

theorem count_break_quoted {q q' : Char} {raw : List Char} (hq : IsQuote q) (hq' : IsQuote q') :
    (q :: raw ++ [q']).count '\n' = raw.count '\n' := by
  have hn : ∀ {c}, IsQuote c → c ≠ '\n' := by
    rintro c (rfl | rfl) <;> decide
  rw [List.cons_append, List.count_cons_of_ne (hn hq), List.count_append,
    List.count_cons_of_ne (hn hq'), List.count_nil, Nat.add_zero]

theorem count_break_word {c : Char} {cs : List Char} (hc : isLetter c = true)
    (h : ∀ d ∈ cs, IsWordChar d) : (c :: cs).count '\n' = 0 := by
  refine count_break_of_ne fun d hd => ?_
  have hw : IsWordChar d := by
    rcases List.mem_cons.mp hd with rfl | hd
    · exact .inl hc
    · exact h d hd
  rintro rfl
  exact absurd (isWordChar_eq_true.mpr hw) (by decide)

theorem count_break_symbol {c : Char} (h : ¬ IsBetween c) : [c].count '\n' = 0 := by
  have hn : c ≠ '\n' := fun hn => h (.inr (.inr (.inr hn)))
  rw [List.count_cons_of_ne hn, List.count_nil]

/-! ### Numbers -/

theorem denotes_iff {ds fs : List Char} {x : Double} (hne : ds ≠ []) (hd : Digits ds)
    (hf : Digits fs) : Denotes ds fs x ↔ Lexer.numberValue ds fs = x := by
  have hz : Digits (if fs = [] then ['0'] else fs) := by
    split
    · intro c hc
      rw [List.mem_singleton.mp hc]
      decide
    · exact hf
  rw [Denotes, Numeral.read?_digits hne hd hz, Option.some.injEq]
  rfl

theorem scanFraction_of_not_point {after : List Char} (h : ∀ c ∈ after.head?, ¬ IsPoint c) :
    Lexer.scanFraction after = ([], after) := by
  cases after with
  | nil => rfl
  | cons c after =>
    rw [Lexer.scanFraction, if_neg]
    rw [isSeparator_eq_true]
    exact h c rfl

theorem scanFraction_of_point {c : Char} {cs : List Char} (h : IsPoint c) :
    Lexer.scanFraction (c :: cs) = (cs.takeWhile isDigit, cs.dropWhile isDigit) := by
  rw [Lexer.scanFraction, if_pos (isSeparator_eq_true.mpr h)]

theorem scan_digit {c : Char} {cs : List Char} (h : isDigit c = true) :
    Lexer.scan c cs =
      .lexeme (.number (Lexer.numberValue (c :: cs.takeWhile isDigit)
        (Lexer.scanFraction (cs.dropWhile isDigit)).1)) 0
        (Lexer.scanFraction (cs.dropWhile isDigit)).2 := by
  rw [Lexer.scan, if_pos h]

/-! ### Text literals -/

theorem scanText?_of_units {raw value : List Char} (h : Units raw value) {q : Char}
    (hq : IsQuote q) (rest : List Char) :
    Lexer.scanText? (raw ++ q :: rest) = some ⟨value, raw.count '\n', rest⟩ := by
  induction h with
  | nil => rw [List.nil_append, Lexer.scanText?.eq_def]; simp [isQuote_eq_true.mpr hq]
  | @plain c raw value hc hn _ ih =>
    rw [List.cons_append, Lexer.scanText?.eq_def]
    simp [isQuote_eq_false.mpr hn, hc, ih, List.count_cons, Lexer.breakCount]
  | newline _ ih =>
    simp [Lexer.scanText?, Lexer.isQuote, ih, Lexer.breakCount, Lexer.unescape]
  | escaped hc _ ih =>
    simp [Lexer.scanText?, Lexer.isQuote, ih, List.count_cons, Lexer.breakCount, Lexer.unescape, hc]

theorem Units.backslash {raw value : List Char} (h : Units raw value) (c : Char) :
    Units ('\\' :: c :: raw) (Lexer.unescape c :: value) := by
  unfold Lexer.unescape
  split
  · subst c
    exact h.newline
  · exact h.escaped ‹_›

theorem units_of_scanText? {cs : List Char} {l : Lexer.Literal}
    (h : Lexer.scanText? cs = some l) :
    ∃ raw q, cs = raw ++ q :: l.rest ∧ IsQuote q ∧ Units raw l.value ∧
      l.breaks = raw.count '\n' := by
  fun_induction Lexer.scanText? cs generalizing l with
  | case1 => cases h
  | case2 c cs hq =>
    cases h
    exact ⟨[], c, rfl, isQuote_eq_true.mp hq, .nil, rfl⟩
  | case3 => cases h
  | case4 d ds _ ih =>
    obtain ⟨m, hm, rfl⟩ := Option.map_eq_some_iff.mp h
    obtain ⟨raw, q, rfl, hq, hu, hb⟩ := ih hm
    refine ⟨'\\' :: d :: raw, q, rfl, hq, hu.backslash d, ?_⟩
    simp [hb, List.count_cons, Lexer.breakCount]
  | case5 c cs hq hc ih =>
    obtain ⟨m, hm, rfl⟩ := Option.map_eq_some_iff.mp h
    obtain ⟨raw, q, rfl, hq', hu, hb⟩ := ih hm
    refine ⟨c :: raw, q, rfl, hq', .plain hc (isQuote_eq_false.mp (by simpa using hq)) hu, ?_⟩
    simp [hb, List.count_cons, Lexer.breakCount]

/-! ### One lexeme -/

theorem wordLexeme_of_ne {w : List Char} (ht : w ≠ "true".toList) (hf : w ≠ "false".toList) :
    Lexer.wordLexeme w = .word (String.ofList w) := by
  rw [Lexer.wordLexeme, if_neg ht, if_neg hf]

theorem scan_quote {c : Char} {cs : List Char} (hc : IsQuote c) {l : Lexer.Literal}
    (h : Lexer.scanText? cs = some l) :
    Lexer.scan c cs = .lexeme (.text (String.ofList l.value)) l.breaks l.rest := by
  rw [Lexer.scan, if_neg (by simp [isDigit_of_quote hc]), if_pos (isQuote_eq_true.mpr hc), h]

theorem scan_quote_unterminated {c : Char} {cs : List Char} (hc : IsQuote c)
    (h : Lexer.scanText? cs = none) : Lexer.scan c cs = .unterminated := by
  rw [Lexer.scan, if_neg (by simp [isDigit_of_quote hc]), if_pos (isQuote_eq_true.mpr hc), h]

theorem scan_letter {c : Char} {cs : List Char} (h : isLetter c = true) :
    Lexer.scan c cs = .lexeme (Lexer.wordLexeme (c :: cs.takeWhile Lexer.isWordChar)) 0
      (cs.dropWhile Lexer.isWordChar) := by
  rw [Lexer.scan, if_neg (by simp [isDigit_of_isLetter h]),
    if_neg (by simp [isQuote_eq_false.mpr (not_isQuote_of_isLetter h)]), if_pos h]

theorem scan_between {c : Char} {cs : List Char} (h : IsBetween c) :
    Lexer.scan c cs = .gap ([c].count '\n') cs := by
  rcases h with rfl | rfl | rfl | rfl <;> rfl

theorem scan_other {c : Char} {cs : List Char} (hd : isDigit c = false) (hq : ¬ IsQuote c)
    (hl : isLetter c = false) (hb : ¬ IsBetween c) :
    Lexer.scan c cs = .lexeme (.symbol (String.ofList [c])) 0 cs := by
  simp only [IsBetween, not_or] at hb
  obtain ⟨hs, ht, hr, hn⟩ := hb
  rw [Lexer.scan, if_neg (by simp [hd]), if_neg (by simp [isQuote_eq_false.mpr hq]),
    if_neg (by simp [hl]), if_neg hn, if_neg (by simp [Lexer.isGap, hs, ht, hr])]

/-- A word is read from its first letter and the row of word characters behind it. -/
theorem scan_word {c : Char} {cs after : List Char} (hc : isLetter c = true)
    (hcs : ∀ d ∈ cs, IsWordChar d) (ha : ∀ d ∈ after.head?, ¬ IsWordChar d) :
    Lexer.scan c (cs ++ after) = .lexeme (Lexer.wordLexeme (c :: cs)) 0 after := by
  have hw : ∀ d ∈ cs, Lexer.isWordChar d = true := fun d hd => isWordChar_eq_true.mpr (hcs d hd)
  have hn : ∀ d ∈ after.head?, Lexer.isWordChar d = false :=
    fun d hd => isWordChar_eq_false.mpr (ha d hd)
  rw [scan_letter hc, takeWhile_append hw hn, dropWhile_append hw hn]

theorem scan_of_spells {text after : List Char} {l : Lexeme} (h : Spells text l after) :
    ∃ c cs, text = c :: cs ∧ Lexer.scan c (cs ++ after) = .lexeme l (text.count '\n') after := by
  cases h with
  | whole hne hd hx ha =>
    obtain ⟨c, cs, rfl⟩ := List.exists_cons_of_ne_nil hne
    have hcs : Digits cs := fun d h => hd d (List.mem_cons_of_mem _ h)
    refine ⟨c, cs, rfl, ?_⟩
    rw [scan_digit (hd c List.mem_cons_self), takeWhile_append hcs fun d h => (ha d h).1,
      dropWhile_append hcs fun d h => (ha d h).1, scanFraction_of_not_point fun d h => (ha d h).2,
      (denotes_iff hne hd no_digits).mp hx, count_break_digits hd]
  | @fraction ds p fs _ _ hne hd hp hf hx ha =>
    obtain ⟨c, cs, rfl⟩ := List.exists_cons_of_ne_nil hne
    have hcs : Digits cs := fun d h => hd d (List.mem_cons_of_mem _ h)
    have hpd : ∀ d ∈ (p :: (fs ++ after)).head?, isDigit d = false := by
      intro d hm
      cases hm
      exact isDigit_of_point hp
    refine ⟨c, cs ++ p :: fs, rfl, ?_⟩
    rw [List.append_assoc, List.cons_append, scan_digit (hd c List.mem_cons_self),
      takeWhile_append hcs hpd, dropWhile_append hcs hpd, scanFraction_of_point hp,
      takeWhile_append hf ha, dropWhile_append hf ha, (denotes_iff hne hd hf).mp hx,
      count_break_fraction hd hp hf]
  | @text q q' raw value _ hq hq' hu =>
    refine ⟨q, raw ++ [q'], rfl, ?_⟩
    rw [List.append_assoc, List.singleton_append, scan_quote hq (scanText?_of_units hu hq' after),
      count_break_quoted hq hq']
  | @word c cs _ hc hcs ha ht hf =>
    refine ⟨c, cs, rfl, ?_⟩
    rw [scan_word hc hcs ha, wordLexeme_of_ne ht hf, count_break_word hc hcs]
  | @boolean b _ ha =>
    cases b with
    | true =>
      have hcs := wordChars_of_all ['r', 'u', 'e'] (by decide)
      exact ⟨'t', ['r', 'u', 'e'], rfl, scan_word (by decide) hcs ha⟩
    | false =>
      have hcs := wordChars_of_all ['a', 'l', 's', 'e'] (by decide)
      exact ⟨'f', ['a', 'l', 's', 'e'], rfl, scan_word (by decide) hcs ha⟩
  | @symbol c _ hd hq hl hb =>
    refine ⟨c, [], rfl, ?_⟩
    rw [List.nil_append, scan_other hd hq hl hb, count_break_symbol hb]

/-- A scan finds the lexeme that the text begins with. -/
def Finds (c : Char) (cs : List Char) : Prop :=
  ∃ text l rest, c :: cs = text ++ rest ∧ Spells text l rest ∧
    Lexer.scan c cs = .lexeme l (text.count '\n') rest

/-- What follows the whole part decides whether a number has a fraction. -/
theorem finds_number {c : Char} {cs : List Char} (hc : isDigit c = true) : Finds c cs := by
  have hne : c :: cs.takeWhile isDigit ≠ [] := List.cons_ne_nil _ _
  have hd : Digits (c :: cs.takeWhile isDigit) := by
    intro d hm
    rcases List.mem_cons.mp hm with rfl | hm
    · exact hc
    · exact mem_takeWhile d hm
  have hcs : c :: cs = c :: cs.takeWhile isDigit ++ cs.dropWhile isDigit := by
    rw [List.cons_append, List.takeWhile_append_dropWhile]
  have hend := head?_dropWhile (p := isDigit) cs
  unfold Finds
  rw [scan_digit hc]
  generalize cs.takeWhile isDigit = ds at *
  generalize cs.dropWhile isDigit = after at *
  by_cases hp : ∃ p ∈ after.head?, IsPoint p
  · obtain ⟨p, hm, hp⟩ := hp
    obtain ⟨more, rfl⟩ := List.head?_eq_some_iff.mp hm
    have hf : Digits (more.takeWhile isDigit) := mem_takeWhile
    refine ⟨c :: ds ++ p :: more.takeWhile isDigit, _, more.dropWhile isDigit, ?_,
      .fraction hne hd hp hf ((denotes_iff hne hd hf).mpr rfl) (head?_dropWhile more), ?_⟩
    · rw [hcs, List.append_assoc, List.cons_append (a := p), List.takeWhile_append_dropWhile]
    · rw [scanFraction_of_point hp, count_break_fraction hd hp hf]
  · have hn : ∀ p ∈ after.head?, ¬ IsPoint p := fun p hm hq => hp ⟨p, hm, hq⟩
    have hx := (denotes_iff hne hd no_digits).mpr rfl
    refine ⟨c :: ds, _, after, hcs, .whole hne hd hx fun p hm => ⟨hend p hm, hn p hm⟩, ?_⟩
    rw [scanFraction_of_not_point hn, count_break_digits hd]

theorem spells_wordLexeme {c : Char} {cs after : List Char} (hc : isLetter c = true)
    (hcs : ∀ d ∈ cs, IsWordChar d) (ha : ∀ d ∈ after.head?, ¬ IsWordChar d) :
    Spells (c :: cs) (Lexer.wordLexeme (c :: cs)) after := by
  unfold Lexer.wordLexeme
  split
  · rw [‹c :: cs = _›]
    exact .boolean (b := true) ha
  · split
    · rw [‹c :: cs = _›]
      exact .boolean (b := false) ha
    · exact .word hc hcs ha ‹_› ‹_›

theorem finds_word {c : Char} {cs : List Char} (hc : isLetter c = true) : Finds c cs := by
  have hcs : ∀ d ∈ cs.takeWhile Lexer.isWordChar, IsWordChar d :=
    fun d hm => isWordChar_eq_true.mp (mem_takeWhile d hm)
  have ha : ∀ d ∈ (cs.dropWhile Lexer.isWordChar).head?, ¬ IsWordChar d :=
    fun d hm => isWordChar_eq_false.mp (head?_dropWhile cs d hm)
  refine ⟨_, _, _, ?_, spells_wordLexeme hc hcs ha, ?_⟩
  · rw [List.cons_append, List.takeWhile_append_dropWhile]
  · rw [scan_letter hc, count_break_word hc hcs]

theorem finds_text {c : Char} {cs : List Char} (hc : IsQuote c) {l : Lexer.Literal}
    (h : Lexer.scanText? cs = some l) : Finds c cs := by
  obtain ⟨raw, q, hcs, hq, hu, hb⟩ := units_of_scanText? h
  refine ⟨c :: raw ++ [q], _, l.rest, ?_, .text hc hq hu, ?_⟩
  · rw [hcs, List.append_assoc, List.cons_append, List.singleton_append]
  · rw [scan_quote hc h, hb, count_break_quoted hc hq]

theorem finds_symbol {c : Char} {cs : List Char} (hd : isDigit c = false) (hq : ¬ IsQuote c)
    (hl : isLetter c = false) (hb : ¬ IsBetween c) : Finds c cs := by
  refine ⟨[c], _, cs, rfl, .symbol hd hq hl hb, ?_⟩
  rw [scan_other hd hq hl hb, count_break_symbol hb]

/-- All that a scan can do. -/
theorem scan_cases (c : Char) (cs : List Char) :
    Finds c cs ∨ (IsBetween c ∧ Lexer.scan c cs = .gap ([c].count '\n') cs) ∨
      Lexer.scan c cs = .unterminated := by
  by_cases hd : isDigit c = true
  · exact .inl (finds_number hd)
  by_cases hq : IsQuote c
  · cases h : Lexer.scanText? cs with
    | none => exact .inr (.inr (scan_quote_unterminated hq h))
    | some l => exact .inl (finds_text hq h)
  by_cases hl : isLetter c = true
  · exact .inl (finds_word hl)
  by_cases hb : IsBetween c
  · exact .inr (.inl ⟨hb, scan_between hb⟩)
  · exact .inl (finds_symbol (by simpa using hd) hq (by simpa using hl) hb)

end StackLang.Lexical
