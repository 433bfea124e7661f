import StackLang.Proofs.Token.Factoring

/-! # Texts behind one another

A blank or a line break ends every lexeme, so the tokens of a text that consists of two, with one of
these between them, are those of the first and those of the second. The lines of the second are
counted on from where the first ends. -/

namespace StackLang

def Token.mapLine (f : Int → Int) (t : Token) : Token := { t with line := f t.line }

def LexError.mapLine (f : Int → Int) : LexError → LexError
  | emptySource => emptySource
  | unterminated line => unterminated (f line)

/-- What the reader of tokens answers when the lines in its answer are moved. -/
def LexError.moved (f : Int → Int) (r : Except LexError (List Token)) :
    Except LexError (List Token) :=
  (r.map (List.map (Token.mapLine f))).mapError (LexError.mapLine f)

namespace Lexical

open StackLang.Text

/-- A character with which no lexeme before it goes on. -/
structure IsSeam (c : Char) : Prop where
  not_digit : isDigit c = false
  not_point : ¬ IsPoint c
  not_wordChar : ¬ IsWordChar c

theorem IsBetween.isSeam {c : Char} (h : IsBetween c) : IsSeam c := by
  rcases h with rfl | rfl | rfl | rfl <;>
    exact ⟨by decide, by simp [IsPoint], isWordChar_eq_false.mp (by decide)⟩

theorem IsBetween.not_wordChar {c : Char} (h : IsBetween c) : ¬ IsWordChar c := h.isSeam.not_wordChar

theorem IsQuote.isSeam {c : Char} (h : IsQuote c) : IsSeam c := by
  rcases h with rfl | rfl <;>
    exact ⟨by decide, by simp [IsPoint], isWordChar_eq_false.mp (by decide)⟩

/-- A lexeme is one before any text that begins in the same way, or with a seam. -/
theorem Spells.of_head {text after after' : List Char} {l : Lexeme} (h : Spells text l after)
    (hhead : ∀ c ∈ after'.head?, c ∈ after.head? ∨ IsSeam c) : Spells text l after' := by
  cases h with
  | whole hne hd hx ha =>
    exact .whole hne hd hx fun c hc => (hhead c hc).elim (ha c) fun hs => ⟨hs.not_digit, hs.not_point⟩
  | fraction hne hd hp hf hx ha =>
    exact .fraction hne hd hp hf hx fun c hc => (hhead c hc).elim (ha c) fun hs => hs.not_digit
  | text hq hq' hu => exact .text hq hq' hu
  | word hc hcs ha ht hf =>
    exact .word hc hcs (fun c hc => (hhead c hc).elim (ha c) fun hs => hs.not_wordChar) ht hf
  | boolean ha => exact .boolean fun c hc => (hhead c hc).elim (ha c) fun hs => hs.not_wordChar
  | symbol hd hq hl hb => exact .symbol hd hq hl hb

/-- A text in front of a seam has its own tokens. By induction on the row of lexemes that it is. -/
theorem tokens_seam {before cs : List Char} {ts : List Token} (h : Factors before cs ts) {c : Char}
    (hc : IsSeam c) (more : List Char) :
    Lexer.tokens (lineAfter before) (cs ++ c :: more) =
      (Lexer.tokens (lineAfter (before ++ cs)) (c :: more)).map (ts ++ ·) := by
  induction h with
  | @done before gap hgap =>
    rw [tokens_of_gap before hgap]
    cases Lexer.tokens (lineAfter (before ++ gap)) (c :: more) <;> rfl
  | @lexeme before gap text rest l ts hgap hs _ ih =>
    have hs' : Spells text l (rest ++ c :: more) := by
      refine hs.of_head fun d hd => ?_
      cases rest with
      | nil => exact .inr (Option.some.inj hd ▸ hc)
      | cons e rest => exact .inl hd
    rw [List.append_assoc (gap ++ text), tokens_of_spells before hgap hs', ih]
    simp only [List.append_assoc]
    cases Lexer.tokens _ (c :: more) <;> rfl

theorem tokens_join {before cs : List Char} {ts : List Token} (h : Factors before cs ts) {c : Char}
    (hc : IsBetween c) (more : List Char) :
    Lexer.tokens (lineAfter before) (cs ++ c :: more) =
      (Lexer.tokens (lineAfter (before ++ cs ++ [c])) more).map (ts ++ ·) := by
  rw [tokens_seam h hc.isSeam, tokens_gap (scan_between hc), ← lineAfter_append]

/-- A text that begins further down has its tokens, or its error, that much further down. -/
theorem tokens_shift (n line : Int) (cs : List Char) :
    Lexer.tokens (line + n) cs = LexError.moved (· + n) (Lexer.tokens line cs) := by
  fun_induction Lexer.tokens line cs with
  | case1 line =>
    rw [Lexer.tokens]
    rfl
  | case2 line c cs hscan =>
    rw [tokens_unterminated hscan]
    rfl
  | case3 line c cs breaks rest hscan hle ih =>
    rw [tokens_gap hscan, Int.add_right_comm, ih]
  | case4 line c cs l breaks rest hscan hle ih =>
    rw [tokens_lexeme hscan, Int.add_right_comm, ih]
    cases Lexer.tokens (line + breaks) rest <;> rfl

theorem tokenize_eq_tokens {source : String} (h : source ≠ "") :
    tokenize source = Lexer.tokens 1 source.toList := by
  have hempty : ¬ source.isEmpty = true := fun he => h (String.isEmpty_iff.mp he)
  rw [tokenize, if_neg hempty]

/-- Only a text that is empty from the start is complained of for that. -/
theorem tokens_ne_emptySource (line : Int) (cs : List Char) :
    Lexer.tokens line cs ≠ .error .emptySource := by
  fun_induction Lexer.tokens line cs with
  | case1 line => simp
  | case2 line c cs hscan => simp
  | case3 line c cs breaks rest hscan hle ih => exact ih
  | case4 line c cs l breaks rest hscan hle ih =>
    intro h
    cases hrest : Lexer.tokens (line + breaks) rest with
    | ok ts =>
      rw [hrest] at h
      cases h
    | error e =>
      rw [hrest] at h
      cases h
      exact ih hrest

/-- Two texts with a blank or a line break between them, the first of which has tokens. -/
theorem tokenize_join {first second : String} {ts : List Token} (h : tokenize first = .ok ts)
    (hsecond : second ≠ "") {c : Char} (hc : IsBetween c) :
    let down : Int := (first.toList ++ [c]).count '\n'
    tokenize (String.ofList (first.toList ++ c :: second.toList)) =
      ((tokenize second).map fun us => ts ++ us.map (Token.mapLine (· + down))).mapError
        (LexError.mapLine (· + down)) := by
  intro down
  have hjoined : String.ofList (first.toList ++ c :: second.toList) ≠ "" := by simp
  have hline : lineAfter (first.toList ++ [c]) = 1 + down := rfl
  have hjoin := tokens_join (factors_of_tokenize h) hc second.toList
  rw [List.nil_append, hline, tokens_shift] at hjoin
  rw [tokenize_eq_tokens hjoined, String.toList_ofList, tokenize_eq_tokens hsecond]
  refine hjoin.trans ?_
  cases Lexer.tokens 1 second.toList <;> rfl

/-- A text with tokens and any text that is not empty, with a blank or a line break between them:
the tokens of the one and those of the other, or the error of the other, further down by the line
breaks that are passed. -/
theorem tokenize_separated {first second : String} {ts : List Token} (h : tokenize first = .ok ts)
    (hsecond : second ≠ "") {c : Char} (hc : IsBetween c) :
    let down : Int := (first ++ String.singleton c).toList.count '\n'
    let both := first ++ String.singleton c ++ second
    match tokenize second with
    | .ok us => tokenize both = .ok (ts ++ us.map fun t => ⟨t.lexeme, t.line + down⟩)
    | .error e => ∃ line, e = .unterminated line ∧
        tokenize both = .error (.unterminated (line + down)) := by
  intro down both
  have hboth : both = String.ofList (first.toList ++ c :: second.toList) := by
    apply String.toList_injective
    simp [both]
  have hdown : down = (first.toList ++ [c]).count '\n' := by simp [down]
  have hjoin := tokenize_join h hsecond hc
  rw [← hboth, ← hdown] at hjoin
  cases hus : tokenize second with
  | ok us =>
    rw [hus] at hjoin
    exact hjoin
  | error e =>
    rw [hus] at hjoin
    cases e with
    | emptySource =>
      rw [tokenize_eq_tokens hsecond] at hus
      exact absurd hus (tokens_ne_emptySource 1 second.toList)
    | unterminated line => exact ⟨line, rfl, hjoin⟩

/-- The text literal passes one line break and the separator another. -/
theorem tokenize_separated_unclosed :
    tokenize "'x\n'" = .ok [⟨.text "x\n", 1⟩] ∧ tokenize "\n'" = .error (.unterminated 2) ∧
      tokenize ("'x\n'" ++ "\n" ++ "\n'") = .error (.unterminated 4) := by
  have hfirst : tokenize "'x\n'" = .ok [⟨.text "x\n", 1⟩] := by
    rw [tokenize_eq_tokens (by decide)]
    have hscan : Lexer.scan '\'' ['x', '\n', '\''] = .lexeme (.text "x\n") 1 [] := rfl
    exact (tokens_lexeme hscan).trans (by rw [Lexer.tokens]; rfl)
  have hsecond : tokenize "\n'" = .error (.unterminated 2) := by
    rw [tokenize_eq_tokens (by decide)]
    have hgap : Lexer.scan '\n' ['\''] = .gap 1 ['\''] := rfl
    exact (tokens_gap hgap).trans (tokens_unterminated rfl)
  have hne : "\n'" ≠ "" := by decide
  have hbreak : IsBetween '\n' := .inr (.inr (.inr rfl))
  have hboth := tokenize_separated hfirst hne hbreak
  rw [hsecond] at hboth
  obtain ⟨line, hline, hboth⟩ := hboth
  cases hline
  exact ⟨hfirst, hsecond, hboth⟩

end Lexical

end StackLang
