import StackLang.Proofs.Token.Lexemes

/-! # Texts as rows of lexemes

A text has tokens exactly when it falls apart into lexemes with nothing but blanks and line breaks
around them, and its tokens are these lexemes in order, each with its value and its line. So
nothing is skipped, read twice or split in another place, and the two ways of counting lines, one
outside text literals and one inside, agree with the text. -/

namespace StackLang.Lexical

def Gap (cs : List Char) : Prop := ∀ c ∈ cs, IsBetween c

theorem gap_nil : Gap [] := by
  intro c hc
  cases hc

/-- The line of the character behind `before`, where a text begins on line one. -/
def lineAfter (before : List Char) : Int := 1 + before.count '\n'

/-- How what stands behind the characters `before` falls apart into lexemes, and their tokens. -/
inductive Factors : List Char → List Char → List Token → Prop where
  | done {before gap} : Gap gap → Factors before gap []
  | lexeme {before gap text rest l ts} : Gap gap → Spells text l rest →
      Factors (before ++ gap ++ text) rest ts →
      Factors before (gap ++ text ++ rest) (⟨l, lineAfter (before ++ gap)⟩ :: ts)

theorem lineAfter_nil : lineAfter [] = 1 := rfl

theorem lineAfter_append (before cs : List Char) :
    lineAfter (before ++ cs) = lineAfter before + cs.count '\n' := by
  simp only [lineAfter, List.count_append]
  omega

/-! ### Steps of the reader -/

section Steps

variable {line : Int} {c : Char} {cs rest : List Char} {breaks : Nat} {l : Lexeme}

theorem tokens_gap (h : Lexer.scan c cs = .gap breaks rest) :
    Lexer.tokens line (c :: cs) = Lexer.tokens (line + breaks) rest := by
  rw [Lexer.tokens]
  split
  · simp_all
  · simp_all
  · simp_all

theorem tokens_lexeme (h : Lexer.scan c cs = .lexeme l breaks rest) :
    Lexer.tokens line (c :: cs) = (Lexer.tokens (line + breaks) rest).map (⟨l, line⟩ :: ·) := by
  rw [Lexer.tokens]
  split
  · simp_all
  · simp_all
  · simp_all

theorem tokens_unterminated (h : Lexer.scan c cs = .unterminated) :
    Lexer.tokens line (c :: cs) = .error (.unterminated line) := by
  rw [Lexer.tokens]
  split
  · rfl
  · simp_all
  · simp_all

end Steps

/-- A gap only moves the reader on to another line. -/
theorem tokens_of_gap (before : List Char) {gap : List Char} (h : Gap gap) (cs : List Char) :
    Lexer.tokens (lineAfter before) (gap ++ cs) = Lexer.tokens (lineAfter (before ++ gap)) cs := by
  induction gap generalizing before with
  | nil => rw [List.append_nil, List.nil_append]
  | cons c gap ih =>
    obtain ⟨hc, hgap⟩ := List.forall_mem_cons.mp h
    have hstep : Lexer.tokens (lineAfter before) (c :: (gap ++ cs)) =
        Lexer.tokens (lineAfter (before ++ [c])) (gap ++ cs) := by
      rw [tokens_gap (scan_between hc), lineAfter_append]
    rw [List.cons_append, hstep, ih _ hgap, List.append_assoc, List.singleton_append]

/-- A lexeme is read as one, and leaves the reader behind it. -/
theorem tokens_of_spells (before : List Char) {gap text rest : List Char} {l : Lexeme} (h : Gap gap)
    (hs : Spells text l rest) :
    Lexer.tokens (lineAfter before) (gap ++ text ++ rest) =
      (Lexer.tokens (lineAfter (before ++ gap ++ text)) rest).map
        (⟨l, lineAfter (before ++ gap)⟩ :: ·) := by
  obtain ⟨c, cs, rfl, hscan⟩ := scan_of_spells hs
  rw [List.append_assoc, tokens_of_gap before h, List.cons_append, tokens_lexeme hscan,
    ← lineAfter_append]

/-! ### From tokens to the text and back -/

theorem Factors.between {before cs : List Char} {ts : List Token} {c : Char} (hc : IsBetween c)
    (h : Factors (before ++ [c]) cs ts) : Factors before (c :: cs) ts := by
  cases h with
  | done hgap => exact .done (List.forall_mem_cons.mpr ⟨hc, hgap⟩)
  | @lexeme _ gap text rest l ts hgap hs hf =>
    have hgap' : Gap (c :: gap) := List.forall_mem_cons.mpr ⟨hc, hgap⟩
    rw [List.append_assoc before, List.singleton_append] at hf ⊢
    exact .lexeme hgap' hs hf

theorem Factors.cons {before text rest : List Char} {l : Lexeme} {ts : List Token}
    (hs : Spells text l rest) (h : Factors (before ++ text) rest ts) :
    Factors before (text ++ rest) (⟨l, lineAfter before⟩ :: ts) := by
  rw [← List.append_nil before] at h
  have hf := Factors.lexeme gap_nil hs h
  rwa [List.append_nil, List.nil_append] at hf

/-- By induction on the text that is still to be read; each step reads a character at least. -/
theorem factors_of_tokens {before cs : List Char} {ts : List Token}
    (h : Lexer.tokens (lineAfter before) cs = .ok ts) : Factors before cs ts := by
  induction hn : cs.length using Nat.strongRecOn generalizing before cs ts with
  | ind n ih =>
  cases cs with
  | nil =>
    rw [Lexer.tokens] at h
    cases h
    exact .done gap_nil
  | cons c cs =>
    have hlt : cs.length < n := by rw [← hn, List.length_cons]; omega
    rcases scan_cases c cs with ⟨text, l, rest, hcs, hs, hscan⟩ | ⟨hc, hscan⟩ | hscan
    · have hrest : rest.length < n := Nat.lt_of_le_of_lt (Lexer.scan_rest_le hscan) hlt
      rw [tokens_lexeme hscan, ← lineAfter_append] at h
      cases hus : Lexer.tokens (lineAfter (before ++ text)) rest with
      | error e => rw [hus] at h; cases h
      | ok us =>
        rw [hus] at h
        cases h
        rw [hcs]
        exact .cons hs (ih rest.length hrest hus rfl)
    · rw [tokens_gap hscan, ← lineAfter_append] at h
      exact (ih cs.length hlt h rfl).between hc
    · rw [tokens_unterminated hscan] at h
      cases h

theorem tokens_of_factors {before cs : List Char} {ts : List Token} (h : Factors before cs ts) :
    Lexer.tokens (lineAfter before) cs = .ok ts := by
  induction h with
  | @done before gap hgap =>
    have hskip := tokens_of_gap before hgap []
    rwa [List.append_nil, Lexer.tokens] at hskip
  | @lexeme before gap text rest l ts hgap hs _ ih =>
    rw [tokens_of_spells before hgap hs, ih]
    rfl

theorem factors_of_tokenize {source : String} {ts : List Token} (h : tokenize source = .ok ts) :
    Factors [] source.toList ts := by
  unfold tokenize at h
  split at h
  · cases h
  · rw [← lineAfter_nil] at h
    exact factors_of_tokens h

theorem tokenize_eq_ok_iff_factors {source : String} {ts : List Token} :
    tokenize source = .ok ts ↔ source ≠ "" ∧ Factors [] source.toList ts := by
  unfold tokenize
  split
  · rename_i he
    constructor
    · intro h
      cases h
    · intro h
      exact absurd (String.isEmpty_iff.mp he) h.1
  · rename_i he
    have hne : source ≠ "" := fun h => he (String.isEmpty_iff.mpr h)
    rw [← lineAfter_nil]
    exact ⟨fun h => ⟨hne, factors_of_tokens h⟩, fun h => tokens_of_factors h.2⟩

end StackLang.Lexical
