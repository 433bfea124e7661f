import StackLang.Proofs.Token.Joining

/-! # Layout

Texts that differ in nothing but the blanks and the line breaks between their lexemes have the same
lexemes, or break off at the same text literal, only on other lines. -/

namespace StackLang.Lexical

/-- Two texts of the same lexemes with any blanks and line breaks around them. A text literal that
has no end may come last. -/
inductive Relaid : List Char → List Char → Prop where
  | done {gap gap'} : Gap gap → Gap gap' → Relaid gap gap'
  | unterminated {gap gap' q cs} : Gap gap → Gap gap' → IsQuote q → Lexer.scanText? cs = none →
      Relaid (gap ++ q :: cs) (gap' ++ q :: cs)
  | lexeme {gap gap' text l rest rest'} : Gap gap → Gap gap' → Spells text l rest →
      Spells text l rest' → Relaid rest rest' → Relaid (gap ++ text ++ rest) (gap' ++ text ++ rest')

/-- By induction on the row of lexemes; the two readers stand on lines that differ. -/
theorem tokens_relaid {cs cs' : List Char} (h : Relaid cs cs') (before before' : List Char) :
    LexError.moved (fun _ => 0) (Lexer.tokens (lineAfter before) cs) =
      LexError.moved (fun _ => 0) (Lexer.tokens (lineAfter before') cs') := by
  induction h generalizing before before' with
  | done hgap hgap' =>
    rw [tokens_of_factors (.done hgap), tokens_of_factors (.done hgap')]
  | unterminated hgap hgap' hq hopen =>
    have hscan := scan_quote_unterminated hq hopen
    rw [tokens_of_gap before hgap, tokens_of_gap before' hgap', tokens_unterminated hscan,
      tokens_unterminated hscan]
    rfl
  | @lexeme gap gap' text l rest rest' hgap hgap' hs hs' _ ih =>
    have hmoved : ∀ (t : Token) (r : Except LexError (List Token)),
        LexError.moved (fun _ => 0) (r.map (t :: ·)) =
          (LexError.moved (fun _ => 0) r).map (⟨t.lexeme, 0⟩ :: ·) := by
      intro t r
      cases r <;> rfl
    rw [tokens_of_spells before hgap hs, tokens_of_spells before' hgap' hs', hmoved, hmoved,
      ih (before ++ gap ++ text) (before' ++ gap' ++ text)]

end StackLang.Lexical
