import StackLang.Proofs.Token.Joining

/-! # Texts that break off

Nothing but a text literal without a closing quote keeps a text from having tokens. In front of its
opening quote the text falls apart into lexemes, so that there is one place only where it can break
off, and that place has the line that is complained of. -/

namespace StackLang.Lexical

/-- No quote closes a text literal whose inside begins like this: none follows upon whole units. -/
def Unclosed (cs : List Char) : Prop :=
  ∀ raw value q rest, Units raw value → cs = raw ++ q :: rest → ¬ IsQuote q

/-- Lexemes, then a quote that opens a text literal, and no quote that closes it. -/
structure BreaksOff (cs before : List Char) (q : Char) (rest : List Char) : Prop where
  split : cs = before ++ q :: rest
  lexemes : ∃ ts, Factors [] before ts
  quote : IsQuote q
  unclosed : Unclosed rest

variable {cs before rest : List Char} {q : Char}

theorem unclosed_iff : Unclosed cs ↔ Lexer.scanText? cs = none := by
  constructor
  · intro h
    cases hscan : Lexer.scanText? cs with
    | none => rfl
    | some l =>
      obtain ⟨raw, q, hcs, hq, hu, -⟩ := units_of_scanText? hscan
      exact absurd hq (h raw l.value q l.rest hu hcs)
  · rintro h raw value q rest hu rfl hq
    rw [scanText?_of_units hu hq] at h
    cases h

/-- With an end cut off there is no more of a quote than before. -/
theorem Unclosed.of_append {more : List Char} (h : Unclosed (cs ++ more)) : Unclosed cs := by
  rintro raw value q rest hu rfl
  exact h raw value q (rest ++ more) hu (by rw [List.append_assoc, List.cons_append])

/-- Nothing but a quote without its partner stops the reader. -/
theorem quote_of_scan {c : Char} (h : Lexer.scan c cs = .unterminated) :
    IsQuote c ∧ Unclosed cs := by
  rw [unclosed_iff]
  by_cases hq : IsQuote c
  · refine ⟨hq, ?_⟩
    cases hscan : Lexer.scanText? cs with
    | none => rfl
    | some l =>
      rw [scan_quote hq hscan] at h
      cases h
  · unfold Lexer.scan at h
    split at h
    · cases h
    · split at h
      · exact absurd (isQuote_eq_true.mp ‹_›) hq
      · repeat' split at h
        all_goals cases h

/-! ### Where the reader stops -/

theorem BreaksOff.tokens_eq (h : BreaksOff cs before q rest) :
    Lexer.tokens 1 cs = .error (.unterminated (lineAfter before)) := by
  obtain ⟨rfl, ⟨ts, hts⟩, hq, hopen⟩ := h
  have hscan := scan_quote_unterminated hq (unclosed_iff.mp hopen)
  rw [← lineAfter_nil, tokens_seam hts hq.isSeam, List.nil_append, tokens_unterminated hscan]
  rfl

/-- By induction on the text that is still to be read; what has been read is lexemes and gaps. -/
theorem exists_split_of_tokens {e : LexError}
    (h : Lexer.tokens (lineAfter before) cs = .error e) :
    ∃ here q rest, cs = here ++ q :: rest ∧ (∃ ts, Factors before here ts) ∧ IsQuote q ∧
      Unclosed rest ∧ e = .unterminated (lineAfter (before ++ here)) := by
  induction hn : cs.length using Nat.strongRecOn generalizing before cs with
  | ind n ih =>
  cases cs with
  | nil =>
    rw [Lexer.tokens] at h
    cases h
  | cons c cs =>
    have hlt : cs.length < n := by rw [← hn, List.length_cons]; omega
    rcases scan_cases c cs with ⟨text, l, after, hcs, hs, hscan⟩ | ⟨hc, hscan⟩ | hscan
    · have hafter : after.length < n := Nat.lt_of_le_of_lt (Lexer.scan_rest_le hscan) hlt
      rw [tokens_lexeme hscan, ← lineAfter_append] at h
      cases hrest : Lexer.tokens (lineAfter (before ++ text)) after with
      | ok us =>
        rw [hrest] at h
        cases h
      | error e' =>
        rw [hrest] at h
        cases h
        obtain ⟨here, q, rest, rfl, ⟨ts, hts⟩, hq, hopen, rfl⟩ := ih after.length hafter hrest rfl
        -- The lexeme ends where it did, now that the quote is cut off.
        have hs' : Spells text l here := hs.of_head fun d hd => by
          cases here with
          | nil => cases hd
          | cons _ _ => exact .inl hd
        have hfactors := Factors.cons hs' hts
        refine ⟨text ++ here, q, rest, ?_, ⟨_, hfactors⟩, hq, hopen, ?_⟩
        · rw [hcs, List.append_assoc]
        · rw [List.append_assoc]
    · rw [tokens_gap hscan, ← lineAfter_append] at h
      obtain ⟨here, q, rest, rfl, ⟨ts, hts⟩, hq, hopen, rfl⟩ := ih cs.length hlt h rfl
      refine ⟨c :: here, q, rest, rfl, ⟨ts, hts.between hc⟩, hq, hopen, ?_⟩
      rw [List.append_assoc, List.singleton_append]
    · obtain ⟨hq, hopen⟩ := quote_of_scan hscan
      rw [tokens_unterminated hscan] at h
      cases h
      exact ⟨[], c, cs, rfl, ⟨[], .done gap_nil⟩, hq, hopen, by rw [List.append_nil]⟩

theorem tokens_eq_error_iff {e : LexError} :
    Lexer.tokens 1 cs = .error e ↔
      ∃ before q rest, BreaksOff cs before q rest ∧ e = .unterminated (lineAfter before) := by
  constructor
  · intro h
    rw [← lineAfter_nil] at h
    obtain ⟨here, q, rest, hcs, hts, hq, hopen, he⟩ := exists_split_of_tokens h
    exact ⟨here, q, rest, ⟨hcs, hts, hq, hopen⟩, he⟩
  · rintro ⟨before, q, rest, h, rfl⟩
    exact h.tokens_eq

/-! ### One place only -/

/-- What reaches beyond the quote is no row of lexemes. -/
theorem BreaksOff.not_factors {more : List Char} (h : BreaksOff cs before q (rest ++ more))
    {ts : List Token} : ¬ Factors [] (before ++ q :: rest) ts := by
  intro hts
  have hcut : BreaksOff (before ++ q :: rest) before q rest :=
    ⟨rfl, h.lexemes, h.quote, h.unclosed.of_append⟩
  have hread := tokens_of_factors hts
  rw [lineAfter_nil, hcut.tokens_eq] at hread
  cases hread

theorem BreaksOff.length_le {before' rest' : List Char} {q' : Char}
    (h : BreaksOff cs before q rest) (h' : BreaksOff cs before' q' rest') :
    before'.length ≤ before.length := by
  by_contra hlt
  have hsplit := h.split.symm.trans h'.split
  obtain ⟨more, hmore⟩ : ∃ more, before' = before ++ q :: more := by
    rcases List.append_eq_append_iff.mp hsplit with ⟨as, rfl, has⟩ | ⟨as, rfl, -⟩
    · cases as with
      | nil => simp at hlt
      | cons d as => exact ⟨as, by rw [(List.cons.inj has).1]⟩
    · simp at hlt
  obtain ⟨ts, hts⟩ := h'.lexemes
  have hrest : rest = more ++ q' :: rest' := by
    rw [hmore, List.append_assoc, List.append_cancel_left_eq] at hsplit
    exact (List.cons.inj hsplit).2
  rw [hrest] at h
  exact h.not_factors (hmore ▸ hts)

theorem BreaksOff.unique {before' rest' : List Char} {q' : Char}
    (h : BreaksOff cs before q rest) (h' : BreaksOff cs before' q' rest') :
    before' = before ∧ q' = q ∧ rest' = rest := by
  have hlen : before'.length = before.length := Nat.le_antisymm (h.length_le h') (h'.length_le h)
  obtain ⟨hbefore, hrest⟩ := List.append_inj (h'.split.symm.trans h.split) hlen
  exact ⟨hbefore, List.cons.inj hrest⟩

theorem not_breaksOff_nil : ¬ BreaksOff [] before q rest := by
  intro h
  have hsplit := h.split
  simp at hsplit

theorem exists_tokens_iff :
    (∃ ts, Lexer.tokens 1 cs = .ok ts) ↔ ¬ ∃ before q rest, BreaksOff cs before q rest := by
  constructor
  · rintro ⟨ts, hts⟩ ⟨before, q, rest, h⟩
    rw [h.tokens_eq] at hts
    cases hts
  · intro hnone
    cases htokens : Lexer.tokens 1 cs with
    | ok ts => exact ⟨ts, rfl⟩
    | error e =>
      obtain ⟨before, q, rest, h, -⟩ := tokens_eq_error_iff.mp htokens
      exact absurd ⟨before, q, rest, h⟩ hnone

/-- No source and an empty one are alike. -/
theorem tokenizeGiven_eq (given : Option String) :
    tokenizeGiven given =
      if given.getD "" = "" then .error .emptySource else Lexer.tokens 1 (given.getD "").toList := by
  cases given with
  | none => rfl
  | some source =>
    simp only [tokenizeGiven, tokenize, Option.getD_some, String.isEmpty_iff]

/-- There is an error in a text exactly where it breaks off at a text literal, which it does at one
place, and the line is that of the opening quote, however many line breaks follow. Where no text or
an empty one is given the error has no line. Every other text has tokens. -/
theorem errors_are_unclosed_texts (given : Option String) :
    let source := given.getD ""
    (tokenizeGiven given = .error .emptySource ↔ source = "") ∧
    LexError.emptySource.line? = none ∧
    (∀ line, tokenizeGiven given = .error (.unterminated line) ↔
      ∃ before q rest, BreaksOff source.toList before q rest ∧ line = lineAfter before) ∧
    (∀ before q rest before' q' rest', BreaksOff source.toList before q rest →
      BreaksOff source.toList before' q' rest' → before' = before ∧ q' = q ∧ rest' = rest) ∧
    ((∃ ts, tokenizeGiven given = .ok ts) ↔
      source ≠ "" ∧ ¬ ∃ before q rest, BreaksOff source.toList before q rest) := by
  intro source
  have hgiven : tokenizeGiven given =
      if source = "" then .error .emptySource else Lexer.tokens 1 source.toList :=
    tokenizeGiven_eq given
  rw [hgiven]
  clear_value source
  refine ⟨?_, rfl, fun line => ?_, fun _ _ _ _ _ _ h h' => h.unique h', ?_⟩
  · by_cases hempty : source = ""
    · simp [hempty]
    · simp [hempty, tokens_ne_emptySource]
  · by_cases hempty : source = ""
    · simp [hempty, not_breaksOff_nil]
    · simp [hempty, tokens_eq_error_iff]
  · by_cases hempty : source = ""
    · simp [hempty]
    · rw [if_neg hempty, exists_tokens_iff, and_iff_right hempty]

/-- A word on the first line, and on the second a text literal with an escaped quote and a line break:
it is not closed. -/
theorem errors_are_unclosed_texts_escaped :
    let rest := ['i', 't', '\\', '\'', 's', '\n']
    let source := "x\n'it\\'s\n"
    BreaksOff source.toList ['x', '\n'] '\'' rest ∧
      tokenizeGiven (some source) = .error (.unterminated 2) := by
  intro rest source
  have hword : Lexer.scan 'x' ['\n'] = .lexeme (.word "x") 0 ['\n'] := rfl
  have hgap : Lexer.scan '\n' [] = .gap 1 [] := rfl
  have htokens : Lexer.tokens (lineAfter []) ['x', '\n'] = .ok [⟨.word "x", 1⟩] := by
    rw [tokens_lexeme hword, tokens_gap hgap, Lexer.tokens]
    rfl
  have hsource : source.toList = ['x', '\n'] ++ '\'' :: rest := by decide
  have hbreaks : BreaksOff source.toList ['x', '\n'] '\'' rest :=
    ⟨hsource, ⟨_, factors_of_tokens htokens⟩, .inr rfl, unclosed_iff.mpr rfl⟩
  obtain ⟨-, -, herror, -⟩ := errors_are_unclosed_texts (some source)
  exact ⟨hbreaks, (herror 2).mpr ⟨_, _, _, hbreaks, rfl⟩⟩

end StackLang.Lexical
