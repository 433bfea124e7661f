import StackLang.Proofs.Token.Joining

/-! # Places of tokens

Where in a source the reader cuts a token out, whatever becomes of the rest of the source. What has
been read before depends on the rest by its first character only, so that a lexeme can be spelled in
another way at its place without a change to any other token. -/

namespace StackLang.Lexical

/-- The reader has found `ts` in the source when it comes, on the line, to the rest of it. -/
inductive Comes (source : List Char) : List Token → Int → List Char → Prop where
  | start : Comes source [] 1 source
  | gap {ts line c cs breaks rest} : Comes source ts line (c :: cs) →
      Lexer.scan c cs = .gap breaks rest → Comes source ts (line + breaks) rest
  | lexeme {ts line c cs l breaks rest} : Comes source ts line (c :: cs) →
      Lexer.scan c cs = .lexeme l breaks rest →
      Comes source (ts ++ [⟨l, line⟩]) (line + breaks) rest

/-- The reader cuts the token out of a source, between `front` and `after`, when it has found `ts`. -/
def Cuts (ts : List Token) (t : Token) (front text after : List Char) : Prop :=
  ∃ c cs breaks, text ++ after = c :: cs ∧ Comes (front ++ text ++ after) ts t.line (c :: cs) ∧
    Lexer.scan c cs = .lexeme t.lexeme breaks after

variable {source front text text' after rest : List Char} {ts : List Token} {line : Int} {l : Lexeme}

theorem spells_of_scan {c : Char} {cs : List Char} {breaks : Nat}
    (h : Lexer.scan c cs = .lexeme l breaks rest) :
    ∃ text, c :: cs = text ++ rest ∧ Spells text l rest ∧ breaks = text.count '\n' := by
  rcases scan_cases c cs with ⟨text, l', rest', hcs, hs, hscan⟩ | ⟨-, hscan⟩ | hscan
  · cases hscan.symm.trans h
    exact ⟨text, hcs, hs, rfl⟩
  · cases hscan.symm.trans h
  · cases hscan.symm.trans h

theorem between_of_scan {c : Char} {cs : List Char} {breaks : Nat}
    (h : Lexer.scan c cs = .gap breaks rest) :
    IsBetween c ∧ rest = cs ∧ breaks = [c].count '\n' := by
  rcases scan_cases c cs with ⟨text, l', rest', -, -, hscan⟩ | ⟨hc, hscan⟩ | hscan
  · cases hscan.symm.trans h
  · cases hscan.symm.trans h
    exact ⟨hc, rfl, rfl⟩
  · cases hscan.symm.trans h

theorem Comes.tokens_eq (h : Comes source ts line rest) :
    Lexer.tokens 1 source = (Lexer.tokens line rest).map (ts ++ ·) := by
  induction h with
  | start => cases Lexer.tokens 1 source <;> rfl
  | gap _ hscan ih => rw [ih, tokens_gap hscan]
  | @lexeme ts line c cs l breaks rest _ hscan ih =>
    rw [ih, tokens_lexeme hscan]
    cases Lexer.tokens (line + breaks) rest <;> simp [Except.map]

/-- By induction on what has been read; a lexeme of it ends where it did, for what follows it begins
as before. -/
theorem Comes.of_head (h : Comes source ts line rest) :
    ∃ front, source = front ++ rest ∧
      ∀ rest', rest'.head? = rest.head? → Comes (front ++ rest') ts line rest' := by
  induction h with
  | start => exact ⟨[], rfl, fun rest' _ => .start⟩
  | @gap ts line c cs breaks rest _ hscan ih =>
    obtain ⟨front, hsource, hsame⟩ := ih
    obtain ⟨hc, rfl, rfl⟩ := between_of_scan hscan
    refine ⟨front ++ [c], ?_, fun rest' _ => ?_⟩
    · rw [hsource, List.append_assoc, List.singleton_append]
    · have hcomes := (hsame (c :: rest') rfl).gap (scan_between hc)
      rwa [List.append_assoc, List.singleton_append]
  | @lexeme ts line c cs l breaks rest _ hscan ih =>
    obtain ⟨front, hsource, hsame⟩ := ih
    obtain ⟨text, hcs, hs, rfl⟩ := spells_of_scan hscan
    refine ⟨front ++ text, ?_, fun rest' hhead => ?_⟩
    · rw [hsource, hcs, List.append_assoc]
    · have hs' : Spells text l rest' := hs.of_head fun d hd => .inl (hhead ▸ hd)
      obtain ⟨d, ds, rfl, hscan'⟩ := scan_of_spells hs'
      have hhead' : (d :: (ds ++ rest')).head? = (c :: cs).head? := by
        rw [hcs]
        rfl
      rw [List.append_assoc, List.cons_append]
      exact (hsame _ hhead').lexeme hscan'

theorem cuts_iff {t : Token} : Cuts ts t front text after ↔
    Comes (front ++ text ++ after) ts t.line (text ++ after) ∧ Spells text t.lexeme after := by
  constructor
  · rintro ⟨c, cs, breaks, hcs, hcomes, hscan⟩
    obtain ⟨text', hcs', hs, -⟩ := spells_of_scan hscan
    have htext : text = text' := List.append_cancel_right (hcs.trans hcs')
    rw [htext] at hcs hcomes ⊢
    exact ⟨hcs ▸ hcomes, hs⟩
  · rintro ⟨hcomes, hs⟩
    obtain ⟨c, cs, rfl, hscan⟩ := scan_of_spells hs
    exact ⟨c, cs ++ after, _, rfl, hcomes, hscan⟩

/-- Another spelling of the lexeme that begins with the same character and passes as many line
breaks: the same tokens, or the same error. -/
theorem Cuts.respelled {t : Token} (h : Cuts ts t front text after)
    (hs : Spells text' t.lexeme after) (hhead : (text' ++ after).head? = (text ++ after).head?)
    (hbreaks : text'.count '\n' = text.count '\n') :
    Lexer.tokens 1 (front ++ text' ++ after) = Lexer.tokens 1 (front ++ text ++ after) := by
  have hread : ∀ {text}, Spells text t.lexeme after →
      Lexer.tokens t.line (text ++ after) =
        (Lexer.tokens (t.line + text.count '\n') after).map (t :: ·) := by
    intro text hs
    obtain ⟨c, cs, rfl, hscan⟩ := scan_of_spells hs
    exact tokens_lexeme hscan
  obtain ⟨hcomes, hs₀⟩ := cuts_iff.mp h
  obtain ⟨front', hsource, hsame⟩ := hcomes.of_head
  rw [List.append_assoc] at hsource
  have hfront : front' = front := (List.append_cancel_right hsource).symm
  have hcomes' := hsame (text' ++ after) hhead
  rw [hfront, ← List.append_assoc] at hcomes'
  rw [hcomes.tokens_eq, hcomes'.tokens_eq, hread hs₀, hread hs, hbreaks]

/-- Each token that is found in the rest is cut out of the source. -/
theorem Comes.cuts (h : Comes source ts line rest) {before more : List Token} {t : Token}
    (hrest : Lexer.tokens line rest = .ok (before ++ t :: more)) :
    ∃ front text after,
      source = front ++ text ++ after ∧ Cuts (ts ++ before) t front text after := by
  fun_induction Lexer.tokens line rest generalizing ts before with
  | case1 line => simp at hrest
  | case2 line c cs hscan => cases hrest
  | case3 line c cs breaks rest hscan _ ih => exact ih (h.gap hscan) hrest
  | case4 line c cs l breaks rest hscan _ ih =>
    cases hus : Lexer.tokens (line + breaks) rest with
    | error e =>
      rw [hus] at hrest
      cases hrest
    | ok us =>
      rw [hus] at hrest
      have hfound : ⟨l, line⟩ :: us = before ++ t :: more := Except.ok.inj hrest
      cases before with
      | nil =>
        obtain ⟨rfl, -⟩ := List.cons.inj hfound
        obtain ⟨front, hsource, -⟩ := h.of_head
        obtain ⟨text, hcs, -, -⟩ := spells_of_scan hscan
        rw [hcs, ← List.append_assoc] at hsource
        refine ⟨front, text, rest, hsource, c, cs, breaks, hcs.symm, ?_, hscan⟩
        rwa [← hsource, List.append_nil]
      | cons u before =>
        obtain ⟨rfl, rfl⟩ := List.cons.inj hfound
        have hcut := ih (h.lexeme hscan) hus
        rwa [List.append_assoc] at hcut

theorem cuts_of_tokenize {s : String} {before more : List Token} {t : Token}
    (h : tokenize s = .ok (before ++ t :: more)) :
    ∃ front text after, s.toList = front ++ text ++ after ∧ Cuts before t front text after := by
  have hne : s ≠ "" := (tokenize_eq_ok_iff_factors.mp h).1
  rw [tokenize_eq_tokens hne] at h
  exact Comes.start.cuts h

end StackLang.Lexical
