import Mathlib.Tactic.Core
import StackLang.Proofs.Number.Layouts
import StackLang.Proofs.Token.Factoring

/-! # Rendered tokens

Tokens that are shown as source text, with a blank between them, are read as the same lexemes again.
Only a number too large for a finite double is not: it is shown as a word. Text literals are shown
with escapes, so that no rendered lexeme breaks a line. -/

namespace StackLang.Lexical

open StackLang.Text

/-- Tokens as one line of source text. -/
def rendered (ts : List Token) : String :=
  " ".intercalate (ts.map fun t => t.lexeme.source)

/-- What a rendered lexeme is read as. -/
def reread : Lexeme → Lexeme
  | .number (.infinite _) => .word "Infinity"
  | l => l

/-- Where a rendered lexeme ends. -/
def Ends (after : List Char) : Prop := ∀ c ∈ after.head?, c = ' '

theorem ends_nil : Ends [] := by
  intro c hc
  cases hc

/-! ### Numbers -/

theorem numberValue_cases (ds fs : List Char) :
    Lexer.numberValue ds fs = .infinite false ∨
      ∃ n h, Lexer.numberValue ds fs = .finite false n h := by
  unfold Lexer.numberValue
  rw [Layout.value_eq_toDouble, Decimal.toDouble_eq_round]
  exact Double.round_cases ..

theorem digits_of_ascii {cs : List Char} (h : ∀ c ∈ cs, c.isDigit = true) : Digits cs :=
  fun c hc => isDigit_of_ascii (h c hc)

theorem Ends.not_digit {after : List Char} (h : Ends after) :
    ∀ c ∈ after.head?, isDigit c = false ∧ ¬ IsPoint c := by
  intro c hc
  rw [h c hc]
  exact ⟨by decide, by rintro (h | h) <;> exact absurd h (by decide)⟩

theorem Ends.not_wordChar {after : List Char} (h : Ends after) :
    ∀ c ∈ after.head?, ¬ IsWordChar c := by
  intro c hc
  rw [h c hc, ← isWordChar_eq_false]
  decide

theorem spells_number {n : Nat} (h : Held n) {after : List Char} (ha : Ends after) :
    Spells (Lexeme.number (.finite false n h)).source.toList (.number (.finite false n h)) after := by
  obtain ⟨whole, fraction, hfig, htext⟩ := Layout.source_figures h
  have hwhole : Digits whole := digits_of_ascii hfig.whole_digits
  have hfraction : Digits fraction := digits_of_ascii hfig.fraction_digits
  have hsource : (Lexeme.number (.finite false n h)).source.toList =
      whole ++ Layout.pointText fraction := htext
  rw [hsource, Layout.pointText]
  split
  · subst fraction
    rw [List.append_nil]
    refine .whole hfig.whole_ne hwhole ?_ ha.not_digit
    rw [denotes_iff hfig.whole_ne hwhole no_digits, ← hfig.value]
    exact Layout.value_zero_fraction false whole
  · refine .fraction hfig.whole_ne hwhole (.inl rfl) hfraction ?_ fun c hc => (ha.not_digit c hc).1
    rw [denotes_iff hfig.whole_ne hwhole hfraction, ← hfig.value, Lexer.numberValue,
      if_neg ‹fraction ≠ []›]

theorem spells_infinity {after : List Char} (ha : Ends after) :
    Spells (Lexeme.number (.infinite false)).source.toList (.word "Infinity") after := by
  have hcs := wordChars_of_all "nfinity".toList (by decide)
  exact .word (c := 'I') (by decide) hcs ha.not_wordChar (by decide) (by decide)

/-! ### Text literals -/

theorem Units.append {as bs cs ds : List Char} (h : Units as bs) (h' : Units cs ds) :
    Units (as ++ cs) (bs ++ ds) := by
  induction h with
  | nil => exact h'
  | plain hc hn _ ih => exact .plain hc hn ih
  | newline _ ih => exact .newline ih
  | escaped hc _ ih => exact .escaped hc ih

theorem units_escape (c : Char) : Units (Lexeme.escape c) [c] := by
  unfold Lexeme.escape
  split
  · rename_i h
    have hn : c ≠ 'n' := by rcases h with rfl | rfl | rfl <;> decide
    exact .escaped hn .nil
  · rename_i h
    simp only [not_or] at h
    split
    · subst c
      exact .newline .nil
    · exact .plain h.1 (fun hq => hq.elim h.2.1 h.2.2) .nil

theorem units_escapes (cs : List Char) : Units (cs.flatMap Lexeme.escape) cs := by
  induction cs with
  | nil => exact .nil
  | cons c cs ih => exact (units_escape c).append ih

theorem toList_source_text (s : String) :
    (Lexeme.text s).source.toList = '"' :: s.toList.flatMap Lexeme.escape ++ ['"'] := by
  simp [Lexeme.source]

theorem spells_text (s : String) (after : List Char) :
    Spells (Lexeme.text s).source.toList (.text s) after := by
  have h : Spells ('"' :: s.toList.flatMap Lexeme.escape ++ ['"'])
      (.text (String.ofList s.toList)) after :=
    .text (.inl rfl) (.inl rfl) (units_escapes s.toList)
  rwa [String.ofList_toList, ← toList_source_text] at h

/-! ### Rows of lexemes -/

/-- What a scan has found is found again in its rendering. -/
theorem Spells.rendered {text after after' : List Char} {l : Lexeme} (h : Spells text l after)
    (ha : Ends after') : Spells l.source.toList (reread l) after' := by
  have hnumber : ∀ {ds fs x}, ds ≠ [] → Digits ds → Digits fs → Denotes ds fs x →
      Spells (Lexeme.number x).source.toList (reread (.number x)) after' := by
    intro ds fs x hne hd hf hx
    rw [denotes_iff hne hd hf] at hx
    rcases numberValue_cases ds fs with hv | ⟨n, hn, hv⟩
    · rw [← hx, hv]
      exact spells_infinity ha
    · rw [← hx, hv]
      exact spells_number hn ha
  cases h with
  | whole hne hd hx _ => exact hnumber hne hd no_digits hx
  | fraction hne hd _ hf hx _ => exact hnumber hne hd hf hx
  | text _ _ _ => exact spells_text _ after'
  | word hc hcs _ ht hf =>
    rw [Lexeme.source, String.toList_ofList]
    exact .word hc hcs ha.not_wordChar ht hf
  | @boolean b _ _ =>
    cases b with
    | true => exact Spells.boolean (b := true) ha.not_wordChar
    | false => exact Spells.boolean (b := false) ha.not_wordChar
  | symbol hd hq hl hb =>
    rw [Lexeme.source, String.toList_ofList]
    exact .symbol hd hq hl hb

theorem not_mem_escape (c : Char) : '\n' ∉ Lexeme.escape c := by
  unfold Lexeme.escape
  split
  · rename_i h
    rcases h with rfl | rfl | rfl <;> decide
  · split
    · decide
    · rw [List.mem_singleton]
      exact Ne.symm ‹_›

theorem count_break_text (s : String) : (Lexeme.text s).source.toList.count '\n' = 0 := by
  have hraw : '\n' ∉ s.toList.flatMap Lexeme.escape := by
    intro h
    obtain ⟨c, -, hc⟩ := List.mem_flatMap.mp h
    exact not_mem_escape c hc
  rw [toList_source_text, count_break_quoted (.inl rfl) (.inl rfl)]
  exact List.count_eq_zero.mpr hraw

/-- Only a text literal can break a line. -/
theorem Spells.count_break {text after : List Char} {l : Lexeme} (h : Spells text l after)
    (hl : ∀ s, l ≠ .text s) : text.count '\n' = 0 := by
  cases h with
  | whole _ hd _ _ => exact count_break_digits hd
  | fraction _ hd hp hf _ _ => exact count_break_fraction hd hp hf
  | text => exact absurd rfl (hl _)
  | word hc hcs _ _ _ => exact count_break_word hc hcs
  | @boolean b _ _ => cases b <;> decide
  | symbol _ _ _ hb => exact count_break_symbol hb

theorem reread_text {l : Lexeme} {s : String} (h : reread l = .text s) : l = .text s := by
  unfold reread at h
  split at h
  · cases h
  · exact h

/-- A rendered lexeme stands on one line. -/
theorem Spells.count_break_source {text after : List Char} {l : Lexeme} (h : Spells text l after) :
    l.source.toList.count '\n' = 0 := by
  by_cases hl : ∃ s, l = .text s
  · obtain ⟨s, rfl⟩ := hl
    exact count_break_text s
  · have hends : Ends [] := by
      intro c hc
      cases hc
    exact (h.rendered hends).count_break fun s hs => hl ⟨s, reread_text hs⟩

theorem rendered_singleton (t : Token) : (rendered [t]).toList = t.lexeme.source.toList := by
  simp [rendered]

theorem rendered_cons_cons (t u : Token) (us : List Token) :
    (rendered (t :: u :: us)).toList =
      t.lexeme.source.toList ++ ' ' :: (rendered (u :: us)).toList := by
  simp [rendered, String.toList_intercalate]

/-- By induction on the lexemes that were found; `shown` is what is rendered before them. -/
theorem factors_rendered {before cs : List Char} {ts : List Token} (h : Factors before cs ts)
    (hne : ts ≠ []) {shown : List Char} (hline : lineAfter shown = 1) :
    Factors shown (rendered ts).toList (ts.map fun t => ⟨reread t.lexeme, 1⟩) := by
  induction h generalizing shown with
  | done => exact absurd rfl hne
  | @lexeme before gap text rest l ts _ hs hf ih =>
    cases ts with
    | nil =>
      have hrow : Factors shown (l.source.toList ++ []) [⟨reread l, lineAfter shown⟩] :=
        .cons (hs.rendered ends_nil) (.done gap_nil)
      rw [List.append_nil, hline] at hrow
      rw [rendered_singleton]
      exact hrow
    | cons t us =>
      have hends : Ends (' ' :: (rendered (t :: us)).toList) := by
        intro c hc
        cases hc
        rfl
      have hnext : lineAfter (shown ++ l.source.toList ++ [' ']) = 1 := by
        rw [lineAfter_append, lineAfter_append, hs.count_break_source, hline]
        rfl
      have hrest := ih (List.cons_ne_nil _ _) hnext
      have hrow := Factors.cons (hs.rendered hends) (hrest.between (.inl rfl))
      rw [hline] at hrow
      rw [rendered_cons_cons]
      exact hrow

/-! ### Reading back -/

theorem tokenize_of_factors {source : String} {ts : List Token} (hne : ts ≠ [])
    (h : Factors [] source.toList ts) : tokenize source = .ok ts := by
  have htokens : Lexer.tokens 1 source.toList = .ok ts := tokens_of_factors h
  unfold tokenize
  split
  · rename_i he
    rw [String.isEmpty_iff.mp he, String.toList_empty, Lexer.tokens] at htokens
    cases htokens
    exact absurd rfl hne
  · exact htokens

theorem tokenize_of_spells {text : List Char} {source : String} {l : Lexeme}
    (htext : source.toList = text) (h : Spells text l []) : tokenize source = .ok [⟨l, 1⟩] := by
  have hrow : Factors [] (text ++ []) [⟨l, 1⟩] := .cons h (.done gap_nil)
  rw [List.append_nil, ← htext] at hrow
  exact tokenize_of_factors (List.cons_ne_nil _ _) hrow

theorem tokenize_rendered {source : String} {ts : List Token} (h : tokenize source = .ok ts)
    (hne : ts ≠ []) :
    tokenize (rendered ts) = .ok (ts.map fun t => ⟨reread t.lexeme, 1⟩) := by
  refine tokenize_of_factors ?_ (factors_rendered (factors_of_tokenize h) hne rfl)
  simpa using hne

theorem reread_eq_self {l : Lexeme} : reread l = l ↔ ∀ s, l ≠ .number (.infinite s) := by
  unfold reread
  split
  · simp
  · rename_i hl
    exact iff_of_true rfl hl

/-- Tokens are read back from their rendering unless one of them is too large a number. Every text
and every finite number that is not negative is the token of its own rendering, and such numbers are
digits around at most one point. -/
theorem rendering_reads_back :
    (∀ source ts, tokenize source = .ok ts → ts ≠ [] →
      ((∃ us, tokenize (rendered ts) = .ok us ∧
          us.map (·.lexeme) = ts.map (·.lexeme) ∧ ∀ u ∈ us, u.line = 1) ↔
        ∀ t ∈ ts, ∀ s, t.lexeme ≠ .number (.infinite s))) ∧
    (∀ s, tokenize (Lexeme.text s).source = .ok [⟨.text s, 1⟩]) ∧
    (∀ n, ∀ h : Held n,
      tokenize (Lexeme.number (.finite false n h)).source = .ok [⟨.number (.finite false n h), 1⟩] ∧
      ∃ whole fraction, whole ≠ [] ∧ (∀ c ∈ whole ++ fraction, c.isDigit = true) ∧
        (Lexeme.number (.finite false n h)).source.toList =
          whole ++ if fraction = [] then [] else '.' :: fraction) := by
  refine ⟨fun source ts h hne => ?_, fun s => ?_, fun n h => ⟨?_, ?_⟩⟩
  · have hread := tokenize_rendered h hne
    constructor
    · rintro ⟨us, hus, hsame, -⟩ t ht
      rw [hread] at hus
      cases hus
      rw [List.map_map, List.map_inj_left] at hsame
      exact reread_eq_self.mp (hsame t ht)
    · intro hfin
      refine ⟨_, hread, ?_, ?_⟩
      · rw [List.map_map, List.map_inj_left]
        exact fun t ht => reread_eq_self.mpr (hfin t ht)
      · intro u hu
        obtain ⟨t, -, rfl⟩ := List.mem_map.mp hu
        rfl
  · exact tokenize_of_spells rfl (spells_text s [])
  · exact tokenize_of_spells rfl (spells_number h ends_nil)
  · obtain ⟨whole, fraction, hfig, htext⟩ := Layout.source_figures h
    exact ⟨whole, fraction, hfig.whole_ne,
      Layout.append_ascii hfig.whole_digits hfig.fraction_digits, htext⟩

/-- A quote and a line break in a text literal. -/
theorem rendering_reads_back_escaped :
    let ts : List Token := [⟨.word "x", 1⟩, ⟨.symbol ";", 1⟩, ⟨.text "'\n", 1⟩]
    tokenize "x; '\\'\n'" = .ok ts ∧
      ∃ us, tokenize (rendered ts) = .ok us ∧
        us.map (·.lexeme) = ts.map (·.lexeme) ∧ ∀ u ∈ us, u.line = 1 := by
  have h : tokenize "x; '\\'\n'" =
      .ok [⟨.word "x", 1⟩, ⟨.symbol ";", 1⟩, ⟨.text "'\n", 1⟩] := by decide +kernel
  refine ⟨h, (rendering_reads_back.1 _ _ h (List.cons_ne_nil _ _)).mpr ?_⟩
  simp

end StackLang.Lexical
