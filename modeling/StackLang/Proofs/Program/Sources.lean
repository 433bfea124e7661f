import StackLang.Proofs.Program.Leaves
import StackLang.Proofs.Token.Factoring

/-! # Programs of source texts

What tokens of a source text are like, and so the programs that are read from one: no name is
empty, names and texts are strings, and lines are lines of the text. -/

namespace StackLang

namespace Lexical

/-- A token is spelled somewhere in the text, on a line of it. -/
theorem Factors.mem {before cs : List Char} {ts : List Token} (h : Factors before cs ts) :
    ∀ t ∈ ts, (∃ text after, Spells text t.lexeme after) ∧
      0 < t.line ∧ t.line ≤ lineAfter (before ++ cs) := by
  induction h with
  | done => simp
  | @lexeme before gap text rest l ts _ hs _ ih =>
    have hwhole : before ++ (gap ++ text ++ rest) = before ++ gap ++ text ++ rest := by
      simp only [List.append_assoc]
    rw [hwhole]
    refine List.forall_mem_cons.mpr ⟨⟨⟨text, rest, hs⟩, ?_, ?_⟩, ih⟩
    · simp only [lineAfter]
      omega
    · simp only [lineAfter, List.count_append]
      omega

theorem Spells.word_ne_empty {text after : List Char} {s : String}
    (h : Spells text (.word s) after) : s ≠ "" := by
  cases h
  simp

end Lexical

theorem isEmpty_ofString {s : String} (h : s ≠ "") : (Text.ofString s).isEmpty = false := by
  have hlist : s.toList ≠ [] := fun hl => h (String.toList_eq_nil_iff.mp hl)
  simpa [Text.ofString, Text.isEmpty] using hlist

/-- The tokens of a source text that ends on line `last`. -/
theorem tokens_of_source {source : String} {ts : List Token} (h : tokenize source = .ok ts) :
    ∀ t ∈ ts, t.lexeme ≠ .word "" ∧ 0 < t.line ∧ t.line ≤ Lexical.lineAfter source.toList := by
  intro t ht
  obtain ⟨⟨text, after, hs⟩, hline⟩ := (Lexical.factors_of_tokenize h).mem t ht
  refine ⟨fun hw => ?_, hline⟩
  rw [hw] at hs
  exact hs.word_ne_empty rfl

theorem parseProgram_eq_ok {source : String} {p : Program} :
    parseProgram source = .ok p ↔ ∃ ts, tokenize source = .ok ts ∧ parse ts = .ok p := by
  unfold parseProgram
  cases tokenize source with
  | error e => simp
  | ok ts => cases hparse : parse ts <;> simp [Except.mapError, hparse]

/-- What holds of all strings, of all strings but the empty one and of all lines of a text, holds of
the texts, the names and the lines of a program that has been read from it. -/
theorem meets_of_parseProgram {d : Demand} {source : String} {p : Program}
    (h : parseProgram source = .ok p) (hname : ∀ s : String, s ≠ "" → d.name s)
    (htext : ∀ s : String, d.text s)
    (hline : ∀ n, 0 < n → n ≤ Lexical.lineAfter source.toList → d.line n) : p.document.Meets d := by
  obtain ⟨ts, hts, hp⟩ := parseProgram_eq_ok.mp h
  refine meets_of_parse hp fun t ht => ?_
  obtain ⟨hword, hpos, hle⟩ := tokens_of_source hts t ht
  refine ⟨hline _ hpos hle, fun s hs => hname s ?_, fun s _ => htext s⟩
  rintro rfl
  exact hword (Grammar.lexeme_of_name hs).1

end StackLang
