import StackLang.Proofs.Machine.Blocks
import StackLang.Proofs.Machine.Conversions
import StackLang.Proofs.Program.Sources
import StackLang.Proofs.Token.Numerals

/-! # Numbers of source texts

A number in a source and the same characters in a text that is converted are one float, and it makes
no difference which of the two points is in it. -/

namespace StackLang

namespace Lexical

variable {text : List Char} {x : Double}

theorem units_plain {cs : List Char} (h : ∀ c ∈ cs, c ≠ '\\' ∧ ¬ IsQuote c) : Units cs cs := by
  induction cs with
  | nil => exact .nil
  | cons c cs ih =>
    obtain ⟨hc, hcs⟩ := List.forall_mem_cons.mp h
    exact .plain hc.1 hc.2 (ih hcs)

theorem IsNumeral.units (h : IsNumeral text) : Units text text := by
  refine units_plain fun c hc => ⟨?_, fun hq => ?_⟩
  · rintro rfl
    exact h.not_mem (by decide) (by simp [IsPoint]) hc
  · exact h.not_mem hq.isSeam.not_digit hq.isSeam.not_point hc

theorem gap_blank : Gap [' '] := List.forall_mem_singleton.mpr (.inl rfl)

/-- Both sources begin with the keyword, and on the same line. -/
theorem tokenize_push {source : String} {ts : List Token} {rest : List Char}
    (hsource : source.toList = "push".toList ++ ' ' :: rest)
    (h : Factors ("push".toList ++ [' ']) rest ts) :
    tokenize source = .ok (⟨.word "push", 1⟩ :: ts) := by
  have hne : source ≠ "" := by
    rintro rfl
    cases hsource
  have hblank : IsBetween ' ' := .inl rfl
  have hend : ∀ d ∈ (' ' :: rest).head?, ¬ IsWordChar d := by
    intro d hd
    cases hd
    exact hblank.not_wordChar
  have hpush : Spells "push".toList (.word "push") (' ' :: rest) :=
    .word (by decide) (wordChars_of_all ['u', 's', 'h'] (by decide)) hend (by decide) (by decide)
  refine tokenize_eq_ok_iff_factors.mpr ⟨hne, ?_⟩
  rw [hsource]
  exact .cons hpush (.between hblank h)

theorem tokenize_push_number (h : Spells text (.number x) []) :
    tokenize ("push " ++ .ofList text) = .ok [⟨.word "push", 1⟩, ⟨.number x, 1⟩] :=
  @tokenize_push _ _ (text ++ []) (by simp) (.cons h (.done gap_nil))

theorem tokenize_push_text (h : IsNumeral text) :
    tokenize ("push \"" ++ .ofList text ++ "\" cfloat") =
      .ok [⟨.word "push", 1⟩, ⟨.text (.ofList text), 1⟩, ⟨.word "cfloat", 1⟩] := by
  let quoted := '"' :: text ++ ['"']
  let rest := [' '] ++ "cfloat".toList ++ []
  have htext : Spells quoted (.text (.ofList text)) rest := .text (.inl rfl) (.inl rfl) h.units
  have hword : Spells "cfloat".toList (.word "cfloat") [] :=
    .word (by decide) (wordChars_of_all ['f', 'l', 'o', 'a', 't'] (by decide)) (by simp) (by decide)
      (by decide)
  have hline : lineAfter ("push".toList ++ [' '] ++ quoted ++ [' ']) = 1 := by
    simp [quoted, lineAfter, h.count_break]
  have hrest : Factors ("push".toList ++ [' '] ++ quoted) rest [⟨.word "cfloat", 1⟩] :=
    hline ▸ .lexeme gap_blank hword (.done gap_nil)
  exact @tokenize_push _ _ (quoted ++ rest) (by simp [quoted, rest]) (.cons htext hrest)

end Lexical

theorem parse_push_number (x : Double) :
    parse [⟨.word "push", 1⟩, ⟨.number x, 1⟩] = .ok ⟨[.push (.number x 1) 1]⟩ := rfl

theorem parse_push_text (s : String) :
    parse [⟨.word "push", 1⟩, ⟨.text s, 1⟩, ⟨.word "cfloat", 1⟩] =
      .ok ⟨[.push (.text (.ofString s) 1) 1, .convert .float 1]⟩ := rfl

namespace Machine

theorem first_line : (1 : Int).natAbs < Integer.textLimit :=
  Integer.lt_textLimit (by decide : _ < Nat.pow 10 1) (by decide)

theorem runBlock_push_number (m : Machine) (x : Double) :
    m.runBlock 0 [Stmt.push (.number x 1) 1] = .ok (m.push (.float x)) := by
  have hpush : Stmt.exec 0 (.push (.number x 1) 1) m = .ok (m.push (.float x)) := rfl
  rw [runBlock_zero_cons hpush first_line, runBlock]

theorem runBlock_push_text (m : Machine) {t : Text} {x : Double}
    (h : Value.parseFloat t = .ok x) :
    m.runBlock 0 [Stmt.push (.text t 1) 1, .convert .float 1] = .ok (m.push (.float x)) := by
  have hpush : Stmt.exec 0 (.push (.text t 1) 1) m = .ok (m.push (.text t)) := rfl
  have hfloat : (Value.text t).toFloat = .ok x := h
  have hconvert : (Value.text t).convert .float = .ok (.float x) := by
    rw [Value.convert, hfloat]
    rfl
  rw [runBlock_zero_cons hpush first_line,
    runBlock_zero_cons (Stmt.exec_convert_ok hconvert 0 1 m) first_line, runBlock]

end Machine

/-- Wherever the reader cuts a number out of a source, the number is what the characters of it are
read as when they are converted, with either of the points, whether what follows has tokens or not.
So a number that is pushed and its characters that are pushed and converted are one float. Numerals
are what numbers are cut out as, and every token is cut out somewhere. -/
theorem numbers_read_as_typed :
    (∀ text, Lexical.IsNumeral text ↔ ∃ before line x front after,
      Lexical.Cuts before ⟨.number x, line⟩ front text after) ∧
    (∀ source before t more, tokenize source = .ok (before ++ t :: more) →
      ∃ front text after, source.toList = front ++ text ++ after ∧
        Lexical.Cuts before t front text after) ∧
    ∀ before line x front text after, Lexical.Cuts before ⟨.number x, line⟩ front text after →
      Value.parseFloat (.ofString (.ofList text)) = .ok x ∧
      tokenize (.ofList (front ++ text.map Lexical.exchange ++ after)) =
        tokenize (.ofList (front ++ text ++ after)) ∧
      ∃ p q, parseProgram ("push " ++ .ofList text) = .ok p ∧
        parseProgram ("push \"" ++ .ofList text ++ "\" cfloat") = .ok q ∧
        ∀ m : Machine, m.runBlock 0 p.body = .ok (m.push (.float x)) ∧
          m.runBlock 0 q.body = .ok (m.push (.float x)) ∧ p.run 0 m = q.run 0 m := by
  refine ⟨fun text => Lexical.isNumeral_iff_cuts,
    fun source before t more h => Lexical.cuts_of_tokenize h, ?_⟩
  intro before line x front text after hcuts
  have hs : Lexical.Spells text (.number x) after := (Lexical.cuts_iff.mp hcuts).2
  have hend : Lexical.Spells text (.number x) [] := hs.of_head (by simp)
  have hparse := hs.parseFloat
  refine ⟨hparse, hcuts.exchange, ⟨[.push (.number x 1) 1]⟩,
    ⟨[.push (.text (.ofString (.ofList text)) 1) 1, .convert .float 1]⟩,
    parseProgram_eq_ok.mpr ⟨_, Lexical.tokenize_push_number hend, parse_push_number x⟩,
    parseProgram_eq_ok.mpr ⟨_, Lexical.tokenize_push_text hs.isNumeral, parse_push_text _⟩,
    fun m => ?_⟩
  have hnumber := m.runBlock_push_number x
  have htext := m.runBlock_push_text hparse
  refine ⟨hnumber, htext, ?_⟩
  rw [Program.run_zero, Program.run_zero, hnumber, htext]

/-- A number beyond all floats, with a point and no fraction, behind a sign and in front of a text
literal that is not closed. -/
theorem numbers_read_as_typed_infinite :
    let text := List.replicate 309 '9' ++ [',']
    Lexical.Cuts [⟨.symbol "-", 1⟩] ⟨.number (.infinite false), 1⟩ ['-'] text [' ', '"'] ∧
      Value.parseFloat (.ofString (.ofList text)) = .ok (.infinite false) ∧
      tokenize (.ofList (['-'] ++ text.map Lexical.exchange ++ [' ', '"'])) =
        tokenize (.ofList (['-'] ++ text ++ [' ', '"'])) := by
  intro text
  have hdigits : Lexical.Digits (List.replicate 309 '9') := by
    intro c hc
    rw [List.eq_of_mem_replicate hc]
    decide
  have hne : List.replicate 309 '9' ≠ [] := List.cons_ne_nil _ _
  have hvalue : Lexer.numberValue (List.replicate 309 '9') [] = .infinite false := by
    decide +kernel
  have hend : ∀ c ∈ [' ', '"'].head?, Text.isDigit c = false := by
    intro c hc
    cases hc
    decide
  have hnumber : Lexical.Spells text (.number (.infinite false)) [' ', '"'] :=
    .fraction hne hdigits (.inr rfl) Lexical.no_digits
      ((Lexical.denotes_iff hne hdigits Lexical.no_digits).mpr hvalue) hend
  have hsign : Lexer.scan '-' (text ++ [' ', '"']) = .lexeme (.symbol "-") 0 (text ++ [' ', '"']) :=
    rfl
  have hcomes : Lexical.Comes (['-'] ++ text ++ [' ', '"']) [⟨.symbol "-", 1⟩] 1
      (text ++ [' ', '"']) := Lexical.Comes.start.lexeme hsign
  have hcuts : Lexical.Cuts [⟨.symbol "-", 1⟩] ⟨.number (.infinite false), 1⟩ ['-'] text [' ', '"'] :=
    Lexical.cuts_iff.mpr ⟨hcomes, hnumber⟩
  obtain ⟨hparse, htokens, -⟩ := numbers_read_as_typed.2.2 _ _ _ _ _ _ hcuts
  exact ⟨hcuts, hparse, htokens⟩

end StackLang
