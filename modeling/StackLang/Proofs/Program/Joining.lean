import StackLang.Proofs.Machine.Blocks
import StackLang.Proofs.Program.Lines
import StackLang.Proofs.Program.Sources

/-! # Programs behind one another

Where the expression at the end of a program cannot go on with the first token of another one, the
two texts, with a line break between them, are the text of one program, which does what the two do
one after the other. -/

namespace StackLang

/-- Whether a statement ends with an expression. -/
def Stmt.endsInExpression : Stmt → Bool
  | push .. | bare _ => true
  | print _ | pop _ | dup _ | read _ | convert .. | store .. | load .. | remove .. => false

namespace Grammar

/-- What is no expression at its end has nothing that could go on. -/
theorem DerivesStmt.allows {ts : List Token} {s : Stmt} {ending : SegmentEnd}
    (h : DerivesStmt ts s ending) (hs : s.endsInExpression = false) (t : Token) : ending.Allows t := by
  cases h with
  | push _ _ | bare _ _ => cases hs
  | print _ | pop _ | dup _ | read _ | convert _ | store _ _ | load _ _ | remove _ _ => trivial

theorem SegmentEnd.allows_of_ne {ending : SegmentEnd} {t : Token}
    (hminus : t.terminal ≠ .sign .minus) (hbang : t.terminal ≠ .sign .bang) : ending.Allows t := by
  cases ending with
  | closed => trivial
  | expression last => exact ⟨hbang, fun h => absurd h hminus⟩

theorem head?_tokens {ts : List Token} {segs : List Segment} (h : IsCut ts segs) {b : Segment}
    (hb : b ∈ segs.head?) : b.tokens.head? = ts.head? := by
  obtain ⟨rest, rfl⟩ := List.head?_eq_some_iff.mp hb
  rw [← h.covers, List.flatMap_cons]
  exact (head?_of_append rfl b.tokens_ne_nil).symm

theorem IsCut.append {ts us : List Token} {segs segs' : List Segment} (h : IsCut ts segs)
    (h' : IsCut us segs') (hseam : ∀ a ∈ segs.getLast?, ∀ t ∈ us.head?, a.ending.Allows t) :
    IsCut (ts ++ us) (segs ++ segs') where
  nonempty := fun hnil => h.nonempty (List.append_eq_nil_iff.mp hnil).1
  covers := by rw [List.flatMap_append, h.covers, h'.covers]
  apart := by
    refine List.isChain_append.mpr ⟨h.apart, h'.apart, fun a ha b hb t ht => ?_⟩
    rw [head?_tokens h' hb] at ht
    exact hseam a ha t ht

end Grammar

/-- Tokens behind one another are those of one program, unless an expression goes on over the seam. -/
theorem parse_append {ts us : List Token} {p q : Program} (hp : parse ts = .ok p)
    (hq : parse us = .ok q)
    (hseam : (∀ s ∈ p.body.getLast?, s.endsInExpression = false) ∨
      ∀ t ∈ us.head?, t.terminal ≠ .sign .minus ∧ t.terminal ≠ .sign .bang) :
    parse (ts ++ us) = .ok ⟨p.body ++ q.body⟩ := by
  obtain ⟨segs, hcut, hbody⟩ := Grammar.exists_isCut_of_parse hp
  obtain ⟨segs', hcut', hbody'⟩ := Grammar.exists_isCut_of_parse hq
  -- A segment of the first program that is no expression is over, whatever comes; an expression is
  -- over before any token but the two signs that could continue it.
  have hallows : ∀ a ∈ segs.getLast?, ∀ t ∈ us.head?, a.ending.Allows t := by
    intro a ha t ht
    rcases hseam with hclosed | hfirst
    · refine a.derives.allows (hclosed a.stmt ?_) t
      rw [← hbody, List.getLast?_map]
      exact Option.mem_map_of_mem _ ha
    · exact Grammar.SegmentEnd.allows_of_ne (hfirst t ht).1 (hfirst t ht).2
  rw [(hcut.append hcut' hallows).parse, List.map_append, hbody, hbody']

/-! ### Source texts -/

theorem tokenize_break {first second : String} {ts us : List Token} (h : tokenize first = .ok ts)
    (h' : tokenize second = .ok us) :
    tokenize (first ++ "\n" ++ second) =
      .ok (ts ++ us.map (Token.mapLine (· + (1 + first.toList.count '\n')))) := by
  have hbreak : Lexical.IsBetween '\n' := .inr (.inr (.inr rfl))
  have hsecond : second ≠ "" := (Lexical.tokenize_eq_ok_iff_factors.mp h').1
  have hjoin := Lexical.tokenize_join h hsecond hbreak
  have hsource : String.ofList (first.toList ++ '\n' :: second.toList) = first ++ "\n" ++ second := by
    apply String.toList_injective
    simp
  have hdown : (((first.toList ++ ['\n']).count '\n' : Nat) : Int) = 1 + first.toList.count '\n' := by
    simp [Int.add_comm]
  simp only [hsource, hdown, h'] at hjoin
  exact hjoin

/-- A token that is not the one symbol for a sign is not read as that sign. -/
theorem not_sign_of_source {source : String} {ts : List Token} (h : tokenize source = .ok ts)
    {t : Token} (ht : t ∈ ts) {s : String} {g : Sign} (hs : ∀ s', (s', g) ∈ signs → s' = s)
    (hne : t.lexeme ≠ .symbol s) : t.terminal ≠ .sign g := by
  intro hg
  obtain ⟨s', hs', hsymbol | ⟨kind, hother⟩⟩ := Grammar.symbol_of_sign hg
  · exact hne (hs s' hs' ▸ hsymbol)
  · obtain ⟨⟨text, after, hspells⟩, -⟩ := (Lexical.factors_of_tokenize h).mem t ht
    rw [hother] at hspells
    cases hspells

/-- Two programs, with a line break between their texts, are one program, which does what the first
one does and then, if that has not failed, what the second one does. The lines of the second are
counted on from the first. -/
theorem programs_compose {first second : String} {p q : Program} (hp : parseProgram first = .ok p)
    (hq : parseProgram second = .ok q)
    (hseam : (∀ s ∈ p.body.getLast?, s.endsInExpression = false) ∨
      ∀ t ts, tokenize second = .ok (t :: ts) → t.lexeme ≠ .symbol "-" ∧ t.lexeme ≠ .symbol "!") :
    let moved := q.mapLines (· + (1 + first.toList.count '\n'))
    parseProgram (first ++ "\n" ++ second) = .ok ⟨p.body ++ moved.body⟩ ∧
      ∀ detail (m : Machine), m.runBlock detail (p.body ++ moved.body) =
        (m.runBlock detail p.body).andThen (Machine.runBlock detail moved.body) := by
  intro moved
  refine ⟨?_, fun detail m => Machine.runBlock_append p.body moved.body⟩
  obtain ⟨ts, hts, hp⟩ := parseProgram_eq_ok.mp hp
  obtain ⟨us, hus, hq⟩ := parseProgram_eq_ok.mp hq
  have hmoved : parse (us.map (Token.mapLine (· + (1 + first.toList.count '\n')))) = .ok moved := by
    rw [parse_mapLine, hq]
    rfl
  refine parseProgram_eq_ok.mpr
    ⟨_, tokenize_break hts hus, parse_append hp hmoved (hseam.imp_right fun hfirst => ?_)⟩
  -- Moving the tokens has not changed what they are, so the first one is still no such sign.
  intro t' ht'
  rw [List.head?_map] at ht'
  obtain ⟨t, ht, rfl⟩ := Option.map_eq_some_iff.mp ht'
  obtain ⟨us, rfl⟩ := List.head?_eq_some_iff.mp ht
  obtain ⟨hminus, hbang⟩ := hfirst t us hus
  exact ⟨not_sign_of_source hus List.mem_cons_self (by simp [signs]) hminus,
    not_sign_of_source hus List.mem_cons_self (by simp [signs]) hbang⟩

/-- A line break in a text counts too: what follows is on the third line and on the fourth. -/
theorem programs_compose_text :
    let p : Program := ⟨[.push (.text "a\nb" 1) 1]⟩
    let q : Program := ⟨[.pop 1, .bare (.not (.var "x" 2) 2)]⟩
    let moved : Program := ⟨[.pop 3, .bare (.not (.var "x" 4) 4)]⟩
    parseProgram "push 'a\nb'" = .ok p ∧ parseProgram "pop\n!x" = .ok q ∧
      parseProgram ("push 'a\nb'" ++ "\n" ++ "pop\n!x") = .ok ⟨p.body ++ moved.body⟩ := by
  intro p q moved
  have hp : parseProgram "push 'a\nb'" = .ok p := by decide +kernel
  have hus : tokenize "pop\n!x" =
      .ok [⟨.word "pop", 1⟩, ⟨.symbol "!", 2⟩, ⟨.word "x", 2⟩] := by decide +kernel
  have hq : parseProgram "pop\n!x" = .ok q := parseProgram_eq_ok.mpr ⟨_, hus, rfl⟩
  refine ⟨hp, hq, (programs_compose hp hq (.inr fun t ts h => ?_)).1⟩
  obtain ⟨rfl, -⟩ := List.cons.inj (Except.ok.inj (hus.symm.trans h))
  exact ⟨by simp, by simp⟩

end StackLang
