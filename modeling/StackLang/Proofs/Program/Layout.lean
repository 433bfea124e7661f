import StackLang.Proofs.Machine.Blocks
import StackLang.Proofs.Program.Lines
import StackLang.Proofs.Program.Sources
import StackLang.Proofs.Token.Layout

/-! # Programs in other layouts

Lines pass from tokens to nodes and from nodes to faults, and nothing else is made of them. So where
two texts differ in nothing but their layout, both are rejected or both are programs, for the same
reason or with the same effect, and only the line in a report may be another one. -/

namespace StackLang

def Diagnostic.unlined (d : Diagnostic) : Diagnostic := { d with line := none }

def Failure.unlined : Failure → Failure
  | fault f _ => fault f none
  | f => f

theorem Failure.unlined_atLine (f : Failure) (line : Option Int) :
    (f.atLine line).unlined = f.unlined := by
  rcases f with ⟨g, - | old⟩ | - | e | u <;> rfl

namespace Outcome

variable {σ τ : Type}

/-- The same end, without the line of the fault. -/
def unlined : Outcome σ → Outcome σ
  | ok s => ok s
  | failed f s => failed f.unlined s

theorem unlined_map (f : σ → τ) (o : Outcome σ) : (o.map f).unlined = o.unlined.map f := by
  cases o <;> rfl

theorem unlined_andThen (o : Outcome σ) (next : σ → Outcome σ) :
    (o.andThen next).unlined = o.unlined.andThen fun s => (next s).unlined := by
  cases o <;> rfl

end Outcome

/-! ### Runs -/

section

variable (f : Int → Int)

theorem Expr.push_mapLines (locals : Locals) (e : Expr) (stack : List Value) :
    (e.mapLines f).push locals stack = e.push locals stack := by
  induction e generalizing stack with
  | number | text | boolean | var => rfl
  | arith op left right line ihl ihr | logic op left right line ihl ihr =>
    simp only [mapLines, push, ihr, funext ihl]
  | not e line ih => simp only [mapLines, push, ih]

theorem Stmt.exec_mapLines (detail : Nat) (s : Stmt) (m : Machine) :
    (s.mapLines f).exec detail m = s.exec detail m := by
  cases s with
  | push e line | bare e => simp only [mapLines, exec, Machine.eval, Expr.push_mapLines]
  | print | pop | dup | read | convert | store | load | remove => rfl

end

namespace Machine

/-- All that a line does is to stand in the fault. -/
theorem runItem_unlined {s : Stmt} (hline : s.line.natAbs < Integer.textLimit) (m : Machine) :
    (m.runItem 0 s).unlined = (s.exec 0 m).unlined := by
  rw [runItem_zero hline]
  cases s.exec 0 m with
  | ok m => rfl
  | failed f m => exact congrArg (Outcome.failed · m) (f.unlined_atLine _)

theorem runBlock_unlined (f : Int → Int) {body : List Stmt}
    (hlines : ∀ s ∈ body, s.line.natAbs < Integer.textLimit ∧ (f s.line).natAbs < Integer.textLimit)
    (m : Machine) :
    (m.runBlock 0 (body.map (Stmt.mapLines f))).unlined = (m.runBlock 0 body).unlined := by
  induction body generalizing m with
  | nil => rfl
  | cons s rest ih =>
    obtain ⟨⟨hline, hmoved⟩, hrest⟩ := List.forall_mem_cons.mp hlines
    rw [← Stmt.line_mapLines f] at hmoved
    have hitem : (m.runItem 0 (s.mapLines f)).unlined = (m.runItem 0 s).unlined := by
      rw [runItem_unlined hline, runItem_unlined hmoved, Stmt.exec_mapLines]
    rw [List.map_cons, runBlock, runBlock, Outcome.unlined_andThen, Outcome.unlined_andThen, hitem]
    exact congrArg _ (funext fun m' => ih hrest m')

end Machine

namespace Program

/-- From every state the two programs stand alike after every number of statements, so that they
fail at the same one, and end alike. Only the line of the fault may be another one. -/
def RunsLike (p q : Program) : Prop :=
  ∀ start : Machine,
    (∀ k, (start.runBlock 0 (p.body.take k)).unlined = (start.runBlock 0 (q.body.take k)).unlined) ∧
      (p.run 0 start).unlined = (q.run 0 start).unlined

theorem run_unlined {p q : Program} {start : Machine}
    (h : (start.runBlock 0 p.body).unlined = (start.runBlock 0 q.body).unlined) :
    (p.run 0 start).unlined = (q.run 0 start).unlined := by
  rw [run_zero, run_zero, Outcome.unlined_map, Outcome.unlined_map, Outcome.unlined_andThen,
    Outcome.unlined_andThen, h]

/-- The program with every node on line zero. -/
def unlined (p : Program) : Program := p.mapLines fun _ => 0

theorem runBlock_take_unlined {p : Program}
    (hlines : ∀ s ∈ p.body, s.line.natAbs < Integer.textLimit) (start : Machine) (k : Nat) :
    (start.runBlock 0 (p.unlined.body.take k)).unlined =
      (start.runBlock 0 (p.body.take k)).unlined := by
  have hpos : 0 < Integer.textLimit :=
    Integer.lt_textLimit (by decide : _ < Nat.pow 10 0) (Nat.zero_le _)
  rw [unlined, mapLines, ← List.map_take]
  exact Machine.runBlock_unlined (fun _ => 0)
    (fun s hs => ⟨hlines s (List.mem_of_mem_take hs), hpos⟩) start

theorem runsLike_of_unlined {p q : Program}
    (hp : ∀ s ∈ p.body, s.line.natAbs < Integer.textLimit)
    (hq : ∀ s ∈ q.body, s.line.natAbs < Integer.textLimit) (h : p.unlined = q.unlined) :
    p.RunsLike q := by
  intro start
  have htake : ∀ k, (start.runBlock 0 (p.body.take k)).unlined =
      (start.runBlock 0 (q.body.take k)).unlined := by
    intro k
    rw [← runBlock_take_unlined hp, ← runBlock_take_unlined hq, h]
  -- The whole body is a beginning of itself, and the two bodies are of one length.
  refine ⟨htake, run_unlined ?_⟩
  have hlength : p.body.length = q.body.length := by
    have := congrArg (fun r : Program => r.body.length) h
    simpa [unlined, mapLines] using this
  have hall := htake p.body.length
  rwa [List.take_length, hlength, List.take_length] at hall

end Program

/-! ### Readings -/

def SourceError.unlined (e : SourceError) : Diagnostic := e.diagnostic.unlined

/-- Two answers of a reader that differ in nothing but lines: either both reject, for one reason, or
both accept, and the programs are the same ones up to the lines of their nodes and run alike. -/
inductive Alike : Except SourceError Program → Except SourceError Program → Prop where
  | rejected {d e} : d.unlined = e.unlined → Alike (.error d) (.error e)
  | accepted {p q} : p.unlined = q.unlined → p.RunsLike q → Alike (.ok p) (.ok q)

theorem SourceError.unlined_lexical {d e : LexError}
    (h : d.mapLine (fun _ => 0) = e.mapLine fun _ => 0) : (lexical d).unlined = (lexical e).unlined := by
  cases d <;> cases e <;> first | rfl | cases h

theorem SourceError.unlined_grammar {d e : SyntaxError}
    (h : d.mapLine (fun _ => 0) = e.mapLine fun _ => 0) : (grammar d).unlined = (grammar e).unlined := by
  have hmessage : d.message = e.message := by
    rw [← SyntaxError.message_mapLine, h, SyntaxError.message_mapLine]
  simp only [unlined, Diagnostic.unlined, diagnostic, SyntaxError.diagnostic, hmessage]

/-- Two answers that become one are of one kind. -/
theorem both_of_moved {ε δ α β : Type} {f : ε → δ} {g : α → β} {r s : Except ε α}
    (h : (r.map g).mapError f = (s.map g).mapError f) :
    (∃ d e, r = .error d ∧ s = .error e ∧ f d = f e) ∨ ∃ a b, r = .ok a ∧ s = .ok b ∧ g a = g b := by
  cases r with
  | error d =>
    cases s with
    | error e => exact .inl ⟨d, e, rfl, rfl, Except.error.inj h⟩
    | ok b => cases h
  | ok a =>
    cases s with
    | error e => cases h
    | ok b => exact .inr ⟨a, b, rfl, rfl, Except.ok.inj h⟩

/-- What is asked of lines that can be written out. -/
def Demand.short : Demand := ⟨fun _ => True, fun _ => True, fun n => n.natAbs < Integer.textLimit⟩

theorem short_of_parse {ts : List Token} {p : Program} (h : parse ts = .ok p)
    (hlines : ∀ t ∈ ts, t.line.natAbs < Integer.textLimit) :
    ∀ s ∈ p.body, s.line.natAbs < Integer.textLimit := by
  have hmeets : p.document.Meets .short :=
    meets_of_parse h fun t ht => ⟨hlines t ht, fun _ _ => trivial, fun _ _ => trivial⟩
  intro s hs
  exact (Program.meets_of_document hmeets s hs).line

/-- Lists of the same lexemes are read alike. -/
theorem alike_of_tokens {ts us : List Token}
    (h : ts.map (Token.mapLine fun _ => 0) = us.map (Token.mapLine fun _ => 0))
    (hts : ∀ t ∈ ts, t.line.natAbs < Integer.textLimit)
    (hus : ∀ t ∈ us, t.line.natAbs < Integer.textLimit) :
    Alike ((parse ts).mapError .grammar) ((parse us).mapError .grammar) := by
  have hparse := congrArg parse h
  rw [parse_mapLine, parse_mapLine] at hparse
  rcases both_of_moved hparse with ⟨d, e, hd, he, hmoved⟩ | ⟨p, q, hp, hq, hmoved⟩
  · rw [hd, he]
    exact .rejected (SourceError.unlined_grammar hmoved)
  · rw [hp, hq]
    exact .accepted hmoved
      (Program.runsLike_of_unlined (short_of_parse hp hts) (short_of_parse hq hus) hmoved)

/-- Texts of the same lexemes are read alike. -/
theorem alike_of_relaid {source source' : String} (hne : source ≠ "") (hne' : source' ≠ "")
    (hlines : Lexical.lineAfter source.toList < Integer.textLimit)
    (hlines' : Lexical.lineAfter source'.toList < Integer.textLimit)
    (h : Lexical.Relaid source.toList source'.toList) :
    Alike (parseProgram source) (parseProgram source') := by
  have htokens := Lexical.tokens_relaid h [] []
  rw [Lexical.lineAfter_nil, ← Lexical.tokenize_eq_tokens hne, ← Lexical.tokenize_eq_tokens hne'] at htokens
  have hshort : ∀ {s : String} {ts : List Token}, Lexical.lineAfter s.toList < Integer.textLimit →
      tokenize s = .ok ts → ∀ t ∈ ts, t.line.natAbs < Integer.textLimit := by
    intro s ts hs hts t ht
    obtain ⟨-, hpos, hle⟩ := tokens_of_source hts t ht
    generalize Integer.textLimit = limit at *
    omega
  rcases both_of_moved htokens with ⟨d, e, hd, he, hmoved⟩ | ⟨ts, us, hts, hus, hmoved⟩
  · rw [parseProgram, parseProgram, hd, he]
    exact .rejected (SourceError.unlined_lexical hmoved)
  · rw [parseProgram, parseProgram, hts, hus]
    exact alike_of_tokens hmoved (hshort hlines hts) (hshort hlines' hus)

/-- The lines of tokens, and so the blanks and the line breaks between the lexemes of a text, change
nothing but the lines in reports. -/
theorem layout_is_irrelevant :
    (∀ ts us : List Token, ts.map (·.lexeme) = us.map (·.lexeme) →
      (∀ t ∈ ts, t.line.natAbs < Integer.textLimit) →
      (∀ t ∈ us, t.line.natAbs < Integer.textLimit) →
        Alike ((parse ts).mapError .grammar) ((parse us).mapError .grammar)) ∧
    ∀ source source' : String, source ≠ "" → source' ≠ "" →
      Lexical.lineAfter source.toList < Integer.textLimit →
      Lexical.lineAfter source'.toList < Integer.textLimit →
      Lexical.Relaid source.toList source'.toList →
        Alike (parseProgram source) (parseProgram source') := by
  refine ⟨fun ts us hlexemes hts hus => alike_of_tokens ?_ hts hus, fun _ _ => alike_of_relaid⟩
  have hmoved := congrArg (List.map fun l => Token.mk l 0) hlexemes
  rwa [List.map_map, List.map_map] at hmoved

/-- A blank becomes a line break, as some systems write it. -/
theorem layout_is_irrelevant_break :
    let p : Program := ⟨[.pop 1, .pop 1]⟩
    let q : Program := ⟨[.pop 1, .pop 2]⟩
    Alike ((parse [⟨.word "pop", 1⟩]).mapError .grammar)
        ((parse [⟨.word "pop", 7⟩]).mapError .grammar) ∧
      parseProgram "pop pop" = .ok p ∧ parseProgram "pop\r\npop" = .ok q ∧ p.RunsLike q := by
  intro p q
  have hshort : ∀ n : Int, 0 ≤ n → n < 10 → n < Integer.textLimit ∧ n.natAbs < Integer.textLimit := by
    intro n hpos hlt
    have hlimit : 9 < Integer.textLimit :=
      Integer.lt_textLimit (by decide : _ < Nat.pow 10 1) (by decide)
    generalize Integer.textLimit = limit at hlimit ⊢
    omega
  have hp : parseProgram "pop pop" = .ok p := by decide +kernel
  have hq : parseProgram "pop\r\npop" = .ok q := by decide +kernel
  let pop := ['p', 'o', 'p']
  have hpop : ∀ rest : List Char, (∀ c ∈ rest.head?, Lexical.IsBetween c) →
      Lexical.Spells pop (.word "pop") rest := by
    intro rest hrest
    exact .word (by decide) (Lexical.wordChars_of_all ['o', 'p'] (by decide))
      (fun c hc => (hrest c hc).not_wordChar) (by decide) (by decide)
  have hblank : Lexical.Gap [' '] := by simp [Lexical.Gap, Lexical.IsBetween]
  have hbreak : Lexical.Gap ['\r', '\n'] := by simp [Lexical.Gap, Lexical.IsBetween]
  have hlast : Lexical.Relaid ([' '] ++ pop ++ []) (['\r', '\n'] ++ pop ++ []) :=
    .lexeme hblank hbreak (hpop [] (by simp)) (hpop [] (by simp)) (.done Lexical.gap_nil Lexical.gap_nil)
  have hrelaid : Lexical.Relaid ([] ++ pop ++ ([' '] ++ pop ++ []))
      ([] ++ pop ++ (['\r', '\n'] ++ pop ++ [])) :=
    .lexeme Lexical.gap_nil Lexical.gap_nil (hpop _ (by simp [Lexical.IsBetween]))
      (hpop _ (by simp [Lexical.IsBetween])) hlast
  refine ⟨layout_is_irrelevant.1 _ _ rfl ?_ ?_, hp, hq, ?_⟩
  · exact List.forall_mem_singleton.mpr (hshort 1 (by decide) (by decide)).2
  · exact List.forall_mem_singleton.mpr (hshort 7 (by decide) (by decide)).2
  · have h := layout_is_irrelevant.2 "pop pop" "pop\r\npop" (by decide) (by decide)
      (hshort 1 (by decide) (by decide)).1 (hshort 2 (by decide) (by decide)).1 hrelaid
    rw [hp, hq] at h
    cases h with
    | accepted _ hruns => exact hruns

end StackLang
