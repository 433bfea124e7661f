import Mathlib.Data.Set.Basic
import Mathlib.Order.Bounds.Defs
import StackLang.Proofs.Program.Soundness
import StackLang.Proofs.Program.Viability

/-! # What a refused token list is told

The error is at the first token that no program has there, and which message it carries depends on
what could have come instead: it is chosen by the tokens alone. A list without such a token is a
program that has not ended. -/

namespace StackLang.Parser

open StackLang.Grammar

/-- The places of tokens with which no program goes on. -/
def impossible (ts : List Token) : Set Nat := {k | k < ts.length ∧ ¬ Viable (ts.take (k + 1))}

inductive Reason where
  | unknownKeyword
  | expectedName
  | expectedEqual
  | unexpectedSymbol
  | unexpectedToken
deriving DecidableEq

/-- The reason where nothing else is known of what could have come. -/
def Reason.ofLexeme : Lexeme → Reason
  | .symbol _ => .unexpectedSymbol
  | _ => .unexpectedToken

open Classical in
/-- Why `t` is refused behind the tokens `before`. -/
noncomputable def reason (before : List Token) (t : Token) : Reason :=
  if IsName t ∧ (before = [] ∨ Accepted before) then .unknownKeyword
  else if ∀ u, Viable (before ++ [u]) → IsName u then .expectedName
  else if ∀ u, Viable (before ++ [u]) → u.terminal = .sign .equal then .expectedEqual
  else .ofLexeme t.lexeme

namespace Reason

/-- The words that a message begins with. -/
def opening : Reason → String
  | unknownKeyword => "unrecognized keyword "
  | expectedName => "expected a Word (variable name)"
  | expectedEqual => "expected '='"
  | unexpectedSymbol => "not an arithmetic or boolean expression: unexpected symbol "
  | unexpectedToken => "unexpected "

def after (before : List Token) : String :=
  match before.getLast? with
  | none => ""
  | some p => " after " ++ p.lexeme.quoted

def detail (before : List Token) (t : Token) : Reason → String
  | unknownKeyword | unexpectedSymbol => t.lexeme.quoted
  | expectedName | expectedEqual => after before ++ ", got " ++ t.lexeme.described
  | unexpectedToken => t.lexeme.described

theorem take_opening (r : Reason) (s : String) :
    (r.opening ++ s).toList.take 10 = r.opening.toList.take 10 := by
  rw [String.toList_append, List.take_append_of_le_length]
  cases r <;> decide

/-- No two reasons give messages that begin alike. -/
theorem eq_of_opening {r r' : Reason} {s s' : String} (h : r.opening ++ s = r'.opening ++ s') :
    r = r' := by
  have ht := congrArg (fun m => m.toList.take 10) h
  simp only [take_opening] at ht
  revert ht
  cases r <;> cases r' <;> decide

end Reason

open Classical in
/-- The reason that goes with the place of the parser. -/
noncomputable def Focus.reason (t : Token) : Focus → Reason
  | .boundary | .complete _ _ => if IsName t then .unknownKeyword else .ofLexeme t.lexeme
  | .name _ _ => .expectedName
  | .equal _ _ _ => .expectedEqual
  | .operand _ _ | .operandOrEqual _ _ _ _ => .ofLexeme t.lexeme

/-! ### The refusing step -/

/-- What the parser says of a token that it cannot read. -/
inductive Refused : State → Token → SyntaxError → Prop where
  | keyword {s done ending t w} : Settled s done ending → t.terminal = .name w →
      Refused s t (.unknownKeyword w t.line)
  | settled {s done ending t} : Settled s done ending → ¬ IsName t → Refused s t (.unexpected t)
  | name {done action line t} : Refused ⟨done, .name action line⟩ t (.expectedName action t)
  | equal {done c left op t} : Refused ⟨done, .equal c left op⟩ t (.expectedEqual op t)
  | operand {done c signs t} : Refused ⟨done, .operand c signs⟩ t (.unexpected t)
  | operandOrEqual {done c left op op' t} :
      Refused ⟨done, .operandOrEqual c left op op'⟩ t (.unexpected t)

theorem feedOperand_error {done : List Stmt} {c : Chain} {signs : List Unary} {t : Token}
    {e : SyntaxError} (h : State.feedOperand done c signs t = .error e) : e = .unexpected t := by
  unfold State.feedOperand at h
  split at h
  · cases h
  · cases h
  · cases h; rfl

theorem feedName_error {done : List Stmt} {action : LocalAction} {line : Int} {t : Token}
    {e : SyntaxError} (h : State.feedName done action line t = .error e) :
    e = .expectedName action t := by
  unfold State.feedName at h
  split at h
  · cases h
  · cases h
  · cases h
  · cases h; rfl

theorem begin_error {s : State} {done : List Stmt} {ending : SegmentEnd} {t : Token}
    {e : SyntaxError} (hs : Settled s done ending) {done' : List Stmt}
    (h : State.begin done' t = .error e) : Refused s t e := by
  unfold State.begin at h
  split at h
  · cases h; exact .keyword hs ‹_›
  iterate 7 cases h
  cases feedOperand_error h
  refine .settled hs ?_
  intro hn
  obtain ⟨w, hw⟩ := hn
  exact absurd hw (‹∀ s, t.lexeme.terminal = .name s → False› w)

theorem refused_of_feed {s : State} {t : Token} {e : SyntaxError} (h : s.feed t = .error e) :
    Refused s t e := by
  obtain ⟨done, focus⟩ := s
  cases focus with
  | boundary => exact begin_error .boundary h
  | name action line =>
    cases feedName_error h
    exact .name
  | operand c signs =>
    cases feedOperand_error h
    exact .operand
  | operandOrEqual c left op op' =>
    simp only [State.feed] at h
    split at h
    · cases h
    · cases feedOperand_error h
      exact .operandOrEqual
  | equal c left op =>
    simp only [State.feed] at h
    split at h
    · cases h
    · cases h
      exact .equal
  | complete c last =>
    simp only [State.feed] at h
    split at h
    · cases h
    · exact begin_error .complete h

/-! ### The message -/

theorem message_unexpected (before : List Token) (t : Token) :
    (SyntaxError.unexpected t).message =
      (Reason.ofLexeme t.lexeme).opening ++ (Reason.ofLexeme t.lexeme).detail before t := by
  obtain ⟨l, line⟩ := t
  cases l <;> rfl

theorem append_after {a b : String} (h : a ++ " after " = b) (q d : String) :
    b ++ q ++ ", got " ++ d = a ++ (" after " ++ q ++ ", got " ++ d) := by
  rw [← h]
  simp only [String.append_assoc]

theorem word_of_onLocal {w : String} {action : LocalAction}
    (h : (w, Keyword.onLocal action) ∈ keywords) : w = action.word := by
  cases action <;> simpa [keywords, LocalAction.word] using h

theorem after_snoc (ts : List Token) (t : Token) :
    Reason.after (ts ++ [t]) = " after " ++ t.lexeme.quoted := by
  simp [Reason.after]

section Message

variable {before : List Token} {s : State} (h : Reads State.initial before s)
include h

/-- A name is missing behind the word that wants it. -/
theorem after_of_name {action line} (hf : s.focus = .name action line) :
    (∃ t ∈ before.getLast?, t.terminal = .keyword (.onLocal action)) ∧
      Reason.after before = " after " ++ Text.quoted action.word := by
  obtain ⟨done, focus⟩ := s
  cases hf
  cases progress_of_reads h with
  | inside _ hp _ _ =>
    cases hp with
    | @name t action ht =>
      obtain ⟨w, hl, hm⟩ := lexeme_of_keyword ht
      refine ⟨⟨t, by simp, ht⟩, ?_⟩
      rw [after_snoc, hl, ← word_of_onLocal hm]
      rfl

/-- A `=` is missing behind the first half of its operator. -/
theorem after_of_equal {c left op} (hf : s.focus = .equal c left op) :
    Reason.after before = " after " ++ Text.quoted (SyntaxError.firstHalf op) := by
  obtain ⟨done, focus⟩ := s
  cases hf
  cases progress_of_reads h with
  | inside _ hp _ _ =>
    cases hp with
    | equal _ _ ht | bang _ _ ht =>
      obtain ⟨w, hm, hq⟩ := quoted_of_sign ht
      rw [← List.append_assoc, after_snoc, hq]
      simp only [signs, List.mem_cons, Prod.mk.injEq, reduceCtorEq, and_false, false_or, and_true,
        or_false, List.not_mem_nil] at hm
      rw [hm]
      rfl

open Classical in
/-- The reason shows where the parser stands. -/
theorem reason_eq (t : Token) : reason before t = s.focus.reason t := by
  simp only [reason, accepted_iff_settled h, exists_settled_iff, only_name_iff h, only_equal_iff h]
  cases s.focus with
  | boundary | complete c last => simp [Focus.reason]
  | name action line => simp [Focus.reason]
  | equal c left op => simp [Focus.reason]
  | operand c signs | operandOrEqual c left op op' => simp [Focus.reason]

theorem message_of_refused {t : Token} {e : SyntaxError} (hr : Refused s t e) :
    e.line? = some t.line ∧
      e.message = (reason before t).opening ++ (reason before t).detail before t := by
  rw [reason_eq h]
  cases hr with
  | keyword hs ht =>
    have hreason : s.focus.reason t = .unknownKeyword := by
      cases hs <;> exact if_pos ⟨_, ht⟩
    rw [hreason, Reason.detail, (lexeme_of_name ht).1]
    exact ⟨rfl, rfl⟩
  | settled hs hn =>
    have hreason : s.focus.reason t = .ofLexeme t.lexeme := by
      cases hs <;> exact if_neg hn
    rw [hreason]
    exact ⟨rfl, message_unexpected before t⟩
  | name =>
    refine ⟨rfl, ?_⟩
    rw [Focus.reason, Reason.detail, (after_of_name h rfl).2]
    exact append_after (a := "expected a Word (variable name)") rfl _ _
  | equal =>
    refine ⟨rfl, ?_⟩
    rw [Focus.reason, Reason.detail, after_of_equal h rfl]
    exact append_after (a := "expected '='") rfl _ _
  | operand | operandOrEqual => exact ⟨rfl, message_unexpected before t⟩

end Message

theorem focus_of_local {s s' : State} {t : Token} {action : LocalAction}
    (ht : t.terminal = .keyword (.onLocal action)) (h : s.feed t = .ok s') :
    s'.focus = .name action t.line := by
  have hl : t.lexeme.terminal = .keyword (.onLocal action) := ht
  obtain ⟨done, focus⟩ := s
  cases focus with
  | boundary =>
    simp only [State.feed, State.begin, hl] at h
    cases h
    rfl
  | complete c last =>
    simp only [State.feed, State.goOn?, State.begin, hl] at h
    cases h
    rfl
  | name a line => simp [State.feed, State.feedName, hl] at h
  | operand c signs =>
    simp [State.feed, State.feedOperand, State.atom?, State.unary?, hl] at h
  | operandOrEqual c left op op' =>
    simp [State.feed, State.isEqual, State.feedOperand, State.atom?, State.unary?, hl] at h
  | equal c left op => simp [State.feed, State.isEqual, hl] at h

/-- Only a name can come next exactly behind a word that stores, loads or removes a variable. -/
theorem only_name_iff_getLast {before : List Token} {s : State}
    (h : Reads State.initial before s) :
    (∀ u, Viable (before ++ [u]) → IsName u) ↔
      ∃ p ∈ before.getLast?, ∃ action, p.terminal = .keyword (.onLocal action) := by
  rw [only_name_iff h]
  constructor
  · intro hf
    obtain ⟨action, line, hf⟩ := hf
    obtain ⟨⟨p, hp, ht⟩, -⟩ := after_of_name h hf
    exact ⟨p, hp, action, ht⟩
  · intro hp
    obtain ⟨p, hp, action, ht⟩ := hp
    obtain ⟨init, rfl⟩ := List.getLast?_eq_some_iff.mp hp
    obtain ⟨m, hm, hr⟩ := reads_append.mp h
    exact ⟨action, p.line, focus_of_local ht (reads_singleton.mp hr)⟩

/-- The line, the text and the choice of an error at `t`, behind the tokens `before`. -/
structure Explains (before : List Token) (t : Token) (e : SyntaxError) : Prop where
  line : e.line? = some t.line
  text : e.message = (reason before t).opening ++ (reason before t).detail before t
  exactly : ∀ r : Reason, (∃ rest, e.message = r.opening ++ rest) ↔ r = reason before t
  names : (∀ u, Viable (before ++ [u]) → IsName u) ↔
    ∃ p ∈ before.getLast?, ∃ action, p.terminal = .keyword (.onLocal action)

theorem explains_of_feed {before : List Token} {s : State} {t : Token} {e : SyntaxError}
    (h : Reads State.initial before s) (hf : s.feed t = .error e) : Explains before t e := by
  obtain ⟨hl, hm⟩ := message_of_refused h (refused_of_feed hf)
  refine ⟨hl, hm, fun r => ⟨?_, ?_⟩, only_name_iff_getLast h⟩
  · intro hr
    obtain ⟨rest, hr⟩ := hr
    exact Reason.eq_of_opening (hr.symm.trans hm)
  · rintro rfl
    exact ⟨_, hm⟩

theorem isLeast_impossible {before after : List Token} {t : Token} {s : State} {e : SyntaxError}
    (h : Reads State.initial before s) (hf : s.feed t = .error e) :
    IsLeast (impossible (before ++ t :: after)) before.length := by
  constructor
  · refine ⟨by simp, ?_⟩
    have htake : (before ++ t :: after).take (before.length + 1) = before ++ [t] := by
      simp [List.take_append, List.take_of_length_le]
    rw [htake, viable_snoc_iff h]
    intro hs
    obtain ⟨s', hs⟩ := hs
    rw [hf] at hs
    cases hs
  · intro k hk
    obtain ⟨-, hk⟩ := hk
    by_contra hlt
    refine hk ?_
    rw [List.take_append_of_le_length (by omega)]
    have hv : Viable (before.take (k + 1) ++ before.drop (k + 1)) := by
      rw [List.take_append_drop]
      exact viable_iff.mpr ⟨s, h⟩
    exact hv.of_append

theorem impossible_eq_empty {ts : List Token} {s : State} (h : Reads State.initial ts s) :
    impossible ts = ∅ := by
  refine Set.eq_empty_iff_forall_notMem.mpr ?_
  intro k hk
  obtain ⟨-, hk⟩ := hk
  have hv : Viable (ts.take (k + 1) ++ ts.drop (k + 1)) := by
    rw [List.take_append_drop]
    exact viable_iff.mpr ⟨s, h⟩
  exact hk hv.of_append

/-- A refused token list has its error at the first token that no program has there, or, where
there is none, at its end. -/
theorem parse_error_at_first_impossible {ts : List Token} {e : SyntaxError} (hne : ts ≠ [])
    (h : parse ts = .error e) :
    (∃ k t, IsLeast (impossible ts) k ∧ ts[k]? = some t ∧ Explains (ts.take k) t e) ∨
      (impossible ts = ∅ ∧ ∃ last ∈ ts.getLast?, e.line? = some last.line ∧
        e.message = "unexpected end of input after " ++ last.lexeme.described) := by
  rcases parse_error_cases hne h with ⟨before, t, after, s, rfl, hr, hf⟩ | ⟨s, last, hr, hl, rfl⟩
  · left
    refine ⟨before.length, t, isLeast_impossible hr hf, by simp, ?_⟩
    rw [List.take_left]
    exact explains_of_feed hr hf
  · exact .inr ⟨impossible_eq_empty hr, last, hl, rfl, rfl⟩

/-- A product does not go on with `+`, and no statement begins with it. -/
theorem parse_error_plus_after_product :
    let ts : List Token := [⟨.word "push", 1⟩, ⟨.boolean true, 1⟩, ⟨.symbol "*", 1⟩,
      ⟨.word "x", 1⟩, ⟨.symbol "+", 2⟩]
    let e : SyntaxError := .unexpected ⟨.symbol "+", 2⟩
    parse ts = .error e ∧
      ((∃ k t, IsLeast (impossible ts) k ∧ ts[k]? = some t ∧ Explains (ts.take k) t e) ∨
        (impossible ts = ∅ ∧ ∃ last ∈ ts.getLast?, e.line? = some last.line ∧
          e.message = "unexpected end of input after " ++ last.lexeme.described)) :=
  ⟨rfl, parse_error_at_first_impossible (by simp) rfl⟩

end StackLang.Parser
