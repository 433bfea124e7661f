import StackLang.Proofs.Program.Reading

/-! # Viable prefixes

The parser reads a token exactly when some program goes on with it: every state can be completed,
so nothing that has been read is a dead end, and nothing that cannot be read is in a program. What
can come next therefore shows where the parser is. -/

namespace StackLang.Parser

open StackLang.Grammar

def Accepted (ts : List Token) : Prop := ∃ p, parse ts = .ok p

/-- Some program begins with these tokens. -/
def Viable (ts : List Token) : Prop := ∃ rest, Accepted (ts ++ rest)

/-! ### Completion -/

/-- A token that can come next. -/
def Focus.next : Focus → Token
  | .boundary | .complete _ _ => ⟨.word "print", 1⟩
  | .name _ _ => ⟨.word "x", 1⟩
  | .operand _ _ | .operandOrEqual _ _ _ _ => ⟨.boolean true, 1⟩
  | .equal _ _ _ => ⟨.symbol "=", 1⟩

theorem reads_print (s : State) (h : ∃ done ending, Settled s done ending) :
    ∃ b done, Reads s [⟨.word "print", 1⟩] ⟨b :: done, .boundary⟩ := by
  obtain ⟨done, ending, hs⟩ := h
  refine ⟨.print 1, done, reads_singleton.mpr ?_⟩
  cases hs <;> rfl

theorem reads_true (done : List Stmt) (c : Chain) (signs : List Unary) :
    ∃ x, Reads ⟨done, .operand c signs⟩ [⟨.boolean true, 1⟩] ⟨done, .complete c x⟩ :=
  ⟨_, reads_singleton.mpr rfl⟩

/-- From every state a program can be finished, with the token that can come next first. -/
theorem exists_completion (s : State) :
    ∃ rest s' p, Reads s (s.focus.next :: rest) s' ∧ s'.finish? = some p := by
  obtain ⟨done, focus⟩ := s
  cases focus with
  | boundary =>
    obtain ⟨b, done', h⟩ := reads_print ⟨done, .boundary⟩ ⟨_, _, .boundary⟩
    exact ⟨[], _, _, h, rfl⟩
  | complete c last =>
    obtain ⟨b, done', h⟩ := reads_print ⟨done, .complete c last⟩ ⟨_, _, .complete⟩
    exact ⟨[], _, _, h, rfl⟩
  | name action line => cases action <;> exact ⟨[], _, _, reads_singleton.mpr rfl, rfl⟩
  | operand c signs =>
    obtain ⟨x, h⟩ := reads_true done c signs
    exact ⟨[], _, _, h, rfl⟩
  | operandOrEqual c left strict orEqual =>
    obtain ⟨x, h⟩ := reads_true done (c.extend left (.logic strict)) []
    exact ⟨[], _, _, h, rfl⟩
  | equal c left op =>
    obtain ⟨x, h⟩ := reads_true done (c.extend left (.logic op)) []
    exact ⟨[⟨.boolean true, 1⟩], _, _, .cons rfl h, rfl⟩

theorem viable_iff {ts : List Token} : Viable ts ↔ ∃ s, Reads State.initial ts s := by
  constructor
  · intro hv
    obtain ⟨rest, p, hp⟩ := hv
    obtain ⟨-, s, hr, -⟩ := parse_eq_ok.mp hp
    obtain ⟨m, hm, -⟩ := reads_append.mp hr
    exact ⟨m, hm⟩
  · intro hr
    obtain ⟨s, hs⟩ := hr
    obtain ⟨rest, s', p, hr, hf⟩ := exists_completion s
    exact ⟨_, p, parse_eq_ok.mpr ⟨by simp, s', hs.trans hr, hf⟩⟩

theorem Viable.of_append {ts us : List Token} (h : Viable (ts ++ us)) : Viable ts := by
  obtain ⟨rest, p, hp⟩ := h
  exact ⟨us ++ rest, p, by rwa [← List.append_assoc]⟩

/-! ### What can come next -/

section Next

variable {ts : List Token} {s : State} (h : Reads State.initial ts s)
include h

theorem viable_snoc_iff {t : Token} : Viable (ts ++ [t]) ↔ ∃ s', s.feed t = .ok s' := by
  rw [viable_iff]
  constructor
  · intro hv
    obtain ⟨s', hr⟩ := hv
    obtain ⟨m, hm, hf⟩ := reads_append.mp hr
    cases h.det hm
    exact ⟨s', reads_singleton.mp hf⟩
  · intro hv
    obtain ⟨s', hf⟩ := hv
    exact ⟨s', h.trans (reads_singleton.mpr hf)⟩

theorem viable_next : Viable (ts ++ [s.focus.next]) := by
  obtain ⟨rest, s', -, hr, -⟩ := exists_completion s
  obtain ⟨m, hm, -⟩ := reads_cons.mp hr
  exact (viable_snoc_iff h).mpr ⟨m, hm⟩

theorem accepted_iff_settled :
    (ts = [] ∨ Accepted ts) ↔ ∃ done ending, Settled s done ending := by
  constructor
  · intro ha
    rcases ha with rfl | ⟨p, hp⟩
    · cases reads_nil.mp h
      exact ⟨_, _, .boundary⟩
    · obtain ⟨-, s', hr, hf⟩ := parse_eq_ok.mp hp
      cases h.det hr
      obtain ⟨done, ending, hs, -⟩ := settled_of_finish? hf
      exact ⟨done, ending, hs⟩
  · intro hs
    obtain ⟨done, ending, hs⟩ := hs
    by_cases hne : ts = []
    · exact .inl hne
    · exact .inr ⟨_, parse_eq_ok.mpr ⟨hne, s, h, hs.finish?⟩⟩

theorem only_name_iff :
    (∀ u, Viable (ts ++ [u]) → IsName u) ↔ ∃ action line, s.focus = .name action line := by
  constructor
  · intro ho
    obtain ⟨w, hw⟩ := ho _ (viable_next h)
    cases hf : s.focus with
    | name action line => exact ⟨action, line, rfl⟩
    | _ => rw [hf] at hw; cases hw
  · intro hf u hu
    obtain ⟨action, line, hf⟩ := hf
    obtain ⟨s', hs'⟩ := (viable_snoc_iff h).mp hu
    simp only [State.feed, hf, State.feedName] at hs'
    split at hs'
    · exact ⟨_, ‹_›⟩
    · exact ⟨_, ‹_›⟩
    · exact ⟨_, ‹_›⟩
    · cases hs'

theorem only_equal_iff :
    (∀ u, Viable (ts ++ [u]) → u.terminal = .sign .equal) ↔
      ∃ c left op, s.focus = .equal c left op := by
  constructor
  · intro ho
    have hw := ho _ (viable_next h)
    cases hf : s.focus with
    | equal c left op => exact ⟨c, left, op, rfl⟩
    | _ => rw [hf] at hw; cases hw
  · intro hf u hu
    obtain ⟨c, left, op, hf⟩ := hf
    obtain ⟨s', hs'⟩ := (viable_snoc_iff h).mp hu
    simp only [State.feed, hf, State.isEqual, beq_iff_eq] at hs'
    split at hs'
    · assumption
    · cases hs'

end Next

/-! ### Where reading stops -/

theorem foldlM_feed_error {s : State} {ts : List Token} {e : SyntaxError}
    (h : ts.foldlM State.feed s = .error e) :
    ∃ before t after m, ts = before ++ t :: after ∧ Reads s before m ∧ m.feed t = .error e := by
  induction ts generalizing s with
  | nil => cases h
  | cons t ts ih =>
    simp only [List.foldlM_cons, bind, Except.bind] at h
    cases hf : s.feed t with
    | error e' =>
      rw [hf] at h
      cases h
      exact ⟨[], t, ts, s, rfl, reads_nil.mpr rfl, hf⟩
    | ok m =>
      rw [hf] at h
      obtain ⟨before, u, after, k, rfl, hr, hk⟩ := ih h
      exact ⟨t :: before, u, after, k, rfl, .cons hf hr, hk⟩

/-- A token list is refused at a token, or at its end. -/
theorem parse_error_cases {ts : List Token} {e : SyntaxError} (hne : ts ≠ [])
    (h : parse ts = .error e) :
    (∃ before t after s, ts = before ++ t :: after ∧ Reads State.initial before s ∧
      s.feed t = .error e) ∨
    ∃ s last, Reads State.initial ts s ∧ ts.getLast? = some last ∧ e = .unexpectedEnd last := by
  unfold parse at h
  cases hl : ts.getLast? with
  | none => exact absurd (List.getLast?_eq_none_iff.mp hl) hne
  | some last =>
    rw [hl] at h
    cases hf : ts.foldlM State.feed State.initial with
    | error e' =>
      simp only [hf] at h
      cases h
      exact .inl (foldlM_feed_error hf)
    | ok s =>
      simp only [hf] at h
      split at h
      · cases h
      · cases h
        exact .inr ⟨s, last, hf, rfl, rfl⟩

end StackLang.Parser
