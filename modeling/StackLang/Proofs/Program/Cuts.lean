import StackLang.Proofs.Program.Completeness
import StackLang.Proofs.Program.Soundness

/-! # Programs are cuts

A token list is a program exactly when it can be cut into statements, and then in one way only. Two
cuts cannot part, because a run counts the statements that it has begun: the count never falls, and
it rises where a segment of either cut begins and nowhere else. -/

namespace StackLang.Grammar

open StackLang.Parser

/-- How many statements have begun. -/
def begun (s : State) : Nat :=
  match s.focus with
  | .boundary => s.done.length
  | _ => s.done.length + 1

theorem begun_of_partial {done part focus} (h : Partial part focus) :
    begun ⟨done, focus⟩ = done.length + 1 := by
  cases h <;> rfl

theorem begun_of_settled {s done ending} (h : Settled s done ending) : begun s = done.length := by
  cases h <;> rfl

theorem begun_of_begin {done t s'} (h : State.begin done t = .ok s') :
    begun s' = done.length + 1 := by
  rcases begin_ok h with ⟨-, ⟨b, rfl, -⟩ | ⟨focus, rfl, hp⟩⟩
  · rfl
  · exact begun_of_partial hp

theorem Progress.begun_le_feed {ts s t s'} (h : Progress ts s) (hf : s.feed t = .ok s') :
    begun s ≤ begun s' := by
  cases h with
  | @boundary ts segs done hw =>
    rw [begun_of_begin hf]
    exact Nat.le_succ _
  | @inside ts segs done ending part focus hw hp hh hne =>
    rw [begun_of_partial hp]
    rcases feed_partial hp hf with ⟨focus', rfl, hp'⟩ | ⟨b, rfl, -⟩ | ⟨c, last, rfl, -, hb⟩
    · rw [begun_of_partial hp']
    · exact Nat.le_refl _
    · rw [begun_of_begin hb]
      exact Nat.le_succ _

theorem Progress.begun_le {ts us s s'} (h : Progress ts s) (hr : Reads s us s') :
    begun s ≤ begun s' := by
  induction us generalizing ts s with
  | nil =>
    cases reads_nil.mp hr
    exact Nat.le_refl _
  | cons t us ih =>
    obtain ⟨m, hm, hr⟩ := reads_cons.mp hr
    exact Nat.le_trans (h.begun_le_feed hm) (ih (h.feed hm) hr)

/-! ### Cuts do not part -/

section Unique

variable {ts : List Token} {s : State} {done : List Stmt} {before : SegmentEnd} {a a' : Segment}
  (hs : Settled s done before) (ha : ∀ t ∈ a.tokens.head?, before.Allows t)
  (ha' : ∀ t ∈ a'.tokens.head?, before.Allows t)
include hs ha ha'

/-- A segment does not reach over a place where the next one may begin. -/
theorem Segment.eq_nil_of_append (hp : Progress ts s) {rest more : List Token}
    (ht : a'.tokens = a.tokens ++ rest)
    (hn : ∀ t ∈ (rest ++ more).head?, a.ending.Allows t ∧ opensStmt t.terminal = true) : rest = [] := by
  cases rest with
  | nil => rfl
  | cons t rest =>
    obtain ⟨m, hm, hset⟩ := a.derives.reads hs ha
    obtain ⟨r, hr, hset'⟩ := a'.derives.reads hs ha'
    rw [ht] at hr
    obtain ⟨k, hk, hr⟩ := reads_append.mp hr
    cases hm.det hk
    obtain ⟨k, hk, hr⟩ := reads_cons.mp hr
    have hprog := hp.reads hm
    have hle := (hprog.feed hk).begun_le hr
    rw [hset.feed (hn t rfl).1 (hn t rfl).2] at hk
    rw [begun_of_begin hk, begun_of_settled hset'] at hle
    exact absurd hle (Nat.not_succ_le_self _)

theorem Segment.eq_of_tokens (ht : a'.tokens = a.tokens) : a' = a := by
  obtain ⟨m, hm, hset⟩ := a.derives.reads hs ha
  obtain ⟨r, hr, hset'⟩ := a'.derives.reads hs ha'
  rw [ht] at hr
  cases hm.det hr
  obtain ⟨hstmt, hend⟩ := hset'.det hset
  exact Segment.ext ht (List.cons.inj hstmt).1 hend

end Unique

theorem Segment.tokens_ne_nil (a : Segment) : a.tokens ≠ [] := by
  obtain ⟨t, rest, ht, -⟩ := a.derives.opens
  rw [ht]
  exact List.cons_ne_nil _ _

/-- What stands behind the first segment of a row begins a statement that may follow it. -/
theorem head?_flatMap_tokens {a : Segment} {rest : List Segment}
    (hc : (a :: rest).IsChain Segment.MayPrecede) :
    ∀ t ∈ (rest.flatMap Segment.tokens).head?,
      a.ending.Allows t ∧ opensStmt t.terminal = true := by
  cases rest with
  | nil => simp
  | cons b rest =>
    obtain ⟨t, us, hb, ho⟩ := b.derives.opens
    intro u hu
    rw [List.flatMap_cons, hb, List.cons_append, List.head?_cons, Option.mem_some_iff] at hu
    subst hu
    exact ⟨(List.isChain_cons.mp hc).1 b rfl t (by rw [hb]; rfl), ho⟩

theorem head?_of_append {ts us vs : List Token} (h : us = ts ++ vs) (hne : ts ≠ []) :
    us.head? = ts.head? := by
  subst h
  cases ts with
  | nil => exact absurd rfl hne
  | cons _ _ => rfl

theorem segments_unique {segs segs' : List Segment} (hc : segs.IsChain Segment.MayPrecede)
    (hc' : segs'.IsChain Segment.MayPrecede) {ts : List Token} {s : State} {done : List Stmt}
    {before : SegmentEnd} (hp : Progress ts s) (hs : Settled s done before)
    (ha : ∀ t ∈ (segs.flatMap Segment.tokens).head?, before.Allows t)
    (he : segs.flatMap Segment.tokens = segs'.flatMap Segment.tokens) : segs = segs' := by
  induction segs generalizing segs' ts s done before with
  | nil =>
    cases segs' with
    | nil => rfl
    | cons a' rest' =>
      rw [List.flatMap_nil, List.flatMap_cons, eq_comm, List.append_eq_nil_iff] at he
      exact absurd he.1 a'.tokens_ne_nil
  | cons a rest ih =>
    cases segs' with
    | nil =>
      rw [List.flatMap_nil, List.flatMap_cons, List.append_eq_nil_iff] at he
      exact absurd he.1 a.tokens_ne_nil
    | cons a' rest' =>
      have ha' := ha
      rw [he] at ha'
      simp only [List.flatMap_cons] at he ha ha'
      rw [head?_of_append rfl a.tokens_ne_nil] at ha
      rw [head?_of_append rfl a'.tokens_ne_nil] at ha'
      have hn := head?_flatMap_tokens hc
      have hn' := head?_flatMap_tokens hc'
      -- One of the first segments is a prefix of the other, and what is left over is empty.
      have htok : a'.tokens = a.tokens := by
        rcases List.append_eq_append_iff.mp he with ⟨l, hl, hr⟩ | ⟨l, hl, hr⟩
        · rw [hr] at hn
          rw [hl, Segment.eq_nil_of_append hs ha ha' hp hl hn, List.append_nil]
        · rw [hr] at hn'
          rw [hl, Segment.eq_nil_of_append hs ha' ha hp hl hn', List.append_nil]
      have heq := Segment.eq_of_tokens hs ha ha' htok
      subst heq
      obtain ⟨m, hm, hset⟩ := a'.derives.reads hs ha
      rw [ih (List.isChain_cons.mp hc).2 (List.isChain_cons.mp hc').2 (hp.reads hm) hset
        (fun t ht => (hn t ht).1) (List.append_cancel_left he)]

theorem IsCut.unique {ts : List Token} {segs segs' : List Segment} (h : IsCut ts segs)
    (h' : IsCut ts segs') : segs = segs' :=
  segments_unique h.apart h'.apart (progress_of_reads (reads_nil.mpr rfl)) .boundary
    (fun _ _ => trivial) (h.covers.trans h'.covers.symm)

theorem exists_isCut_of_parse {ts : List Token} {p : Program} (h : parse ts = .ok p) :
    ∃ segs, IsCut ts segs ∧ segs.map Segment.stmt = p.body := by
  obtain ⟨hne, s, hr, hf⟩ := parse_eq_ok.mp h
  obtain ⟨done, ending, hs, rfl⟩ := settled_of_finish? hf
  obtain ⟨segs, hc, hd⟩ := exists_isCut hne hr hs
  exact ⟨segs, hc, by rw [← hd, List.reverse_reverse]⟩

theorem IsCut.parse {ts : List Token} {segs : List Segment} (h : IsCut ts segs) :
    parse ts = .ok ⟨segs.map Segment.stmt⟩ := by
  obtain ⟨s, ending, hr, hs⟩ := h.reads
  refine parse_eq_ok.mpr ⟨?_, s, hr, by rw [hs.finish?, List.reverse_reverse]⟩
  rintro rfl
  cases segs with
  | nil => exact h.nonempty rfl
  | cons a rest => exact a.tokens_ne_nil (List.append_eq_nil_iff.mp h.covers).1

/-- The parser accepts what the grammar derives, with the statements that the grammar gives it, and
a token list has at most one cut. What the grammar takes a token for is up to its word or sign. -/
theorem parse_eq_ok_iff_isCut (ts : List Token) (p : Program) :
    (StackLang.parse ts = .ok p ↔ ∃ segs, IsCut ts segs ∧ segs.map Segment.stmt = p.body) ∧
      (∀ segs segs', IsCut ts segs → IsCut ts segs' → segs = segs') ∧
      ∀ (t : Token) (x : Terminal), t.terminal = x ↔ CountsAs t.lexeme x := by
  refine ⟨⟨exists_isCut_of_parse, ?_⟩, fun segs segs' h h' => h.unique h', fun t x => terminal_eq_iff⟩
  intro h
  obtain ⟨segs, hc, hb⟩ := h
  rw [hc.parse, hb]

end StackLang.Grammar
