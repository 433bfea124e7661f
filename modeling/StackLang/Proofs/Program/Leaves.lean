import StackLang.Document
import StackLang.Proofs.Program.Cuts

/-! # What trees take from tokens

The names, the texts and the lines in a program are those of its tokens, so what holds of every
token holds of them. -/

namespace StackLang

/-- What is asked of the names, the texts and the lines in a tree. -/
structure Demand where
  name : Text → Prop
  text : Text → Prop
  line : Int → Prop

section

variable (d : Demand)

def Expr.Meets : Expr → Prop
  | number _ line | boolean _ line => d.line line
  | text s line => d.text s ∧ d.line line
  | var name line => d.name name ∧ d.line line
  | arith _ left right line | logic _ left right line => left.Meets ∧ right.Meets ∧ d.line line
  | not e line => e.Meets ∧ d.line line

def Stmt.Meets : Stmt → Prop
  | push e line => e.Meets d ∧ d.line line
  | bare e => e.Meets d
  | print line | pop line | dup line | read line | convert _ line => d.line line
  | store name line | load name line | remove name line => d.name name ∧ d.line line

inductive Document.Meets : Document → Prop where
  | nothing : Document.Meets .nothing
  | program {body} : (∀ x ∈ body, Document.Meets x) → Document.Meets (.program body)
  | statement {s} : s.Meets d → Document.Meets (.statement s)

structure Token.Meets (t : Token) : Prop where
  line : d.line t.line
  name : ∀ s : String, t.terminal = .name s → d.name s
  text : ∀ s : String, t.terminal = .text s → d.text s

end

section

variable {d : Demand}

theorem Expr.Meets.line {e : Expr} (h : e.Meets d) : d.line e.line := by
  cases e with
  | number | boolean => exact h
  | text | var | not => exact h.2
  | arith | logic => exact h.2.2

theorem Stmt.Meets.line {s : Stmt} (h : s.Meets d) : d.line s.line := by
  cases s with
  | push | store | load | remove => exact h.2
  | bare e => exact Expr.Meets.line h
  | print | pop | dup | read | convert => exact h

theorem Program.meets_of_document {p : Program} (h : p.document.Meets d) :
    ∀ s ∈ p.body, s.Meets d := by
  intro s hs
  cases h with
  | program hbody =>
    cases hbody _ (List.mem_map_of_mem hs) with
    | statement hmeets => exact hmeets

theorem Program.meets_document {p : Program} (h : ∀ s ∈ p.body, s.Meets d) :
    p.document.Meets d := by
  refine .program fun x hx => ?_
  obtain ⟨s, hs, rfl⟩ := List.mem_map.mp hx
  exact .statement (h s hs)

namespace Grammar

theorem DerivesUnary.meets {ts : List Token} {e : Expr} (h : DerivesUnary ts e)
    (ht : ∀ t ∈ ts, t.Meets d) : e.Meets d := by
  induction h with
  | number _ | boolean _ => exact (ht _ List.mem_cons_self).line
  | text hs => exact ⟨(ht _ List.mem_cons_self).text _ hs, (ht _ List.mem_cons_self).line⟩
  | name hs => exact ⟨(ht _ List.mem_cons_self).name _ hs, (ht _ List.mem_cons_self).line⟩
  | minus _ _ ih =>
    have he := ih fun t hm => ht t (List.mem_cons_of_mem _ hm)
    exact ⟨he.line, he, he.line⟩
  | bang _ _ ih =>
    have he := ih fun t hm => ht t (List.mem_cons_of_mem _ hm)
    exact ⟨he, he.line⟩

theorem Derives.meets {lvl : Level} {ts : List Token} {e : Expr} {last : Option BinaryOp}
    (h : Derives lvl ts e last) (ht : ∀ t ∈ ts, t.Meets d) : e.Meets d := by
  induction h with
  | unary hu => exact hu.meets ht
  | term _ ih => exact ih ht
  | product _ hu _ _ ih | logic hu _ _ ih | sum _ hu _ _ ih =>
    simp only [List.forall_mem_append] at ht
    have hl := hu.meets ht.1.1
    exact ⟨hl, ih ht.2, hl.line⟩

theorem DerivesStmt.meets {ts : List Token} {s : Stmt} {ending : SegmentEnd}
    (h : DerivesStmt ts s ending) (ht : ∀ t ∈ ts, t.Meets d) : s.Meets d := by
  cases h with
  | print _ | pop _ | dup _ | read _ | convert _ => exact (ht _ List.mem_cons_self).line
  | store _ hs | load _ hs | remove _ hs =>
    exact ⟨(ht _ (List.mem_cons_of_mem _ List.mem_cons_self)).name _ hs,
      (ht _ List.mem_cons_self).line⟩
  | push _ he =>
    exact ⟨he.meets fun t hm => ht t (List.mem_cons_of_mem _ hm), (ht _ List.mem_cons_self).line⟩
  | bare he _ => exact he.meets ht

end Grammar

/-- A program meets what its tokens meet. -/
theorem meets_of_parse {ts : List Token} {p : Program} (h : parse ts = .ok p)
    (ht : ∀ t ∈ ts, t.Meets d) : p.document.Meets d := by
  obtain ⟨segs, hcut, hbody⟩ := Grammar.exists_isCut_of_parse h
  refine Program.meets_document fun s hs => ?_
  rw [← hbody] at hs
  obtain ⟨a, ha, rfl⟩ := List.mem_map.mp hs
  refine a.derives.meets fun t hm => ht t ?_
  rw [← hcut.covers]
  exact List.mem_flatMap_of_mem ha hm

end

end StackLang
