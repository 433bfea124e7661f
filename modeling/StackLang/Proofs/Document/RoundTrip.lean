import StackLang.Proofs.Document.Loading
import StackLang.Proofs.Program.Sources
import StackLang.Unchecked.Write

/-! # Writing and loading nodes

Nodes as unchecked data, which of them are well formed, and that writing and loading undo each
other: a well-formed node is written and loaded as itself, and what is loaded from any JSON is a
well-formed node. Doubles are compared as data here, so that NaN is itself and the zeros differ. -/

namespace StackLang

open Unchecked (Part)

/-! ### Documents as data -/

def Expr.part : Expr → Part
  | number x line => .node .number [.float x, .integer line]
  | text s line => .node .text [.text s, .integer line]
  | boolean b line => .node .boolean [.boolean b, .integer line]
  | var name line => .node .var [.text name, .integer line]
  | arith op left right line =>
    .node .arith [left.part, .text op.name, right.part, .integer line]
  | logic op left right line =>
    .node .logic [left.part, .text op.name, right.part, .integer line]
  | not e line => .node .logic [e.part, .text "not", .null, .integer line]

def Stmt.part : Stmt → Part
  | push e line => .node .push [e.part, .integer line]
  | bare e => e.part
  | print line => .node .print [.integer line]
  | pop line => .node .pop [.integer line]
  | dup line => .node .dup [.integer line]
  | read line => .node .read [.integer line]
  | convert target line => .node .convert [.text target.name, .integer line]
  | store name line => .node .store [.text name, .integer line]
  | load name line => .node .load [.text name, .integer line]
  | remove name line => .node .remove [.text name, .integer line]

mutual

def Document.part : Document → Part
  | .nothing => .null
  | .program body => .node .program [.list (Document.partItems body)]
  | .statement s => s.part

def Document.partItems : List Document → List Part
  | [] => []
  | d :: rest => d.part :: partItems rest

end

theorem Expr.write_part (e : Expr) : e.part.write = .ok e.toJson := by
  induction e with
  | number | text | boolean | var => rfl
  | arith op left right line hl hr | logic op left right line hl hr =>
    rw [Expr.part, Part.write, hl, hr]
    rfl
  | not e line he =>
    rw [Expr.part, Part.write, he]
    rfl

theorem Stmt.write_part (s : Stmt) : s.part.write = .ok s.toJson := by
  cases s with
  | bare e => exact e.write_part
  | push e line =>
    rw [Stmt.part, Part.write, e.write_part]
    rfl
  | print | pop | dup | read | convert | store | load | remove => rfl

mutual

theorem Document.write_part : ∀ d : Document, d.part.write = .ok d.toJson
  | .nothing => rfl
  | .statement s => s.write_part
  | .program body => by
    rw [Document.part, Part.write, Document.writeItems_part body]
    rfl

theorem Document.writeItems_part : ∀ body : List Document,
    Part.writeItems (Document.partItems body) = .ok (Document.toJsonItems body)
  | [] => rfl
  | d :: body => by
    rw [Document.partItems, Part.writeItems, d.write_part, Document.writeItems_part body]
    rfl

end

/-! ### Well-formed nodes -/

namespace Unchecked

/-- An expression whose fields are what they are declared to be. Only a negation has no right
operand. -/
inductive IsExpr : Part → Prop where
  | number (x : Double) (line : Int) : IsExpr (.node .number [.float x, .integer line])
  | text (t : Text) (line : Int) : IsExpr (.node .text [.text t, .integer line])
  | boolean (b : Bool) (line : Int) : IsExpr (.node .boolean [.boolean b, .integer line])
  | var {name : Text} (line : Int) : name.isEmpty = false →
      IsExpr (.node .var [.text name, .integer line])
  | arith {left right : Part} (op : ArithOp) (line : Int) : IsExpr left → IsExpr right →
      IsExpr (.node .arith [left, .text op.name, right, .integer line])
  | logic {left right : Part} (op : LogicOp) (line : Int) : IsExpr left → IsExpr right →
      IsExpr (.node .logic [left, .text op.name, right, .integer line])
  | not {e : Part} (line : Int) : IsExpr e →
      IsExpr (.node .logic [e, .text "not", .null, .integer line])

/-- A node whose fields are what they are declared to be, or no node. -/
inductive IsNode : Part → Prop where
  | nothing : IsNode .null
  | program {items : List Part} : (∀ p ∈ items, IsNode p) → IsNode (.node .program [.list items])
  | expr {e : Part} : IsExpr e → IsNode e
  | push {e : Part} (line : Int) : IsExpr e → IsNode (.node .push [e, .integer line])
  | print (line : Int) : IsNode (.node .print [.integer line])
  | pop (line : Int) : IsNode (.node .pop [.integer line])
  | dup (line : Int) : IsNode (.node .dup [.integer line])
  | read (line : Int) : IsNode (.node .read [.integer line])
  | convert (target : Kind) (line : Int) :
      IsNode (.node .convert [.text target.name, .integer line])
  | store {name : Text} (line : Int) : name.isEmpty = false →
      IsNode (.node .store [.text name, .integer line])
  | load {name : Text} (line : Int) : name.isEmpty = false →
      IsNode (.node .load [.text name, .integer line])
  | remove {name : Text} (line : Int) : name.isEmpty = false →
      IsNode (.node .remove [.text name, .integer line])

theorem IsExpr.exists_expr {p : Part} (h : IsExpr p) : ∃ e : Expr, e.Meets .named ∧ e.part = p := by
  induction h with
  | number x line => exact ⟨.number x line, trivial, rfl⟩
  | text t line => exact ⟨.text t line, ⟨trivial, trivial⟩, rfl⟩
  | boolean b line => exact ⟨.boolean b line, trivial, rfl⟩
  | @var name line hname => exact ⟨.var name line, ⟨hname, trivial⟩, rfl⟩
  | arith op line _ _ hl hr =>
    obtain ⟨left, hleft, rfl⟩ := hl
    obtain ⟨right, hright, rfl⟩ := hr
    exact ⟨.arith op left right line, ⟨hleft, hright, trivial⟩, rfl⟩
  | logic op line _ _ hl hr =>
    obtain ⟨left, hleft, rfl⟩ := hl
    obtain ⟨right, hright, rfl⟩ := hr
    exact ⟨.logic op left right line, ⟨hleft, hright, trivial⟩, rfl⟩
  | not line _ he =>
    obtain ⟨e, he, rfl⟩ := he
    exact ⟨.not e line, ⟨he, trivial⟩, rfl⟩

theorem exists_documents {items : List Part}
    (h : ∀ p ∈ items, ∃ d : Document, d.Meets .named ∧ d.part = p) :
    ∃ body : List Document, (∀ d ∈ body, d.Meets .named) ∧ Document.partItems body = items := by
  induction items with
  | nil => exact ⟨[], by simp, rfl⟩
  | cons p items ih =>
    obtain ⟨hp, hitems⟩ := List.forall_mem_cons.mp h
    obtain ⟨d, hd, rfl⟩ := hp
    obtain ⟨body, hbody, rfl⟩ := ih hitems
    exact ⟨d :: body, List.forall_mem_cons.mpr ⟨hd, hbody⟩, rfl⟩

/-- A well-formed node is a document without empty names. -/
theorem IsNode.exists_document {p : Part} (h : IsNode p) :
    ∃ d : Document, d.Meets .named ∧ d.part = p := by
  induction h with
  | nothing => exact ⟨.nothing, .nothing, rfl⟩
  | program _ ih =>
    obtain ⟨body, hbody, rfl⟩ := exists_documents ih
    exact ⟨.program body, .program hbody, rfl⟩
  | expr he =>
    obtain ⟨e, hnamed, rfl⟩ := he.exists_expr
    exact ⟨.statement (.bare e), .statement hnamed, rfl⟩
  | push line he =>
    obtain ⟨e, hnamed, rfl⟩ := he.exists_expr
    exact ⟨.statement (.push e line), .statement ⟨hnamed, trivial⟩, rfl⟩
  | print line => exact ⟨.statement (.print line), .statement trivial, rfl⟩
  | pop line => exact ⟨.statement (.pop line), .statement trivial, rfl⟩
  | dup line => exact ⟨.statement (.dup line), .statement trivial, rfl⟩
  | read line => exact ⟨.statement (.read line), .statement trivial, rfl⟩
  | convert target line => exact ⟨.statement (.convert target line), .statement trivial, rfl⟩
  | @store name line hname =>
    exact ⟨.statement (.store name line), .statement ⟨hname, trivial⟩, rfl⟩
  | @load name line hname =>
    exact ⟨.statement (.load name line), .statement ⟨hname, trivial⟩, rfl⟩
  | @remove name line hname =>
    exact ⟨.statement (.remove name line), .statement ⟨hname, trivial⟩, rfl⟩

end Unchecked

open Unchecked

theorem Expr.isExpr_part {e : Expr} (h : e.Meets .named) : IsExpr e.part := by
  induction e with
  | number x line => exact .number x line
  | text s line => exact .text s line
  | boolean b line => exact .boolean b line
  | var name line => exact .var line h.1
  | arith op left right line hl hr => exact .arith op line (hl h.1) (hr h.2.1)
  | logic op left right line hl hr => exact .logic op line (hl h.1) (hr h.2.1)
  | not e line he => exact .not line (he h.1)

theorem Stmt.isNode_part {s : Stmt} (h : s.Meets .named) : IsNode s.part := by
  cases s with
  | push e line => exact .push line (Expr.isExpr_part h.1)
  | bare e => exact .expr (Expr.isExpr_part h)
  | print line => exact .print line
  | pop line => exact .pop line
  | dup line => exact .dup line
  | read line => exact .read line
  | convert target line => exact .convert target line
  | store name line => exact .store line h.1
  | load name line => exact .load line h.1
  | remove name line => exact .remove line h.1

theorem Document.mem_partItems {body : List Document} {p : Part}
    (h : p ∈ Document.partItems body) : ∃ d ∈ body, d.part = p := by
  induction body with
  | nil => cases h
  | cons d body ih =>
    rcases List.mem_cons.mp h with rfl | h
    · exact ⟨d, List.mem_cons_self, rfl⟩
    · obtain ⟨x, hx, hp⟩ := ih h
      exact ⟨x, List.mem_cons_of_mem _ hx, hp⟩

theorem Document.isNode_part {d : Document} (h : d.Meets .named) : IsNode d.part := by
  induction h with
  | nothing => exact .nothing
  | program _ ih =>
    refine .program fun p hp => ?_
    obtain ⟨d, hd, rfl⟩ := Document.mem_partItems hp
    exact ih d hd
  | statement hs => exact Stmt.isNode_part hs

/-! ### Both directions -/

/-- Tokens as source texts have them: no word is empty. -/
abbrev SourceToken := { t : Token // t.lexeme ≠ .word "" }

/-- Well-formed nodes, programs of tokens among them, are written and loaded as themselves. What is
loaded from any JSON is again written and loaded as itself. -/
theorem write_load_round_trip :
    (∀ p, IsNode p → ∃ j d, p.write = .ok j ∧ Document.ofJson j = .ok d ∧ d.part = p) ∧
    (∀ (ts : List SourceToken) program, parse (ts.map Subtype.val) = .ok program →
      IsNode program.document.part) ∧
    (∀ source program, parseProgram source = .ok program → IsNode program.document.part) ∧
    (∀ j d, Document.ofJson j = .ok d →
      ∃ j', d.part.write = .ok j' ∧ Document.ofJson j' = .ok d) := by
  refine ⟨fun p hp => ?_, fun ts program h => ?_, fun source program h => ?_, fun j d h => ?_⟩
  · obtain ⟨d, hd, rfl⟩ := hp.exists_document
    exact ⟨d.toJson, d, d.write_part, Document.ofJson_toJson hd, rfl⟩
  · refine Document.isNode_part (meets_of_parse h fun t ht => ⟨trivial, fun s hs => ?_, ?_⟩)
    · obtain ⟨u, -, rfl⟩ := List.mem_map.mp ht
      refine isEmpty_ofString ?_
      rintro rfl
      exact u.property (Grammar.lexeme_of_name hs).1
    · exact fun _ _ => trivial
  · exact Document.isNode_part (meets_of_parseProgram h (fun _ => isEmpty_ofString)
      (fun _ => trivial) fun _ _ _ => trivial)
  · exact ⟨d.toJson, d.write_part, Document.ofJson_toJson_of_ofJson h⟩

/-- NaN in a pushed number, and a negation that is loaded from a number for a truth value, from a
text for a line and from a right operand that is none. -/
theorem write_load_round_trip_negation :
    let p : Part := .node .push [.node .number [.float .nan, .integer 1], .integer 1]
    let operand := node "BooleanLiteral" [("value", .integer 5)] 2
    let j : Json := .object [("type", .text "BooleanExpr"), ("op", .text "not"),
      ("left", operand), ("right", .integer 0), ("line", .text "7")]
    let d : Document := .statement (.bare (.not (.boolean true 2) 7))
    (IsNode p ∧ ∃ j d, p.write = .ok j ∧ Document.ofJson j = .ok d ∧ d.part = p) ∧
      Document.ofJson j = .ok d ∧
      ∃ j', d.part.write = .ok j' ∧ Document.ofJson j' = .ok d := by
  intro p operand j d
  have hp : IsNode p := .push 1 (.number .nan 1)
  exact ⟨⟨hp, write_load_round_trip.1 p hp⟩, rfl, write_load_round_trip.2.2.2 j d rfl⟩

end StackLang
