import StackLang.Document.Run
import StackLang.Proofs.Document.Loading
import StackLang.Proofs.Json.ReadBack
import StackLang.Proofs.Program.Sources

/-! # Programs as documents

A program that was read from source text is written as JSON that is read back as itself, loaded as
itself, and runs as a document exactly as it runs as a program, with the same trace. -/

namespace StackLang

/-- Names and texts are strings, and no line is too long to be read. -/
def Demand.writable : Demand where
  name t := ∃ s, t = Text.ofString s
  text t := ∃ s, t = Text.ofString s
  line n := n.natAbs < Integer.textLimit

/-! ### Writing -/

section

open Json (Writable)

theorem writable_node {typeName : String} {fields : List (Text × Json)} {line : Int}
    (hline : line.natAbs < Integer.textLimit)
    (hdistinct : ((Document.entries typeName fields line).map Prod.fst).Nodup)
    (hname : ∀ f ∈ fields, ∃ s, f.1 = Text.ofString s) (h : ∀ f ∈ fields, Writable f.2) :
    (node typeName fields line).Writable := by
  refine .object hdistinct ?_ ?_
  · simp only [List.cons_append, List.forall_mem_cons, List.forall_mem_append]
    exact ⟨⟨"type", rfl⟩, hname, ⟨"line", rfl⟩, by simp⟩
  · simp only [List.cons_append, List.forall_mem_cons, List.forall_mem_append]
    exact ⟨.text typeName, h, .integer hline, by simp⟩

theorem Expr.writable_toJson {e : Expr} (h : e.Meets .writable) : e.toJson.Writable := by
  induction e with
  | number x line =>
    exact writable_node h (by simp [Document.entries]) (by simp) (by simp [Writable.float])
  | text t line =>
    obtain ⟨⟨s, rfl⟩, hline⟩ := h
    exact writable_node hline (by simp [Document.entries]) (by simp) (by simp [Writable.text])
  | boolean b line =>
    exact writable_node h (by simp [Document.entries]) (by simp) (by simp [Writable.boolean])
  | var name line =>
    obtain ⟨⟨s, rfl⟩, hline⟩ := h
    exact writable_node hline (by simp [Document.entries]) (by simp) (by simp [Writable.text])
  | arith op left right line hl hr =>
    exact writable_node h.2.2 (by simp [Document.entries]) (by simp)
      (by simp [Writable.text, hl h.1, hr h.2.1])
  | logic op left right line hl hr =>
    exact writable_node h.2.2 (by simp [Document.entries]) (by simp)
      (by simp [Writable.text, hl h.1, hr h.2.1])
  | not e line he =>
    exact writable_node h.2 (by simp [Document.entries]) (by simp)
      (by simp [Writable.text, Writable.null, he h.1])

theorem Stmt.writable_toJson {s : Stmt} (h : s.Meets .writable) : s.toJson.Writable := by
  cases s with
  | bare e => exact Expr.writable_toJson h
  | push e line =>
    exact writable_node h.2 (by simp [Document.entries]) (by simp)
      (by simp [Expr.writable_toJson h.1])
  | convert target line =>
    exact writable_node h (by simp [Document.entries]) (by simp) (by simp [Writable.text])
  | store name line | load name line | remove name line =>
    obtain ⟨⟨s, rfl⟩, hline⟩ := h
    exact writable_node hline (by simp [Document.entries]) (by simp) (by simp [Writable.text])
  | print line | pop line | dup line | read line =>
    exact writable_node h (by simp [Document.entries]) (by simp) (by simp)

theorem Document.mem_toJsonItems {body : List Document} {j : Json}
    (h : j ∈ Document.toJsonItems body) : ∃ d ∈ body, d.toJson = j := by
  induction body with
  | nil => cases h
  | cons d body ih =>
    rcases List.mem_cons.mp h with rfl | h
    · exact ⟨d, List.mem_cons_self, rfl⟩
    · obtain ⟨x, hx, hj⟩ := ih h
      exact ⟨x, List.mem_cons_of_mem _ hx, hj⟩

theorem Document.writable_toJson {d : Document} (h : d.Meets .writable) : d.toJson.Writable := by
  induction h with
  | nothing => exact .null
  | program _ ih =>
    refine .object (by simp) (by simp) ?_
    simp only [List.forall_mem_cons]
    refine ⟨.text "Program", .array fun j hj => ?_, by simp⟩
    obtain ⟨d, hd, rfl⟩ := Document.mem_toJsonItems hj
    exact ih d hd
  | statement hs => exact Stmt.writable_toJson hs

/-- A program of a source text is read and loaded from its own JSON. The text has no more lines than
an integer can count that is written out. -/
theorem load_emitted {source : String} {p : Program} (h : parseProgram source = .ok p)
    (hlines : Lexical.lineAfter source.toList < Integer.textLimit) :
    p.document.toJson.Writable ∧ Document.ofJson p.document.toJson = .ok p.document := by
  constructor
  · refine Document.writable_toJson (meets_of_parseProgram h (fun s _ => ⟨s, rfl⟩)
      (fun s => ⟨s, rfl⟩) fun n hpos hle => ?_)
    change n.natAbs < Integer.textLimit
    generalize Integer.textLimit = limit at *
    omega
  · exact Document.ofJson_toJson (meets_of_parseProgram h (fun _ => isEmpty_ofString)
      (fun _ => trivial) fun _ _ _ => trivial)

end

/-! ### Running -/

section

variable (detail : Nat)

theorem runBlock_statements (body : List Stmt) (m : Machine) :
    m.runBlock detail (body.map Document.statement) = m.runBlock detail body := by
  induction body generalizing m with
  | nil => rfl
  | cons s body ih =>
    have hnext : Machine.runBlock detail (body.map Document.statement) =
        Machine.runBlock detail body := funext ih
    rw [List.map_cons, Machine.runBlock, Machine.runBlock, hnext]
    rfl

theorem Program.run_document (p : Program) (m : Machine) :
    p.document.run detail m = p.run detail m := by
  have hblock : Machine.runBlock detail (p.body.map Document.statement) =
      Machine.runBlock detail p.body := funext (runBlock_statements detail p.body)
  simp only [Document.run, Program.run, Program.document, Machine.runBody, hblock,
    List.length_map]
  rfl

end

end StackLang
