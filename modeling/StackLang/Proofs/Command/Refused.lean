import StackLang.Proofs.Command.Emission
import StackLang.Proofs.Document.Overflow

/-! # Tree files that are refused

A tree file that holds JSON and cannot be loaded is refused with a message, and no file is touched.
Only a number that is too large is not foreseen: where loading comes to one, the program crashes. -/

namespace StackLang

open Session

/-- There is a file of this name, and its text is JSON. -/
def FileTree.HoldsJson (t : FileTree) (name : String) (j : Json) : Prop :=
  ∃ bytes cs, t.under? (Path.ofString name) = some (.file bytes) ∧
    Text.Utf8.decode bytes = .ok cs ∧ Json.read (String.ofList (Text.normalBreaks cs)) = .ok j

section

variable {t : FileTree} {name : String} {j : Json} {e : LoadError} {arguments : List String}
  {detail : Nat}

theorem readTree_of_holdsJson (h : t.HoldsJson name j) :
    readTree t.under? (Path.ofString name) = (Document.ofJson j).mapError loadRefusal := by
  obtain ⟨bytes, cs, hfile, htext, hread⟩ := h
  simp [readTree, readText, hfile, htext, hread, Except.mapError, Except.map, bind, Except.bind]

theorem holdsJson_of_written (hj : j.Writable)
    (h : t.under? (Path.ofString name) = some (.file (Text.Utf8.encode j.write.toList))) :
    t.HoldsJson name j := by
  have hreturn : '\r' ∉ j.write.toList := by
    rw [Json.write, String.toList_ofList]
    exact Json.return_not_mem_writeChars hj 0
  refine ⟨_, j.write.toList, h, Text.Utf8.decode_encode _, ?_⟩
  rw [normalBreaks_of_not_mem hreturn, String.ofList_toList]
  exact Json.read_write hj

theorem run_refused {files : Files} {refusal : Refusal} (hask : AsksToRunTree arguments name detail)
    (hne : name ≠ "") (htree : readTree files (Path.ofString name) = .error refusal)
    (stdin : String) : Session.run files arguments stdin = refusal.report "" := by
  obtain ⟨r, hread, hemit, hname, rfl⟩ := hask
  rw [run_eq_answer hread, runRequest, hemit, hname, named_of_ne hne]
  simp [named, runTree, htree, answer, bind, Except.bind]

theorem session_refused (hfile : t.HoldsJson name j) (hask : AsksToRunTree arguments name detail)
    (hload : Document.ofJson j = .error e) (stdin : String) :
    (t.session arguments stdin).1 = (loadRefusal e).report "" := by
  have htree : readTree t.under? (Path.ofString name) = .error (loadRefusal e) := by
    rw [readTree_of_holdsJson hfile, hload]
    rfl
  obtain ⟨bytes, cs, hunder, -, -⟩ := hfile
  exact run_refused hask (ne_empty_of_file hunder) htree stdin

/-- What is refused writes nothing. -/
theorem session_eq_of_report {refusal : Refusal} {stdin : String}
    (h : (t.session arguments stdin).1 = refusal.report "") :
    t.session arguments stdin = (refusal.report "", t) := by
  have hwrites : (t.session arguments stdin).2 =
      (t.session arguments stdin).1.writes.foldl FileTree.write t := rfl
  refine Prod.ext h ?_
  rw [hwrites, h]
  cases refusal <;> rfl

end

/-- Loading fails as it is foreseen, but for numbers that are too large: those that it comes to
before it has anything to complain of. Where a tree file is refused, such a number is a crash, and
whatever else is wrong is told. -/
theorem only_huge_numbers_are_unforeseen (j : Json) :
    (Document.MeetsHuge j ↔ ∃ e, Document.ofJson j = .error e ∧ e.family = .overflow) ∧
    (¬ Document.MeetsHuge j → (∃ d, Document.ofJson j = .ok d) ∨
      ∃ e, Document.ofJson j = .error e ∧ (e.family = .value ∨ e.family = .type)) ∧
    ∀ (t : FileTree) name arguments detail stdin e, t.HoldsJson name j →
      AsksToRunTree arguments name detail → Document.ofJson j = .error e →
      (Document.MeetsHuge j →
        t.session arguments stdin = (⟨"", "", .crash (.overflow e), []⟩, t)) ∧
      (¬ Document.MeetsHuge j →
        t.session arguments stdin =
          (⟨"", ("Runtime error: " ++ e.message).withEscapes ++ "\n", .exit 1, []⟩, t)) := by
  have hiff : Document.MeetsHuge j ↔ ∃ e, Document.ofJson j = .error e ∧ e.family = .overflow :=
    Document.overflows_iff_meetsHuge.symm
  refine ⟨hiff, fun hfree => ?_, fun t name arguments detail stdin e hfile hask hload => ?_⟩
  · cases hload : Document.ofJson j with
    | ok d => exact .inl ⟨d, rfl⟩
    | error e =>
      refine .inr ⟨e, rfl, ?_⟩
      cases hfamily : e.family with
      | value => exact .inl rfl
      | type => exact .inr rfl
      | overflow => exact absurd (hiff.mpr ⟨e, hload, hfamily⟩) hfree
  · have hsession := session_eq_of_report (session_refused hfile hask hload stdin)
    have hfamily : Document.MeetsHuge j ↔ e.family = .overflow := by
      simp [hiff, hload]
    constructor
    · intro hhuge
      rw [hsession, loadRefusal, if_pos (hfamily.mp hhuge)]
      rfl
    · intro hfree
      rw [hsession, loadRefusal, if_neg (mt hfamily.mpr hfree)]
      rfl

theorem only_huge_numbers_are_unforeseen_target :
    let j : Json := .object [("type", .text "Program"),
      ("body", .array [.object [("type", .text "ConvertStmt")]])]
    let t : FileTree := ⟨[(["f"], Text.Utf8.encode j.write.toList)]⟩
    let error : LoadError := .missing "ConvertStmt" "target"
    t.HoldsJson "f" j ∧ Document.ofJson j = .error error ∧ ¬ Document.MeetsHuge j ∧
      t.session ["--ast", "f"] "" =
        (⟨"", "Runtime error: ConvertStmt node is missing 'target'\n", .exit 1, []⟩, t) := by
  intro j t error
  have hstatement : (Json.object [("type", .text "ConvertStmt")]).Writable :=
    .object (by simp) (by simp) (by simp [Json.Writable.text])
  have hbody : (Json.array [.object [("type", .text "ConvertStmt")]]).Writable :=
    .array (by simp [hstatement])
  have hj : j.Writable := .object (by simp) (by simp) (by simp [Json.Writable.text, hbody])
  have hfile : t.HoldsJson "f" j := holdsJson_of_written hj rfl
  have hload : Document.ofJson j = .error error := rfl
  have hask : AsksToRunTree ["--ast", "f"] "f" 0 := asksToRunTree ⟨by decide, rfl⟩ 0
  obtain ⟨hiff, -, hsession⟩ := only_huge_numbers_are_unforeseen j
  have hfree : ¬ Document.MeetsHuge j := by
    rw [hiff, hload]
    simp [error, LoadError.family]
  have hreport := (hsession t "f" _ 0 "" error hfile hask hload).2 hfree
  exact ⟨hfile, hload, hfree, hreport⟩

/-- A line of 1e999 is read as an infinite one. There is no message: the program crashes. So it does
where the value of a literal is 2^1024. -/
theorem huge_line_and_value_crash :
    let line : Json := .object [("type", .text "PrintStmt"), ("line", .float (.infinite false))]
    let value : Json := .object [("type", .text "NumberLiteral"), ("value", .integer (16 ^ 256))]
    let t : FileTree := ⟨[(["f"], Text.Utf8.encode line.write.toList)]⟩
    t.HoldsJson "f" line ∧
      t.session ["--ast", "f"] "" = (⟨"", "", .crash (.overflow .lineInfinite), []⟩, t) ∧
      ∃ e, Document.ofJson value = .error e ∧ e.family = .overflow := by
  intro line value t
  have hline : t.HoldsJson "f" line :=
    holdsJson_of_written
      (.object (by simp) (by simp) (by simp [Json.Writable.text, Json.Writable.float])) rfl
  have hask : AsksToRunTree ["--ast", "f"] "f" 0 := asksToRunTree ⟨by decide, rfl⟩ 0
  have hload : Document.ofJson line = .error .lineInfinite := rfl
  refine ⟨hline, session_eq_of_report (session_refused hline hask hload ""), ?_⟩
  have hbound : overflowBound ≤ (16 ^ 256 : Int).natAbs := by decide +kernel
  have hbegins : Document.Begins [("type", .text "NumberLiteral"), ("value", .integer (16 ^ 256))]
      "NumberLiteral" := ⟨rfl, by simp [List.lookup_cons]⟩
  exact Document.overflows_of_hasHuge (.value hbegins rfl hbound)

end StackLang
