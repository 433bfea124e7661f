import StackLang.Command.Session
import StackLang.Proofs.Command.Trees
import StackLang.Proofs.Document.Running

/-! # Emitted tree files

A source file and the tree file that is emitted from it run alike: with the same texts shown, the
same ending and the same trace file. A source text that is no program is refused in the same words
when it is to be emitted, and no file is touched. -/

namespace StackLang

open Session

/-! ### What is asked for -/

/-- The arguments ask to emit the tree of a source file. -/
def AsksToEmit (arguments : List String) (name : String) : Prop :=
  ∃ r, Invocation.read arguments = .ok (.run r) ∧ r.emit = some name

/-- The arguments ask to run a tree file, at a level of detail. -/
def AsksToRunTree (arguments : List String) (name : String) (detail : Nat) : Prop :=
  ∃ r, Invocation.read arguments = .ok (.run r) ∧ r.emit = none ∧ r.tree = some name ∧
    r.detail = detail

/-- The arguments ask to run a source file, at a level of detail, and not to list its tokens. -/
def AsksToRun (arguments : List String) (name : String) (detail : Nat) : Prop :=
  ∃ r, Invocation.read arguments = .ok (.run r) ∧ r.emit = none ∧ r.tree = none ∧
    r.program = some name ∧ r.listTokens = false ∧ r.detail = detail

/-- The argument is taken as the name of a file. -/
def IsOperand (name : String) : Prop :=
  name ≠ "--" ∧ Argument.ofChars name.toList = .ok (.operand name)

theorem ofStrings_operand {name : String} (h : IsOperand name) :
    Argument.ofStrings [name] = .ok [.operand name] := by
  rw [Argument.ofStrings, if_neg h.1, h.2]
  rfl

theorem ofStrings_verbose (count : Nat) {arguments : List String} {as : List Argument}
    (h : Argument.ofStrings arguments = .ok as) :
    Argument.ofStrings (List.replicate count "-v" ++ arguments) =
      .ok (List.replicate count (.cluster .verbose none) ++ as) := by
  induction count with
  | zero => exact h
  | succ count ih =>
    have hv : Argument.ofChars "-v".toList = .ok (.cluster .verbose none) := rfl
    rw [List.replicate_succ, List.cons_append, Argument.ofStrings, if_neg (by decide), hv, ih]
    rfl

theorem take_verbose (r : Request) (count : Nat) (as : List Argument) :
    Invocation.take r [] false (List.replicate count (.cluster .verbose none) ++ as) =
      Invocation.take { r with detail := r.detail + count } [] false as := by
  induction count generalizing r with
  | zero => rfl
  | succ count ih =>
    rw [List.replicate_succ, List.cons_append, Invocation.take]
    exact (ih _).trans (by simp [Request.withFlag, Nat.add_comm, Nat.add_left_comm])

theorem asksToEmit {name : String} (h : IsOperand name) : AsksToEmit ["--emit-ast", name] name := by
  refine ⟨{ emit := some name }, ?_, rfl⟩
  rw [Invocation.read, Argument.ofStrings, if_neg (by decide), ofStrings_operand h]
  rfl

theorem asksToRunTree {name : String} (h : IsOperand name) (count : Nat) :
    AsksToRunTree (List.replicate count "-v" ++ ["--ast", name]) name count := by
  refine ⟨{ detail := count, tree := some name }, ?_, rfl, rfl, rfl⟩
  have hast : Argument.ofStrings ["--ast", name] = .ok [.setting .tree none, .operand name] := by
    rw [Argument.ofStrings, if_neg (by decide), ofStrings_operand h]
    rfl
  rw [Invocation.read, ofStrings_verbose count hast]
  refine (take_verbose {} count _).trans ?_
  rw [Nat.zero_add]
  rfl

theorem asksToRun {name : String} (h : IsOperand name) (count : Nat) :
    AsksToRun (List.replicate count "-v" ++ [name]) name count := by
  refine ⟨{ detail := count, program := some name }, ?_, rfl, rfl, rfl, rfl, rfl⟩
  rw [Invocation.read, ofStrings_verbose count (ofStrings_operand h)]
  refine (take_verbose {} count _).trans ?_
  rw [Nat.zero_add]
  rfl

/-! ### Texts of files -/

theorem normalBreaks_of_not_mem {cs : List Char} (h : '\r' ∉ cs) : Text.normalBreaks cs = cs := by
  fun_induction Text.normalBreaks cs with
  | case1 => rfl
  | case2 cs ih => simp at h
  | case3 c cs _ ih =>
    simp only [List.mem_cons, not_or] at h
    rw [ih h.2, if_neg (Ne.symm h.1)]

theorem length_normalBreaks_le (cs : List Char) : (Text.normalBreaks cs).length ≤ cs.length := by
  fun_induction Text.normalBreaks cs with
  | case1 => exact Nat.le_refl _
  | case2 cs ih =>
    simp only [List.length_cons]
    omega
  | case3 c cs _ ih =>
    simp only [List.length_cons]
    omega

theorem length_le_of_decodeFrom {position : Nat} {current : Option Text.Utf8.OpenChar}
    {done cs : List Char} {bytes : List UInt8}
    (h : Text.Utf8.decodeFrom position current done bytes = .ok cs) :
    cs.length ≤ done.length + bytes.length := by
  induction bytes generalizing position current done with
  | nil =>
    unfold Text.Utf8.decodeFrom at h
    split at h
    · cases h
      simp
    · cases h
  | cons b bytes ih =>
    rw [Text.Utf8.decodeFrom] at h
    split at h
    · have hlen := ih h
      simp only [List.length_cons] at hlen ⊢
      omega
    · have hlen := ih h
      simp only [List.length_cons]
      omega
    · cases h

/-- A file of fewer than 2^63 bytes has no line that is too long to be written out. -/
theorem lineAfter_lt {bytes : List UInt8} {cs : List Char} (hsize : bytes.length < Nat.pow 2 63)
    (htext : Text.Utf8.decode bytes = .ok cs) :
    Lexical.lineAfter (Text.normalBreaks cs) < Integer.textLimit := by
  have hlimit : Nat.pow 2 63 < Integer.textLimit :=
    Integer.lt_textLimit (by decide : _ < Nat.pow 10 20) (by decide)
  have hcount : (Text.normalBreaks cs).count '\n' ≤ (Text.normalBreaks cs).length :=
    List.count_le_length
  have hbreaks := length_normalBreaks_le cs
  have hbytes : cs.length ≤ 0 + bytes.length := length_le_of_decodeFrom htext
  simp only [Lexical.lineAfter]
  generalize Integer.textLimit = limit at *
  omega

/-! ### Sessions -/

theorem named_of_ne {name : String} (h : name ≠ "") :
    named (some name) = some (Path.ofString name) := by
  simp [named, Option.filter, h]

section

variable {files : Files} {arguments : List String} {name : String} {source : String}
  {bytes : List UInt8} {cs : List Char} {detail : Nat} {program : Program}

theorem readSource_of_file {p : Path} (hfile : files p = some (.file bytes))
    (htext : Text.Utf8.decode bytes = .ok cs) :
    readSource files p = .ok (String.ofList (Text.normalBreaks cs)) := by
  simp [readSource, readText, hfile, htext, Except.mapError, Except.map, bind, Except.bind]

/-- What a request comes to. -/
def answer : Except Refusal Report → Report
  | .ok report => report
  | .error refusal => refusal.report ""

theorem run_eq_answer {r : Request} (h : Invocation.read arguments = .ok (.run r))
    (stdin : String) :
    Session.run files arguments stdin = answer (runRequest files r (inputLines stdin)) := by
  rw [Session.run, h]
  rfl

/-! ### Emitting -/

theorem run_emit (hask : AsksToEmit arguments name) (hne : name ≠ "") (stdin : String) :
    Session.run files arguments stdin = answer (emit files (Path.ofString name)) := by
  obtain ⟨r, hread, hemit⟩ := hask
  rw [run_eq_answer hread, runRequest, hemit, named_of_ne hne]

/-- Where the tree file can be written it holds the program, and its path is shown. -/
theorem emit_of_program {p : Path} (hsource : readSource files p = .ok source)
    (hprogram : parseProgram source = .ok program)
    (hdir : files (treePath p) ≠ some .directory) (hlong : files (treePath p) ≠ some .tooLong) :
    emit files p =
      .ok ⟨(treePath p).text ++ "\n", "", .exit 0,
        [⟨treePath p, program.document.toJson.write⟩]⟩ := by
  simp [emit, hsource, hprogram, hdir, hlong, Except.mapError, bind, Except.bind, pure, Except.pure]

theorem emit_of_error {p : Path} {e : SourceError} (hsource : readSource files p = .ok source)
    (herror : parseProgram source = .error e) :
    emit files p = .error (.diagnostic e.diagnostic) := by
  simp [emit, hsource, herror, Except.mapError, bind, Except.bind]

/-! ### Running -/

/-- Without a token listing a source text is run or refused as a program. -/
theorem runSource_eq {r : Request} (hlist : r.listTokens = false) (input : List String) :
    runSource files r source input =
      match parseProgram source with
      | .ok p => runShown files "" r.detail input (p.run r.detail)
      | .error e => (Refusal.diagnostic e.diagnostic).report "" := by
  unfold runSource parseProgram
  cases tokenize source with
  | error e => rfl
  | ok tokens =>
    dsimp only
    rw [hlist]
    cases parse tokens <;> rfl

theorem run_source (hask : AsksToRun arguments name detail) (hne : name ≠ "")
    (hsource : readSource files (Path.ofString name) = .ok source) (stdin : String) :
    Session.run files arguments stdin =
      match parseProgram source with
      | .ok p => runShown files "" detail (inputLines stdin) (p.run detail)
      | .error e => (Refusal.diagnostic e.diagnostic).report "" := by
  obtain ⟨r, hread, hemit, htree, hprogram, hlist, rfl⟩ := hask
  rw [run_eq_answer hread, runRequest, hemit, htree, hprogram, named_of_ne hne, ← runSource_eq hlist]
  simp [named, hsource, answer, bind, Except.bind, pure, Except.pure]

theorem run_tree {d : Document} (hask : AsksToRunTree arguments name detail) (hne : name ≠ "")
    (htree : readTree files (Path.ofString name) = .ok d) (stdin : String) :
    Session.run files arguments stdin =
      runShown files "" detail (inputLines stdin) (d.run detail) := by
  obtain ⟨r, hread, hemit, hname, rfl⟩ := hask
  rw [run_eq_answer hread, runRequest, hemit, hname, named_of_ne hne]
  simp [named, runTree, htree, answer, bind, Except.bind, pure, Except.pure]

/-- The tree file that holds a program is read as that program. -/
theorem readTree_of_written {p : Path} {j : Json} {d : Document} (hj : j.Writable)
    (hfile : files p = some (.file (Text.Utf8.encode j.write.toList)))
    (hload : Document.ofJson j = .ok d) : readTree files p = .ok d := by
  have hbreaks : Text.normalBreaks j.write.toList = j.write.toList := by
    refine normalBreaks_of_not_mem ?_
    rw [Json.write, String.toList_ofList]
    exact Json.return_not_mem_writeChars hj 0
  simp [readTree, readText, hfile, Text.Utf8.decode_encode, hbreaks, Json.read_write hj, hload,
    Except.mapError, Except.map, bind, Except.bind]

end

/-! ### The trace file -/

theorem runShown_congr {files files' : Files}
    (h : files' tracePath = some .directory ↔ files tracePath = some .directory) (shown : String)
    (detail : Nat) (input : List String) (run : Machine → Outcome Machine) :
    runShown files' shown detail input run = runShown files shown detail input run := by
  simp only [runShown, h]

theorem resolve_tracePath (t : FileTree) : t.resolve tracePath = .ok (.within ["debug.txt"]) := by
  have hpath : tracePath = ⟨"", ["debug.txt"]⟩ := by decide
  have hname : ¬ nameLimit < "debug.txt".utf8ByteSize := by decide
  rw [hpath, FileTree.resolve, if_neg (by decide)]
  simp [FileTree.descend, FileTree.isDirectory, hname, bind, Except.bind, pure, Except.pure]

theorem writes_outcomeReport (shown : String) (detail : Nat) (o : Outcome Machine) :
    (outcomeReport shown detail o).writes =
      if detail = 0 then [] else [⟨tracePath, Event.lines o.state.events.reverse⟩] := rfl

/-- A run writes nothing, or the trace file where it is none of the directories. -/
theorem writes_runShown (files : Files) (shown : String) (detail : Nat) (input : List String)
    (run : Machine → Outcome Machine) :
    (runShown files shown detail input run).writes = [] ∨
      files tracePath ≠ some .directory ∧
        ∃ w : Write, w.path = tracePath ∧ (runShown files shown detail input run).writes = [w] := by
  unfold runShown
  split
  · exact .inl rfl
  · rename_i h
    rw [writes_outcomeReport]
    by_cases hd : detail = 0
    · exact .inl (if_pos hd)
    · exact .inr ⟨fun hdir => h ⟨hd, hdir⟩, _, rfl, if_neg hd⟩

/-- The trees before and after the writes of a run, where `t` and `t'` have the same directories. -/
theorem after_run {t t' : FileTree} (hsame : ∀ names, t'.isDirectory names = t.isDirectory names)
    {r : Report} {shown : String} {detail : Nat} {input : List String}
    {run : Machine → Outcome Machine} (hr : r = runShown t.under? shown detail input run) :
    (∀ names, (r.writes.foldl FileTree.write t').isDirectory names = t.isDirectory names) ∧
      (∀ p, t.resolve p ≠ t.resolve tracePath →
        (r.writes.foldl FileTree.write t').under? p = t'.under? p) ∧
      (t'.under? tracePath = t.under? tracePath →
        (r.writes.foldl FileTree.write t').under? tracePath =
          (r.writes.foldl FileTree.write t).under? tracePath) := by
  rcases writes_runShown t.under? shown detail input run with hw | ⟨hdir, w, hpath, hw⟩
  · rw [hr, hw]
    exact ⟨hsame, fun p _ => rfl, id⟩
  · obtain ⟨above, last, habove, htrace⟩ : ∃ above last, t.isDirectory above = true ∧
        t.resolve tracePath = .ok (.within (above ++ [last])) :=
      ⟨[], "debug.txt", rfl, resolve_tracePath t⟩
    have habove' : t'.isDirectory above = true := by rw [hsame, habove]
    have htrace' : t'.resolve tracePath = .ok (.within (above ++ [last])) := by
      rw [FileTree.resolve_congr hsame, htrace]
    have hfile : t.isDirectory (above ++ [last]) = false := by
      by_contra hd
      refine hdir ?_
      rw [FileTree.under?, htrace]
      exact if_pos ((Bool.not_eq_false _).mp hd)
    have hfile' : t'.isDirectory (above ++ [last]) = false := by rw [hsame, hfile]
    have hput : t.write w = t.put (above ++ [last]) w.bytes :=
      FileTree.write_eq_put (by rw [hpath, htrace])
    have hput' : t'.write w = t'.put (above ++ [last]) w.bytes :=
      FileTree.write_eq_put (by rw [hpath, htrace'])
    simp only [hr, hw, List.foldl_cons, List.foldl_nil, hput, hput']
    refine ⟨fun names => ?_, fun p hp => ?_, fun _ => ?_⟩
    · rw [FileTree.isDirectory_put habove', hsame]
    · refine FileTree.under?_put_ne habove' ?_
      rw [FileTree.resolve_congr hsame, ← htrace]
      exact hp
    · rw [FileTree.under?_put_self habove htrace hfile,
        FileTree.under?_put_self habove' htrace' hfile']

/-! ### The tree after an emission -/

theorem under?_empty (t : FileTree) : t.under? (Path.ofString "") = some .directory := by
  have hpath : Path.ofString "" = ⟨"", []⟩ := by decide
  have hresolve : t.resolve (Path.ofString "") = .ok (.within []) := by
    rw [hpath, FileTree.resolve, if_neg (by decide), List.foldlM_nil]
    rfl
  rw [FileTree.under?, hresolve]
  exact if_pos rfl

theorem ne_empty_of_file {t : FileTree} {name : String} {bytes : List UInt8}
    (h : t.under? (Path.ofString name) = some (.file bytes)) : name ≠ "" := by
  rintro rfl
  rw [under?_empty] at h
  cases h

theorem ne_empty_of_treePath {name : String} {p : Path} (h : Path.ofString name = treePath p) :
    name ≠ "" := by
  rintro rfl
  have hnames := congrArg Path.names h
  have hempty : (Path.ofString "").names = [] := by decide
  rw [hempty] at hnames
  simp [treePath, Path.extended] at hnames

theorem append_ending_ne_dots (s : String) : s ++ ".ast.json" ≠ ".." := by
  intro h
  have hlen := congrArg String.length h
  rw [String.length_append] at hlen
  have hending : (".ast.json").length = 9 := by decide
  have hdots : ("..").length = 2 := by decide
  omega

theorem append_ending_ne_trace (s : String) : s ++ ".ast.json" ≠ "debug.txt" := by
  intro h
  have hlast := congrArg (fun s => s.toList.getLast?) h
  simp at hlast

theorem append_ending_ne_self (s : String) : s ++ ".ast.json" ≠ s := by
  intro h
  have hlen := congrArg String.length h
  rw [String.length_append] at hlen
  have hending : (".ast.json").length = 9 := by decide
  omega

/-- The tree file is put beside the source file, and nothing else is changed. -/
theorem after_emission {t : FileTree} {p : Path} {bytes : List UInt8}
    (hfile : t.under? p = some (.file bytes)) (hdir : t.under? (treePath p) ≠ some .directory)
    (hlong : t.under? (treePath p) ≠ some .tooLong) (text : String) :
    (∀ names, (t.write ⟨treePath p, text⟩).isDirectory names = t.isDirectory names) ∧
      (t.write ⟨treePath p, text⟩).under? (treePath p) =
        some (.file (Text.Utf8.encode text.toList)) ∧
      (t.write ⟨treePath p, text⟩).under? p = t.under? p ∧
      (t.write ⟨treePath p, text⟩).under? tracePath = t.under? tracePath := by
  obtain ⟨names, hnames, hplain, -⟩ := FileTree.under?_eq_file.mp hfile
  have hreach : t.resolve (treePath p) ≠ .error .tooLong := by
    intro h
    exact hlong (by rw [FileTree.under?, h])
  obtain ⟨above, last, rfl, habove, htarget⟩ :=
    FileTree.resolve_extended hnames hplain append_ending_ne_dots hreach
  have hfree : t.isDirectory (above ++ [last ++ ".ast.json"]) = false := by
    by_contra h
    refine hdir ?_
    rw [FileTree.under?, treePath, htarget]
    exact if_pos ((Bool.not_eq_false _).mp h)
  have hput : t.write ⟨treePath p, text⟩ =
      t.put (above ++ [last ++ ".ast.json"]) (Text.Utf8.encode text.toList) :=
    FileTree.write_eq_put htarget
  rw [hput]
  refine ⟨FileTree.isDirectory_put habove _ _, FileTree.under?_put_self habove htarget hfree,
    FileTree.under?_put_ne habove ?_, FileTree.under?_put_ne habove ?_⟩
  · rw [hnames]
    intro h
    simp only [Except.ok.injEq, Place.within.injEq, List.append_cancel_left_eq, List.cons.injEq,
      and_true] at h
    exact append_ending_ne_self last h.symm
  · rw [resolve_tracePath]
    intro h
    simp only [Except.ok.injEq, Place.within.injEq] at h
    have hlast := congrArg List.getLast? h
    simp only [List.getLast?_append, List.getLast?_singleton, Option.some_or, Option.some.injEq]
      at hlast
    exact append_ending_ne_trace last hlast.symm

/-! ### Emission and both runs -/

/-- Where the source is no program, to emit its tree is refused as its run is, and nothing is
written. -/
theorem session_of_error {t : FileTree} {name source : String} {e : SourceError}
    {emitArguments runArguments : List String} {detail : Nat} (hne : name ≠ "")
    (hsource : readSource t.under? (Path.ofString name) = .ok source)
    (herror : parseProgram source = .error e) (hemit : AsksToEmit emitArguments name)
    (hrun : AsksToRun runArguments name detail) (typed stdin : String) :
    t.session emitArguments typed = ((t.session runArguments stdin).1, t) ∧
      (t.session runArguments stdin).1.ending = .exit 1 := by
  have hran : (t.session runArguments stdin).1 = _ := run_source hrun hne hsource stdin
  have hemitted : (t.session emitArguments typed).1 = _ := run_emit hemit hne typed
  rw [herror] at hran
  rw [emit_of_error hsource herror, answer] at hemitted
  refine ⟨Prod.ext (hemitted.trans hran.symm) ?_, ?_⟩
  · have hwrites : (t.session emitArguments typed).2 =
        (t.session emitArguments typed).1.writes.foldl FileTree.write t := rfl
    rw [hwrites, hemitted]
    rfl
  · rw [hran]
    rfl

/-- The tree file of a program that was read from a source text is read as that program. -/
theorem readTree_emitted {files : Files} {p : Path} {source : String} {program : Program}
    (hprogram : parseProgram source = .ok program)
    (hlines : Lexical.lineAfter source.toList < Integer.textLimit)
    (hfile : files p = some (.file (Text.Utf8.encode program.document.toJson.write.toList))) :
    readTree files p = .ok program.document := by
  obtain ⟨hwritable, hload⟩ := load_emitted hprogram hlines
  exact readTree_of_written hwritable hfile hload

/-- Emitting the tree of a source file, and running the one or the other. Nothing is asked of the
source text but that it has fewer than 10^4300 lines, as any has that fits into a file
(`lineAfter_lt`). Only where the source stands in the trace file itself does a run change it. -/
theorem emitted_tree_runs_as_source {t : FileTree} {name : String} {bytes : List UInt8}
    {cs : List Char} (hfile : t.under? (Path.ofString name) = some (.file bytes))
    (htext : Text.Utf8.decode bytes = .ok cs)
    (hlines : Lexical.lineAfter (Text.normalBreaks cs) < Integer.textLimit)
    {emitArguments runArguments : List String} {detail : Nat}
    (hemit : AsksToEmit emitArguments name) (hrun : AsksToRun runArguments name detail)
    (typed stdin : String) :
    let target := treePath (Path.ofString name)
    let emitted := t.session emitArguments typed
    let ran := t.session runArguments stdin
    match parseProgram (String.ofList (Text.normalBreaks cs)) with
    | .error _ => emitted = (ran.1, t) ∧ ran.1.ending = .exit 1
    | .ok program =>
      t.under? target ≠ some .directory → t.under? target ≠ some .tooLong →
        let text := program.document.toJson.write
        emitted.1 = ⟨target.text ++ "\n", "", .exit 0, [⟨target, text⟩]⟩ ∧
          emitted.2.under? target = some (.file (Text.Utf8.encode text.toList)) ∧
          ∀ treeName treeArguments, Path.ofString treeName = target →
            AsksToRunTree treeArguments treeName detail →
              let ranTree := emitted.2.session treeArguments stdin
              ranTree.1 = ran.1 ∧ ranTree.2.under? tracePath = ran.2.under? tracePath ∧
                (t.resolve (Path.ofString name) ≠ t.resolve tracePath →
                  (ranTree.2.session runArguments stdin).1 = ran.1) := by
  have hne : name ≠ "" := ne_empty_of_file hfile
  have hsource := readSource_of_file hfile htext
  intro target emitted ran
  cases hprogram : parseProgram (String.ofList (Text.normalBreaks cs)) with
  | error e => exact session_of_error hne hsource hprogram hemit hrun typed stdin
  | ok program =>
    intro hdir hlong text
    have hran : ran.1 = _ := run_source hrun hne hsource stdin
    have hemitted : emitted.1 = answer (emit t.under? (Path.ofString name)) :=
      run_emit hemit hne typed
    rw [hprogram] at hran
    dsimp only at hran
    rw [emit_of_program hsource hprogram hdir hlong, answer] at hemitted
    have htree : emitted.2 = t.write ⟨target, text⟩ := by
      have hwrites : emitted.2 = emitted.1.writes.foldl FileTree.write t := rfl
      rw [hwrites, hemitted]
      rfl
    obtain ⟨hsame, hwritten, hkept, htrace⟩ := after_emission hfile hdir hlong text
    rw [← htree] at hsame hwritten hkept htrace
    refine ⟨hemitted, hwritten, ?_⟩
    intro treeName treeArguments hname hask ranTree
    have hread : readTree emitted.2.under? (Path.ofString treeName) = .ok program.document :=
      readTree_emitted hprogram (by rwa [String.toList_ofList]) (by rw [hname]; exact hwritten)
    have hdocument : program.document.run detail = program.run detail :=
      funext (program.run_document detail)
    have hsameRun : ranTree.1 = ran.1 := by
      have hrunTree : ranTree.1 = _ := run_tree hask (ne_empty_of_treePath hname) hread stdin
      rw [hrunTree, hran, hdocument, runShown_congr (by rw [htrace])]
    obtain ⟨hdirs, hother, htraced⟩ := after_run hsame hran
    have hafter : ranTree.2 = ran.1.writes.foldl FileTree.write emitted.2 := by
      rw [← hsameRun]
      rfl
    rw [← hafter] at hdirs hother htraced
    refine ⟨hsameRun, htraced htrace, fun hapart => ?_⟩
    -- the source file is still there, so that it can be run once more
    have hfile' : ranTree.2.under? (Path.ofString name) = some (.file bytes) := by
      rw [hother _ hapart, hkept, hfile]
    have hrunAgain := run_source hrun hne (readSource_of_file hfile' htext) stdin
    rw [hprogram] at hrunAgain
    dsimp only at hrunAgain
    rw [runShown_congr (FileTree.under?_directory_congr hdirs _), ← hran] at hrunAgain
    exact hrunAgain

theorem emitted_tree_runs_as_source_hello :
    let source := "push 'hi' print"
    let t : FileTree := ⟨[(["f"], Text.Utf8.encode source.toList)]⟩
    let program : Program := ⟨[.push (.text (.ofString "hi") 1) 1, .print 1]⟩
    let emitted := t.session ["--emit-ast", "f"] ""
    emitted.1.stdout = "f.ast.json\n" ∧
      emitted.2.under? (Path.ofString "f.ast.json") =
        some (.file (Text.Utf8.encode program.document.toJson.write.toList)) ∧
      (emitted.2.session ["-v", "--ast", "f.ast.json"] "").1 = (t.session ["-v", "f"] "").1 := by
  intro source t program
  have hprogram : parseProgram (String.ofList (Text.normalBreaks source.toList)) = .ok program := by
    decide +kernel
  have hfile : t.under? (Path.ofString "f") = some (.file (Text.Utf8.encode source.toList)) := by
    decide
  have hname : IsOperand "f" := ⟨by decide, rfl⟩
  have htree : IsOperand "f.ast.json" := ⟨by decide, rfl⟩
  have htext : Text.Utf8.decode (Text.Utf8.encode source.toList) = .ok source.toList :=
    Text.Utf8.decode_encode _
  have hlines := lineAfter_lt (by decide) htext
  have h := emitted_tree_runs_as_source hfile htext hlines (asksToEmit hname) (asksToRun hname 1)
    "" ""
  rw [hprogram] at h
  obtain ⟨hreport, hwritten, hrun⟩ := h (by decide) (by decide)
  exact ⟨congrArg Report.stdout hreport, hwritten, (hrun "f.ast.json" _ rfl (asksToRunTree htree 1)).1⟩

end StackLang
