import StackLang.Proofs.Command.Emission

/-! # Typed sources

A source that is typed runs as the same source in a file. The lines before the sentinel are the
source, the sentinel is gone, and the lines behind it are what the program reads. -/

namespace StackLang

open Session

/-! ### Lines -/

/-- Text without a line break. -/
def IsLine (s : String) : Prop := '\n' ∉ s.toList ∧ '\r' ∉ s.toList

/-- The lines, each with a line feed behind it. -/
def unlines (lines : List String) : String := String.join (lines.map (· ++ "\n"))

theorem unlines_cons (line : String) (lines : List String) :
    unlines (line :: lines) = line ++ "\n" ++ unlines lines := by
  simp [unlines, String.join_cons]

theorem normalBreaks_line {line rest : List Char} (h : '\r' ∉ line) :
    Text.normalBreaks (line ++ '\n' :: rest) = line ++ '\n' :: Text.normalBreaks rest := by
  induction line with
  | nil => simp [Text.normalBreaks]
  | cons c line ih =>
    simp only [List.mem_cons, not_or] at h
    have hc : c ≠ '\r' := Ne.symm h.1
    rw [List.cons_append, Text.normalBreaks, ih h.2, if_neg hc]
    · rfl
    · rintro - rfl
      exact absurd rfl hc

theorem piecesFrom_append {stop : Char} {piece : List Char} (h : stop ∉ piece)
    (current rest : List Char) :
    Text.piecesFrom stop current (piece ++ rest) =
      Text.piecesFrom stop (piece.reverse ++ current) rest := by
  induction piece generalizing current with
  | nil => rfl
  | cons c piece ih =>
    simp only [List.mem_cons, not_or] at h
    rw [List.cons_append, Text.piecesFrom, if_neg (Ne.symm h.1), ih h.2]
    simp

theorem inputLines_line {line : String} (h : IsLine line) (rest : String) :
    inputLines (line ++ "\n" ++ rest) = line :: inputLines rest := by
  have hchars : (line ++ "\n" ++ rest).toList = line.toList ++ '\n' :: rest.toList := by simp
  simp only [inputLines, Text.lines, Text.pieces, String.toList_ofList]
  rw [hchars, normalBreaks_line h.2, piecesFrom_append h.1, Text.piecesFrom, if_pos rfl]
  simp

theorem inputLines_unlines {lines : List String} (h : ∀ line ∈ lines, IsLine line) (rest : String) :
    inputLines (unlines lines ++ rest) = lines ++ inputLines rest := by
  induction lines with
  | nil => simp [unlines]
  | cons line lines ih =>
    obtain ⟨hline, hlines⟩ := List.forall_mem_cons.mp h
    rw [unlines_cons, String.append_assoc, inputLines_line hline, ih hlines, List.cons_append]

theorem inputLines_empty : inputLines "" = [] := by decide

/-- The text of a file that holds lines is read as it is. -/
theorem normalBreaks_unlines {lines : List String} (h : ∀ line ∈ lines, IsLine line) :
    Text.normalBreaks (unlines lines).toList = (unlines lines).toList := by
  refine normalBreaks_of_not_mem ?_
  induction lines with
  | nil => simp [unlines]
  | cons line lines ih =>
    obtain ⟨hline, hlines⟩ := List.forall_mem_cons.mp h
    rw [unlines_cons]
    simp [hline.2, ih hlines]

/-! ### The sentinel -/

theorem withoutBreak_of_isLine {line : String} (h : IsLine line) : withoutBreak line = line := by
  have hbreak : ∀ c ∈ line.toList.reverse, ¬ (c == '\r' || c == '\n') = true := by
    intro c hc
    rw [List.mem_reverse] at hc
    have hne : c ≠ '\r' ∧ c ≠ '\n' := ⟨fun e => h.2 (e ▸ hc), fun e => h.1 (e ▸ hc)⟩
    simp [hne]
  have hkept : line.toList.reverse.dropWhile (fun c => c == '\r' || c == '\n') =
      line.toList.reverse := by
    cases hchars : line.toList.reverse with
    | nil => rfl
    | cons c cs => exact List.dropWhile_cons_of_neg (hbreak c (by simp [hchars]))
  rw [withoutBreak, hkept, List.reverse_reverse, String.ofList_toList]

section

variable {lines : List String} (hlines : ∀ line ∈ lines, IsLine line)
include hlines

theorem splitTyped_append {sentinel : String} (hnot : sentinel ∉ lines) (rest : List String) :
    splitTyped sentinel (lines ++ rest) =
      (lines ++ (splitTyped sentinel rest).1, (splitTyped sentinel rest).2) := by
  induction lines with
  | nil => rfl
  | cons line lines ih =>
    obtain ⟨hline, hrest⟩ := List.forall_mem_cons.mp hlines
    simp only [List.mem_cons, not_or] at hnot
    rw [List.cons_append, splitTyped, withoutBreak_of_isLine hline, if_neg (Ne.symm hnot.1),
      ih hrest hnot.2]
    rfl

/-- The source ends at the first sentinel, and what is behind it is left. -/
theorem typed_of_sentinel {sentinel : String} (hsentinel : IsLine sentinel) (hnot : sentinel ∉ lines)
    (rest : String) :
    typed (some sentinel) (inputLines (unlines (lines ++ [sentinel]) ++ rest)) =
      (unlines lines, inputLines rest) := by
  have hall : ∀ line ∈ lines ++ [sentinel], IsLine line := by
    simpa [or_imp, forall_and] using ⟨hlines, hsentinel⟩
  rw [inputLines_unlines hall, List.append_assoc, List.singleton_append]
  simp only [typed, typedSource, splitTyped_append hlines hnot, splitTyped,
    withoutBreak_of_isLine hsentinel, if_true, List.append_nil]
  rfl

/-- Without a sentinel all is source. -/
theorem typed_of_end {sentinel : Option String} (hnot : ∀ s ∈ sentinel, s ∉ lines) :
    typed sentinel (inputLines (unlines lines)) = (unlines lines, []) := by
  have hinput : inputLines (unlines lines) = lines := by
    have h := inputLines_unlines hlines ""
    rwa [String.append_empty, inputLines_empty, List.append_nil] at h
  rw [hinput]
  cases sentinel with
  | none =>
    have hkept : lines.map (fun line => withoutBreak line ++ "\n") = lines.map (· ++ "\n") :=
      List.map_congr_left fun line h => by rw [withoutBreak_of_isLine (hlines line h)]
    rw [typed, hkept]
    rfl
  | some s =>
    have hsplit := splitTyped_append hlines (hnot s rfl) []
    rw [List.append_nil] at hsplit
    simp only [typed, typedSource, hsplit, splitTyped, List.append_nil]
    rfl

end

/-! ### Arguments -/

/-- A switch that only shows more: `--tokens`, or a dash with one `v` or several. -/
def ShowsMore (argument : String) : Prop :=
  argument = "--tokens" ∨ ∃ n, argument = String.ofList ('-' :: List.replicate (n + 1) 'v')

/-- Arguments are taken as flags and nothing else. -/
def TakenAs (arguments : List String) (flags : List Flag) : Prop :=
  ∃ as, (∀ more as', Argument.ofStrings more = .ok as' →
      Argument.ofStrings (arguments ++ more) = .ok (as ++ as')) ∧
    ∀ r afterOperand rest, ∃ afterOperand', Invocation.take r [] afterOperand (as ++ rest) =
      Invocation.take (flags.foldl Request.withFlag r) [] afterOperand' rest

/-- Flags alone say how much is shown. -/
theorem foldl_withFlag (flags : List Flag) (r : Request) :
    ∃ detail listTokens, flags.foldl Request.withFlag r = { r with detail, listTokens } := by
  induction flags generalizing r with
  | nil => exact ⟨r.detail, r.listTokens, rfl⟩
  | cons f flags ih =>
    obtain ⟨detail, listTokens, h⟩ := ih (r.withFlag f)
    refine ⟨detail, listTokens, h.trans ?_⟩
    cases f <;> rfl

theorem ofSpelling?_eq_none {cs : List Char} (h : ∀ e ∈ Switch.spellings, e.1.toList ≠ cs) :
    Switch.ofSpelling? cs = none := by
  cases hs : Switch.ofSpelling? cs with
  | none => rfl
  | some s => exact absurd (String.toList_ofList) (h _ (Grammar.mem_of_lookup hs))

theorem cutAtEquals_of_not_mem {cs : List Char} (h : '=' ∉ cs) :
    Argument.cutAtEquals cs = (cs, none) := by
  have hne : ∀ c ∈ cs, (c != '=') = true := by
    intro c hc
    rw [bne_iff_ne]
    rintro rfl
    exact h hc
  rw [Argument.cutAtEquals, List.takeWhile_eq_self_iff.mpr hne, List.dropWhile_eq_nil_iff.mpr hne]
  rfl

/-- A dash and several `v` mean the flag and more of it. -/
theorem ofChars_verbose (n : Nat) :
    Argument.ofChars ('-' :: List.replicate (n + 2) 'v') =
      .ok (.cluster .verbose (some (String.ofList (List.replicate (n + 1) 'v')))) := by
  have hspelling : Switch.ofSpelling? ('-' :: List.replicate (n + 2) 'v') = none := by
    have hthree : ∀ e ∈ Switch.spellings, e.1.toList.take 3 ≠ ['-', 'v', 'v'] := by decide
    refine ofSpelling?_eq_none fun e he heq => hthree e he ?_
    rw [heq]
    rfl
  have hcut : Argument.cutAtEquals ('-' :: List.replicate (n + 2) 'v') =
      ('-' :: List.replicate (n + 2) 'v', none) :=
    cutAtEquals_of_not_mem (by simp)
  rw [List.replicate_succ] at hspelling hcut ⊢
  rw [Argument.ofChars, hspelling]
  simp only [hcut]
  rfl

theorem clusterFlags_verbose (n : Nat) :
    Invocation.clusterFlags .verbose (List.replicate n 'v') =
      .ok (List.replicate (n + 1) .verbose) := by
  induction n with
  | zero => rfl
  | succ n ih =>
    have hv : Switch.ofSpelling? ['-', 'v'] = some (.flag .verbose) := by decide
    rw [List.replicate_succ, Invocation.clusterFlags, hv]
    simp only [ih]
    rfl

/-- Each switch that shows more is taken as a flag, or as several. -/
theorem takenAs_of_showsMore {argument : String} (h : ShowsMore argument) :
    ∃ flags, TakenAs [argument] flags := by
  have hone : ∀ {a flags}, argument ≠ "--" → Argument.ofChars argument.toList = .ok a →
      (∀ r afterOperand rest, Invocation.take r [] afterOperand (a :: rest) =
        Invocation.take (flags.foldl Request.withFlag r) [] false rest) →
      TakenAs [argument] flags := by
    intro a flags hne hchars htake
    refine ⟨[a], fun more as' hmore => ?_, fun r b rest => ⟨false, htake r b rest⟩⟩
    rw [List.singleton_append, Argument.ofStrings, if_neg hne, hchars, hmore]
    rfl
  rcases h with rfl | ⟨n, rfl⟩
  · exact ⟨[.tokens], hone (by decide) (a := .flag .tokens none) rfl fun _ _ _ => rfl⟩
  · refine ⟨List.replicate (n + 1) .verbose, ?_⟩
    have hne : String.ofList ('-' :: List.replicate (n + 1) 'v') ≠ "--" := by
      intro heq
      have hchars := congrArg String.toList heq
      rw [String.toList_ofList, List.replicate_succ] at hchars
      cases hchars
    cases n with
    | zero => exact hone hne (a := .cluster .verbose none) rfl fun _ _ _ => rfl
    | succ n =>
      refine hone hne (by rw [String.toList_ofList, ofChars_verbose]) fun r b rest => ?_
      have hflags : Invocation.flagsOf .verbose (some (String.ofList (List.replicate (n + 1) 'v'))) =
          .ok (List.replicate (n + 2) .verbose) := by
        have hletters : String.ofList (List.replicate (n + 1) 'v') ≠ "" := by
          intro heq
          have hchars := congrArg String.toList heq
          rw [String.toList_ofList, List.replicate_succ] at hchars
          cases hchars
        rw [Invocation.flagsOf, String.toList_ofList, clusterFlags_verbose]
        exact hletters
      rw [Invocation.take, hflags]
      simp [bind, Except.bind]

theorem ofChars_sentinel (sentinel : String) :
    Argument.ofChars ("--sentinel=" ++ sentinel).toList =
      .ok (.setting .sentinel (some sentinel)) := by
  have hchars : ("--sentinel=" ++ sentinel).toList =
      '-' :: '-' :: ("sentinel".toList ++ '=' :: sentinel.toList) := by
    rw [String.toList_append]
    rfl
  have hspelling : Switch.ofSpelling? ('-' :: '-' :: ("sentinel".toList ++ '=' :: sentinel.toList)) =
      none := by
    have hplain : ∀ e ∈ Switch.spellings, '=' ∉ e.1.toList := by decide
    refine ofSpelling?_eq_none fun e he heq => hplain e he ?_
    rw [heq]
    simp
  have hcut : Argument.cutAtEquals ('-' :: '-' :: ("sentinel".toList ++ '=' :: sentinel.toList)) =
      ("--sentinel".toList, some sentinel.toList) := rfl
  have hname : Switch.ofSpelling? "--sentinel".toList = some (.setting .sentinel) := by decide
  rw [hchars, Argument.ofChars, hspelling]
  simp only [hcut, hname, Argument.ofSwitch, Option.map_some, String.ofList_toList]

theorem takenAs_nil : TakenAs [] [] :=
  ⟨[], fun _ _ h => h, fun _ afterOperand _ => ⟨afterOperand, rfl⟩⟩

theorem TakenAs.append {arguments more : List String} {flags others : List Flag}
    (h : TakenAs arguments flags) (h' : TakenAs more others) :
    TakenAs (arguments ++ more) (flags ++ others) := by
  obtain ⟨as, hread, htake⟩ := h
  obtain ⟨bs, hread', htake'⟩ := h'
  refine ⟨as ++ bs, fun rest cs hrest => ?_, fun r b rest => ?_⟩
  · rw [List.append_assoc, List.append_assoc]
    exact hread _ _ (hread' _ _ hrest)
  · obtain ⟨b', hb⟩ := htake r b (bs ++ rest)
    obtain ⟨c, hc⟩ := htake' (flags.foldl Request.withFlag r) b' rest
    exact ⟨c, by rw [List.append_assoc, hb, hc, List.foldl_append]⟩

theorem exists_takenAs {arguments : List String} (h : ∀ a ∈ arguments, ShowsMore a) :
    ∃ flags, TakenAs arguments flags := by
  induction arguments with
  | nil => exact ⟨[], takenAs_nil⟩
  | cons a arguments ih =>
    obtain ⟨hfirst, hrest⟩ := List.forall_mem_cons.mp h
    obtain ⟨flags, htaken⟩ := takenAs_of_showsMore hfirst
    obtain ⟨others, htaken'⟩ := ih hrest
    exact ⟨flags ++ others, htaken.append htaken'⟩

section

variable {before after : List String} {flags others : List Flag} (hbefore : TakenAs before flags)
  (hafter : TakenAs after others)
include hbefore hafter

theorem read_flags : Invocation.read (before ++ after) =
    .ok (.run ((flags ++ others).foldl Request.withFlag {})) := by
  obtain ⟨as, hread, htake⟩ := hbefore.append hafter
  obtain ⟨b, hb⟩ := htake {} false []
  have hstrings := hread [] [] rfl
  rw [List.append_nil, List.append_nil] at hstrings
  rw [List.append_nil] at hb
  rw [Invocation.read, hstrings]
  exact hb

/-- One more argument among flags, which changes nothing that they change. -/
theorem read_among {argument : String} {a : Argument} (hne : argument ≠ "--")
    (hchars : Argument.ofChars argument.toList = .ok a) (change : Request → Request)
    (hcomm : ∀ r f, (change r).withFlag f = change (r.withFlag f))
    (htake : ∀ r : Request, r.program = none → ∀ b rest, ∃ b',
      Invocation.take r [] b (a :: rest) = Invocation.take (change r) [] b' rest) :
    Invocation.read (before ++ [argument] ++ after) =
      .ok (.run (change ((flags ++ others).foldl Request.withFlag {}))) := by
  obtain ⟨as, hread, hbefore⟩ := hbefore
  obtain ⟨bs, hread', hafter⟩ := hafter
  have hlast : Argument.ofStrings ([argument] ++ after) = .ok (a :: bs) := by
    have hbs := hread' [] [] rfl
    rw [List.append_nil, List.append_nil] at hbs
    rw [List.singleton_append, Argument.ofStrings, if_neg hne, hchars, hbs]
    rfl
  obtain ⟨detail, listTokens, hplain⟩ := foldl_withFlag flags {}
  obtain ⟨b₁, h₁⟩ := hbefore {} false (a :: bs)
  obtain ⟨b₂, h₂⟩ := htake (flags.foldl Request.withFlag {}) (by rw [hplain]) b₁ bs
  obtain ⟨b₃, h₃⟩ := hafter (change (flags.foldl Request.withFlag {})) b₂ []
  rw [List.append_nil, List.foldl_hom change hcomm, ← List.foldl_append] at h₃
  rw [List.append_assoc, Invocation.read, hread _ _ hlast]
  exact h₁.trans (h₂.trans h₃)

/-- A sentinel attached to its switch. -/
theorem read_sentinel (sentinel : String) :
    Invocation.read (before ++ ["--sentinel=" ++ sentinel] ++ after) =
      .ok (.run { (flags ++ others).foldl Request.withFlag {} with
        sentinel := Invocation.attachedValue sentinel }) := by
  have hne : "--sentinel=" ++ sentinel ≠ "--" := by
    intro heq
    have hchars := congrArg String.toList heq
    rw [String.toList_append] at hchars
    cases hchars
  refine read_among hbefore hafter hne (ofChars_sentinel sentinel)
    (fun r => { r with sentinel := Invocation.attachedValue sentinel }) ?_
    fun r _ b rest => ⟨false, rfl⟩
  intro r f
  cases f <;> rfl

/-- The name of a file to be run. -/
theorem read_program {name : String} (hname : IsOperand name) :
    Invocation.read (before ++ [name] ++ after) =
      .ok (.run { (flags ++ others).foldl Request.withFlag {} with program := some name }) := by
  refine read_among hbefore hafter hname.1 hname.2
    (fun r => { r with program := some name }) ?_ fun r hr b rest => ⟨true, ?_⟩
  · intro r f
    cases f <;> rfl
  · simp [Invocation.take, hr]

end

/-! ### Sessions -/

section

variable {files : Files} {r : Request} {arguments : List String}

/-- A typed source is run with the lines that are left. -/
theorem run_typed {source : String} {rest : List String} {stdin : String}
    (hread : Invocation.read arguments = .ok (.run r)) (hemit : r.emit = none)
    (htree : r.tree = none) (hprogram : r.program = none)
    (htyped : typed r.sentinel (inputLines stdin) = (source, rest)) :
    Session.run files arguments stdin = runSource files r source rest := by
  rw [run_eq_answer hread, runRequest, hemit, htree, hprogram, htyped]
  rfl

theorem run_file {name source : String} (hread : Invocation.read arguments = .ok (.run r))
    (hemit : r.emit = none) (htree : r.tree = none) (hprogram : r.program = some name)
    (hne : name ≠ "") (hsource : readSource files (Path.ofString name) = .ok source)
    (stdin : String) :
    Session.run files arguments stdin = runSource files r source (inputLines stdin) := by
  rw [run_eq_answer hread, runRequest, hemit, htree, hprogram, named_of_ne hne]
  simp [named, hsource, answer, bind, Except.bind, pure, Except.pure]

/-- Sessions with one report leave the same files behind. -/
theorem session_congr {t : FileTree} {more : List String} {stdin stdin' : String}
    (h : Session.run t.under? arguments stdin = Session.run t.under? more stdin') :
    t.session arguments stdin = t.session more stdin' := by
  simp only [FileTree.session, h]

end

/-- A source that is typed, with the lines that a program is to read behind the sentinel, runs as
the same source in a file, and leaves the same files behind. Without a sentinel the program finds
nothing to read. An attached `--` is no sentinel, so that the line `--` and all behind it are source. -/
theorem typed_source_runs_as_file {t : FileTree} {name : String} {source before after : List String}
    (hsource : ∀ line ∈ source, IsLine line)
    (hfile : t.under? (Path.ofString name) =
      some (.file (Text.Utf8.encode (unlines source).toList)))
    (hname : IsOperand name) (hbefore : ∀ a ∈ before, ShowsMore a) (hafter : ∀ a ∈ after, ShowsMore a) :
    let fromFile := t.session (before ++ [name] ++ after)
    let typedUpTo := fun sentinel : String => t.session (before ++ ["--sentinel=" ++ sentinel] ++ after)
    let typedUpToDefault := t.session (before ++ after)
    (∀ sentinel, IsLine sentinel → sentinel ∉ source → sentinel ≠ "--" →
      (∀ data, typedUpTo sentinel (unlines (source ++ [sentinel]) ++ data) = fromFile data) ∧
        typedUpTo sentinel (unlines source) = fromFile "") ∧
    (defaultSentinel ∉ source →
      (∀ data, typedUpToDefault (unlines (source ++ [defaultSentinel]) ++ data) = fromFile data) ∧
        typedUpToDefault (unlines source) = fromFile "") ∧
    typedUpTo "--" (unlines source) = fromFile "" := by
  intro fromFile typedUpTo typedUpToDefault
  obtain ⟨flags, hflags⟩ := exists_takenAs hbefore
  obtain ⟨others, hothers⟩ := exists_takenAs hafter
  obtain ⟨detail, listTokens, hplain⟩ := foldl_withFlag (flags ++ others) {}
  have hprogram := read_program hflags hothers hname
  have hsentinel := read_sentinel hflags hothers
  have hdefault := read_flags hflags hothers
  rw [hplain] at hprogram hdefault
  simp only [hplain] at hsentinel
  have htext : readSource t.under? (Path.ofString name) = .ok (unlines source) := by
    have hread := readSource_of_file hfile (Text.Utf8.decode_encode _)
    rwa [normalBreaks_unlines hsource, String.ofList_toList] at hread
  -- The sentinel is of use to the reading of the source only, and the name of the file as well.
  have halike : ∀ arguments sentinel stdin data,
      Invocation.read arguments = .ok (.run { detail, listTokens, sentinel }) →
      typed sentinel (inputLines stdin) = (unlines source, inputLines data) →
      t.session arguments stdin = fromFile data := by
    intro arguments sentinel stdin data hread htyped
    refine session_congr ?_
    rw [run_typed hread rfl rfl rfl htyped,
      run_file hprogram rfl rfl rfl (ne_empty_of_file hfile) htext]
    rfl
  have hnothing : ∀ sentinel, (∀ s ∈ sentinel, s ∉ source) →
      typed sentinel (inputLines (unlines source)) = (unlines source, inputLines "") := by
    intro sentinel hnot
    rw [typed_of_end hsource hnot, inputLines_empty]
  refine ⟨fun sentinel hline hnot hdashes => ⟨fun data => ?_, ?_⟩, fun hnot => ⟨fun data => ?_, ?_⟩, ?_⟩
  · refine halike _ (some sentinel) _ _ ?_ (typed_of_sentinel hsource hline hnot data)
    rw [hsentinel, Invocation.attachedValue, if_neg hdashes]
  · refine halike _ (some sentinel) _ _ ?_ (hnothing _ (by simpa using hnot))
    rw [hsentinel, Invocation.attachedValue, if_neg hdashes]
  · exact halike _ _ _ _ hdefault (typed_of_sentinel hsource ⟨by decide, by decide⟩ hnot data)
  · exact halike _ _ _ _ hdefault (hnothing _ (by simpa using hnot))
  · exact halike _ none _ _ (hsentinel "--") (hnothing none (by simp))

theorem typed_source_runs_as_file_echo :
    let t : FileTree := ⟨[(["f"], Text.Utf8.encode "read\nprint\n".toList)]⟩
    let fromFile := t.session ["-v", "f", "--tokens"] "hi\nthere"
    t.session ["-v", "--sentinel=END", "--tokens"] "read\nprint\nEND\nhi\nthere" = fromFile ∧
      t.session ["-v", "--tokens"] "read\nprint\n!E\nhi\nthere" = fromFile ∧
      t.session ["-v", "--sentinel=--", "--tokens"] "read\nprint\n" =
        t.session ["-v", "f", "--tokens"] "" := by
  intro t fromFile
  have hlines : ∀ line ∈ ["read", "print"], IsLine line := by
    simp only [List.mem_cons, List.not_mem_nil, or_false, forall_eq_or_imp, forall_eq]
    exact ⟨⟨by decide, by decide⟩, by decide, by decide⟩
  have hfile : t.under? (Path.ofString "f") =
      some (.file (Text.Utf8.encode (unlines ["read", "print"]).toList)) := by decide
  have hverbose : ∀ a ∈ ["-v"], ShowsMore a := by simpa using .inr ⟨0, rfl⟩
  have htokens : ∀ a ∈ ["--tokens"], ShowsMore a := by simpa using .inl rfl
  have h := typed_source_runs_as_file hlines hfile ⟨by decide, rfl⟩ hverbose htokens
  obtain ⟨hchosen, hdefault, hdashes⟩ := h
  exact ⟨(hchosen "END" ⟨by decide, by decide⟩ (by decide) (by decide)).1 "hi\nthere",
    (hdefault (by decide)).1 "hi\nthere", hdashes⟩

/-- Attached to its switch, `--` is no sentinel: the line becomes a part of the source. -/
theorem attached_dashes_end_nothing :
    let t : FileTree := ⟨[(["f"], Text.Utf8.encode "push true print\n".toList)]⟩
    (t.session ["f"] "").1.stderr = "" ∧
      (t.session ["--sentinel=--"] "push true print\n--\n").1.stderr ≠ "" := by
  decide +kernel

end StackLang
