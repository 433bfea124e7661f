import StackLang.Proofs.Json.Scalars
import StackLang.Proofs.Json.Texts

/-! # Reading what was written

A value is read from its text as itself, with any indentation and inside of any open arrays and
objects. Its integers must not be too long, its texts and names must be strings, and no object may
have a name twice. -/

namespace StackLang.Json

open StackLang.Text

inductive Writable : Json → Prop where
  | null : Writable .null
  | boolean (b : Bool) : Writable (.boolean b)
  | integer {n : Int} : n.natAbs < Integer.textLimit → Writable (.integer n)
  | float (x : Double) : Writable (.float x)
  | text (s : String) : Writable (.text (Text.ofString s))
  | array {items : List Json} : (∀ j ∈ items, Writable j) → Writable (.array items)
  | object {fields : List (Text × Json)} : (fields.map Prod.fst).Nodup →
      (∀ f ∈ fields, ∃ s, f.1 = Text.ofString s) → (∀ f ∈ fields, Writable f.2) →
      Writable (.object fields)

/-! ### Characters of words and numbers -/

def isScalarChar (c : Char) : Bool := c.isAlphanum || c == '-' || c == '+' || c == '.'

theorem ne_of_isScalarChar {c d : Char} (h : isScalarChar c = true) (hd : isScalarChar d = false) :
    c ≠ d := by
  rintro rfl
  rw [h] at hd
  cases hd

theorem isScalarChar_of_isDigit {c : Char} (h : c.isDigit = true) : isScalarChar c = true := by
  simp [isScalarChar, Char.isAlphanum, h]

theorem scalarChars_signText (negative : Bool) :
    ∀ c ∈ Layout.signText negative, isScalarChar c = true :=
  List.all_eq_true.mp (by cases negative <;> rfl)

theorem scalarChars_append {as bs : List Char} (ha : ∀ c ∈ as, isScalarChar c = true)
    (hb : ∀ c ∈ bs, isScalarChar c = true) : ∀ c ∈ as ++ bs, isScalarChar c = true :=
  List.forall_mem_append.mpr ⟨ha, hb⟩

theorem scalarChars_digits {cs : List Char} (h : ∀ c ∈ cs, c.isDigit = true) :
    ∀ c ∈ cs, isScalarChar c = true := fun c hc => isScalarChar_of_isDigit (h c hc)

theorem scalarChars_pointText {fraction : List Char} (h : ∀ c ∈ fraction, c.isDigit = true) :
    ∀ c ∈ Layout.pointText fraction, isScalarChar c = true := by
  unfold Layout.pointText
  split
  · simp
  · exact List.forall_mem_cons.mpr ⟨by decide, scalarChars_digits h⟩

theorem scalarChars_part {behind : List Char} {lead : Int} (h : Layout.ExponentPart behind lead) :
    ∀ c ∈ behind, isScalarChar c = true := by
  cases h with
  | none => simp
  | some _ hds _ =>
    refine List.forall_mem_cons.mpr ⟨by decide, List.forall_mem_cons.mpr ⟨?_, scalarChars_digits hds⟩⟩
    split <;> decide

/-- Text of a word or a number. -/
structure IsScalar (cs : List Char) : Prop where
  ne : cs ≠ []
  chars : ∀ c ∈ cs, isScalarChar c = true

theorem isScalar_word {w : List Char × Json} (h : w ∈ words) : IsScalar w.1 := by
  have hall : ∀ w ∈ words, w.1 ≠ [] ∧ ∀ c ∈ w.1, isScalarChar c = true := by
    simp [words, isScalarChar]
  exact ⟨(hall w h).1, (hall w h).2⟩

theorem null_mem_words : ("null".toList, null) ∈ words := by simp [words]

theorem boolean_mem_words (b : Bool) :
    (if b then "true".toList else "false".toList, boolean b) ∈ words := by
  cases b <;> simp [words]

theorem isScalar_integer (n : Int) : IsScalar (Integer.text n).toList := by
  rw [Integer.toList_text]
  refine ⟨?_, scalarChars_append (scalarChars_signText _) (scalarChars_digits ascii_toDigits)⟩
  simp [Nat.toDigits_ne_nil]

theorem isScalar_figures {negative : Bool} {x : Double} {whole fraction behind : List Char}
    {lead : Int} (h : Layout.Figures negative x whole fraction lead)
    (he : Layout.ExponentPart behind lead) :
    IsScalar (Layout.signText negative ++ (whole ++ (Layout.pointText fraction ++ behind))) := by
  refine ⟨?_, scalarChars_append (scalarChars_signText _) (scalarChars_append
    (scalarChars_digits h.whole_digits) (scalarChars_append
      (scalarChars_pointText h.fraction_digits) (scalarChars_part he)))⟩
  simp [h.whole_ne]

theorem isScalar_float (x : Double) : IsScalar (x.text .tree).toList := by
  cases x with
  | nan => exact ⟨by decide, List.all_eq_true.mp rfl⟩
  | infinite s => cases s <;> exact ⟨by decide, List.all_eq_true.mp rfl⟩
  | finite negative n h =>
    obtain ⟨whole, fraction, lead, behind, hfig, hexp, -, htext⟩ := Layout.tree_figures negative h
    rw [htext]
    exact isScalar_figures hfig hexp

/-! ### First characters -/

/-- How the text of a value begins: with none of the characters that a reader would pass over or
take for the end of an array. -/
def Begins (text : List Char) : Prop :=
  ∃ c cs, text = c :: cs ∧ isSpace c = false ∧ c ≠ ']' ∧ c ≠ '\uFEFF'

/-! ### Steps -/

section

variable {mode mode' : Mode} {stack stack' : List Frame} {cs rest : List Char} {j : Json}

theorem resume_more (h : step mode stack cs = .more mode' stack' rest) :
    resume mode stack cs = resume mode' stack' rest := by
  rw [resume]
  split <;> simp_all

theorem resume_result (h : step mode stack cs = .result j rest) :
    resume mode stack cs = .ok (j, rest) := by
  rw [resume]
  split <;> simp_all

end

def Spaces (cs : List Char) : Prop := ∀ c ∈ cs, isSpace c = true

theorem spaces_newLine (depth : Nat) : Spaces (newLine depth) := by
  refine List.forall_mem_cons.mpr ⟨by decide, fun c hc => ?_⟩
  rw [List.eq_of_mem_replicate hc]
  decide

theorem skip_spaces {before : List Char} (h : Spaces before) {c : Char} (hc : isSpace c = false)
    (cs : List Char) : skip (before ++ c :: cs) = c :: cs := by
  rw [skip, List.dropWhile_append_of_pos h, List.dropWhile_cons_of_neg]
  simp [hc]

theorem skip_cons {c : Char} (hc : isSpace c = false) (cs : List Char) :
    skip (c :: cs) = c :: cs := by
  have hnone : Spaces [] := by simp [Spaces]
  exact skip_spaces hnone hc cs

/-- A text is read as a value, wherever it stands. -/
def Reads (text : List Char) (j : Json) : Prop :=
  ∀ stack before rest, Spaces before → Follows rest →
    resume .value stack (before ++ (text ++ rest)) = resume (.after j) stack rest

theorem Reads.here {text : List Char} {j : Json} (h : Reads text j) {rest : List Char}
    (hr : Follows rest) (stack : List Frame) :
    resume .value stack (text ++ rest) = resume (.after j) stack rest :=
  h stack [] rest (by simp [Spaces]) hr

theorem reads_scalar {text : List Char} {j : Json} (hs : IsScalar text)
    (h : ∀ stack rest, Follows rest → stepScalar stack (text ++ rest) = .more (.after j) stack rest) :
    Reads text j := by
  intro stack before rest hb hr
  obtain ⟨c, cs, rfl⟩ := List.exists_cons_of_ne_nil hs.ne
  have hne : ∀ {d}, isScalarChar d = false → c ≠ d :=
    ne_of_isScalarChar (hs.chars c List.mem_cons_self)
  have hspace : isSpace c = false := by
    simp [isSpace, hne (d := ' ') rfl, hne (d := '\t') rfl, hne (d := '\n') rfl,
      hne (d := '\r') rfl]
  refine resume_more ?_
  rw [List.cons_append, step, skip_spaces hb hspace, stepValue, if_neg (hne rfl),
    if_neg (hne rfl), if_neg (hne rfl)]
  exact h stack rest hr

theorem reads_word {w : List Char × Json} (h : w ∈ words) : Reads w.1 w.2 :=
  reads_scalar (isScalar_word h) fun stack rest _ => stepScalar_word h rest stack

theorem reads_text (s : String) : Reads (writeText (Text.ofString s)) (.text (Text.ofString s)) := by
  intro stack before rest hb _
  obtain ⟨body, htext, hscan⟩ := exists_body s
  rw [htext]
  refine resume_more ?_
  rw [List.cons_append, step, skip_spaces hb (by decide), stepValue, if_pos rfl, stepText, hscan]

/-! ### Arrays and objects -/

theorem follows_newLine (depth : Nat) (cs : List Char) : Follows (newLine depth ++ cs) := by
  intro c hc
  cases hc
  exact .inr rfl

/-- What stands behind one item of an array or object. -/
def moreItems (close : Char) (depth : Nat) (texts : List (List Char)) (rest : List Char) :
    List Char :=
  texts.flatMap (fun i => ',' :: newLine (depth + 1) ++ i) ++ (newLine depth ++ close :: rest)

theorem follows_moreItems (close : Char) (depth : Nat) (texts : List (List Char))
    (rest : List Char) : Follows (moreItems close depth texts rest) := by
  cases texts with
  | nil => exact follows_newLine depth _
  | cons text texts =>
    intro c hc
    cases hc
    exact .inl rfl

theorem moreItems_cons (close : Char) (depth : Nat) (text : List Char) (texts : List (List Char))
    (rest : List Char) :
    moreItems close depth (text :: texts) rest =
      ',' :: (newLine (depth + 1) ++ (text ++ moreItems close depth texts rest)) := by
  simp [moreItems]

theorem bracket_cons (opening close : Char) (depth : Nat) (text : List Char)
    (texts : List (List Char)) (rest : List Char) :
    bracket opening close depth (text :: texts) ++ rest =
      opening :: (newLine (depth + 1) ++ (text ++ moreItems close depth texts rest)) := by
  simp [bracket, moreItems]

theorem resume_items {depth : Nat} {items : List Json}
    (h : ∀ j ∈ items, Reads (j.writeChars (depth + 1)) j) (j : Json) (done : List Json)
    (stack : List Frame) (rest : List Char) :
    resume (.after j) (.items done :: stack)
        (moreItems ']' depth (writeItems (depth + 1) items) rest) =
      resume (.after (.array ((j :: done).reverse ++ items))) stack rest := by
  induction items generalizing j done with
  | nil =>
    refine resume_more ?_
    rw [writeItems, moreItems, List.flatMap_nil, List.nil_append, step,
      skip_spaces (spaces_newLine depth) (by decide), stepInside, if_pos rfl, List.append_nil]
  | cons k items ih =>
    obtain ⟨hk, hitems⟩ := List.forall_mem_cons.mp h
    have hcomma : resume (.after j) (.items done :: stack)
        (moreItems ']' depth (writeItems (depth + 1) (k :: items)) rest) =
        resume .value (.items (j :: done) :: stack) (newLine (depth + 1) ++
          (k.writeChars (depth + 1) ++ moreItems ']' depth (writeItems (depth + 1) items) rest)) := by
      refine resume_more ?_
      rw [writeItems, moreItems_cons, step, skip_cons (by decide), stepInside, if_neg (by decide),
        if_pos rfl]
    rw [hcomma, hk _ _ _ (spaces_newLine _) (follows_moreItems _ _ _ _), ih hitems]
    simp

theorem reads_array {depth : Nat} {items : List Json}
    (h : ∀ j ∈ items, Reads (j.writeChars (depth + 1)) j)
    (hb : ∀ j ∈ items, Begins (j.writeChars (depth + 1))) :
    Reads (bracket '[' ']' depth (writeItems (depth + 1) items)) (.array items) := by
  intro stack before rest hbefore _
  cases items with
  | nil =>
    refine resume_more ?_
    rw [writeItems, bracket, List.cons_append, List.cons_append, List.nil_append, step,
      skip_spaces hbefore (by decide), stepValue, if_neg (by decide), if_neg (by decide),
      if_pos rfl, skip_cons (by decide), stepArray, if_pos rfl]
  | cons j items =>
    obtain ⟨hj, hitems⟩ := List.forall_mem_cons.mp h
    obtain ⟨c, cs, htext, hspace, hclose, -⟩ := hb j List.mem_cons_self
    have hopen : resume .value stack (before ++
        (bracket '[' ']' depth (writeItems (depth + 1) (j :: items)) ++ rest)) =
        resume .value (.items [] :: stack) (j.writeChars (depth + 1) ++
          moreItems ']' depth (writeItems (depth + 1) items) rest) := by
      refine resume_more ?_
      rw [writeItems, bracket_cons, step, skip_spaces hbefore (by decide), stepValue,
        if_neg (by decide), if_neg (by decide), if_pos rfl, htext, List.cons_append,
        skip_spaces (spaces_newLine _) hspace, stepArray, if_neg hclose]
    rw [hopen, hj.here (follows_moreItems _ _ _ _), resume_items hitems]
    rfl

/-- A name and the value after it. -/
theorem resume_member {name : String} {text : List Char} {j : Json} (h : Reads text j)
    (done : List (Text × Json)) (stack : List Frame) {before rest : List Char}
    (hb : Spaces before) (hr : Follows rest) :
    resume (.member done) stack
        (before ++ ((writeText (Text.ofString name) ++ ':' :: ' ' :: text) ++ rest)) =
      resume (.after j) (.members done (Text.ofString name) :: stack) rest := by
  obtain ⟨body, htext, hscan⟩ := exists_body name
  have hname : resume (.member done) stack
      (before ++ ((writeText (Text.ofString name) ++ ':' :: ' ' :: text) ++ rest)) =
      resume .value (.members done (Text.ofString name) :: stack) ([' '] ++ (text ++ rest)) := by
    refine resume_more ?_
    rw [htext, List.cons_append, List.cons_append, step, skip_spaces hb (by decide), stepMember,
      if_pos rfl, List.append_assoc, hscan]
    dsimp only
    rw [List.cons_append, skip_cons (by decide), stepColon, if_pos rfl]
    rfl
  rw [hname, h _ _ _ (by simp [Spaces, isSpace]) hr]

theorem setField_of_not_mem {key : Text} {value : Json} {fields : List (Text × Json)}
    (h : key ∉ fields.map Prod.fst) : setField key value fields = fields ++ [(key, value)] := by
  induction fields with
  | nil => rfl
  | cons f fields ih =>
    obtain ⟨k, v⟩ := f
    simp only [List.map_cons, List.mem_cons, not_or] at h
    rw [setField, if_neg (Ne.symm h.1), ih h.2]
    rfl

theorem ofPairs_of_nodup {pairs : List (Text × Json)} (h : (pairs.map Prod.fst).Nodup) :
    ofPairs pairs = .object pairs := by
  have hfold : ∀ fields : List (Text × Json), ((fields ++ pairs).map Prod.fst).Nodup →
      pairs.foldl (fun fields p => setField p.1 p.2 fields) fields = fields ++ pairs := by
    induction pairs with
    | nil => simp
    | cons p pairs ih =>
      intro fields hn
      obtain ⟨k, v⟩ := p
      have hsplit : fields ++ (k, v) :: pairs = fields ++ [(k, v)] ++ pairs := by simp
      rw [hsplit] at hn ⊢
      have hk : k ∉ fields.map Prod.fst := by
        rw [List.map_append, List.map_append] at hn
        have hleft := (List.nodup_append.mp hn).1
        exact fun hm => (List.nodup_append.mp hleft).2.2 k hm k (by simp) rfl
      rw [List.foldl_cons, setField_of_not_mem hk]
      exact ih (List.nodup_cons.mp h).2 _ hn
  rw [ofPairs, hfold [] h]
  rfl

theorem resume_members {depth : Nat} {fields : List (Text × Json)}
    (hname : ∀ f ∈ fields, ∃ s, f.1 = Text.ofString s)
    (h : ∀ f ∈ fields, Reads (f.2.writeChars (depth + 1)) f.2) (j : Json)
    (done : List (Text × Json)) (key : Text) (stack : List Frame) (rest : List Char) :
    resume (.after j) (.members done key :: stack)
        (moreItems '\x7d' depth (writeFields (depth + 1) fields) rest) =
      resume (.after (ofPairs (((key, j) :: done).reverse ++ fields))) stack rest := by
  induction fields generalizing j done key with
  | nil =>
    refine resume_more ?_
    rw [writeFields, moreItems, List.flatMap_nil, List.nil_append, step,
      skip_spaces (spaces_newLine depth) (by decide), stepInside, if_pos rfl, List.append_nil]
  | cons f fields ih =>
    obtain ⟨k, v⟩ := f
    obtain ⟨hv, hfields⟩ := List.forall_mem_cons.mp h
    obtain ⟨⟨s, rfl⟩, hnames⟩ := List.forall_mem_cons.mp hname
    have hcomma : resume (.after j) (.members done key :: stack)
        (moreItems '\x7d' depth (writeFields (depth + 1) ((Text.ofString s, v) :: fields)) rest) =
        resume (.member ((key, j) :: done)) stack (newLine (depth + 1) ++
          ((writeText (Text.ofString s) ++ ':' :: ' ' :: v.writeChars (depth + 1)) ++
            moreItems '\x7d' depth (writeFields (depth + 1) fields) rest)) := by
      refine resume_more ?_
      rw [writeFields, moreItems_cons, step, skip_cons (by decide), stepInside, if_neg (by decide),
        if_pos rfl]
    rw [hcomma, resume_member hv _ _ (spaces_newLine _) (follows_moreItems _ _ _ _),
      ih hnames hfields]
    simp

theorem reads_object {depth : Nat} {fields : List (Text × Json)}
    (hdistinct : (fields.map Prod.fst).Nodup) (hname : ∀ f ∈ fields, ∃ s, f.1 = Text.ofString s)
    (h : ∀ f ∈ fields, Reads (f.2.writeChars (depth + 1)) f.2) :
    Reads (bracket '\x7b' '\x7d' depth (writeFields (depth + 1) fields)) (.object fields) := by
  intro stack before rest hbefore _
  cases fields with
  | nil =>
    refine resume_more ?_
    rw [writeFields, bracket, List.cons_append, List.cons_append, List.nil_append, step,
      skip_spaces hbefore (by decide), stepValue, if_neg (by decide), if_pos rfl,
      skip_cons (by decide), stepObject, if_pos rfl]
  | cons f fields =>
    obtain ⟨k, v⟩ := f
    obtain ⟨hv, hfields⟩ := List.forall_mem_cons.mp h
    obtain ⟨⟨s, rfl⟩, hnames⟩ := List.forall_mem_cons.mp hname
    obtain ⟨body, htext, -⟩ := exists_body s
    have hopen : resume .value stack (before ++
        (bracket '\x7b' '\x7d' depth (writeFields (depth + 1) ((Text.ofString s, v) :: fields)) ++
          rest)) =
        resume (.member []) stack ([] ++
          ((writeText (Text.ofString s) ++ ':' :: ' ' :: v.writeChars (depth + 1)) ++
            moreItems '\x7d' depth (writeFields (depth + 1) fields) rest)) := by
      refine resume_more ?_
      rw [writeFields, bracket_cons, step, skip_spaces hbefore (by decide), stepValue,
        if_neg (by decide), if_pos rfl, htext, List.cons_append, List.cons_append,
        skip_spaces (spaces_newLine _) (by decide), stepObject, if_neg (by decide)]
      rfl
    rw [hopen, resume_member hv _ _ (by simp [Spaces]) (follows_moreItems _ _ _ _),
      resume_members hnames hfields, List.reverse_singleton, List.singleton_append,
      ofPairs_of_nodup hdistinct]

/-! ### All values -/

theorem IsScalar.begins {text : List Char} (h : IsScalar text) : Begins text := by
  obtain ⟨c, cs, rfl⟩ := List.exists_cons_of_ne_nil h.ne
  have hne : ∀ {d}, isScalarChar d = false → c ≠ d :=
    ne_of_isScalarChar (h.chars c List.mem_cons_self)
  refine ⟨c, cs, rfl, ?_, hne rfl, hne rfl⟩
  simp [isSpace, hne (d := ' ') rfl, hne (d := '\t') rfl, hne (d := '\n') rfl,
    hne (d := '\r') rfl]

theorem begins_bracket {opening close : Char} (ho : isSpace opening = false) (hc : opening ≠ ']')
    (hm : opening ≠ '\uFEFF') (depth : Nat) (texts : List (List Char)) :
    Begins (bracket opening close depth texts) := by
  cases texts with
  | nil => exact ⟨opening, _, rfl, ho, hc, hm⟩
  | cons text texts => exact ⟨opening, _, rfl, ho, hc, hm⟩

theorem begins_writeChars (j : Json) (depth : Nat) : Begins (j.writeChars depth) := by
  cases j with
  | null => exact (isScalar_word null_mem_words).begins
  | boolean b => exact (isScalar_word (boolean_mem_words b)).begins
  | integer n => exact (isScalar_integer n).begins
  | float x => exact (isScalar_float x).begins
  | text t => exact ⟨'"', _, rfl, by decide, by decide, by decide⟩
  | array items => exact begins_bracket (by decide) (by decide) (by decide) depth _
  | object fields => exact begins_bracket (by decide) (by decide) (by decide) depth _

/-- By induction on the value; the reader's open frames and the indentation are arbitrary. -/
theorem reads_writeChars {j : Json} (h : Writable j) (depth : Nat) :
    Reads (j.writeChars depth) j := by
  induction h generalizing depth with
  | null => exact reads_word null_mem_words
  | boolean b => exact reads_word (boolean_mem_words b)
  | @integer n hn =>
    exact reads_scalar (isScalar_integer n) fun stack rest hr => stepScalar_integer hn hr stack
  | float x =>
    exact reads_scalar (isScalar_float x) fun stack rest hr => stepScalar_float x hr stack
  | text s => exact reads_text s
  | array _ ih =>
    exact reads_array (fun j hj => ih j hj _) fun j _ => begins_writeChars j _
  | object hdistinct hname _ ih => exact reads_object hdistinct hname fun f hf => ih f hf _

theorem readChars_writeChars {j : Json} (h : Writable j) : readChars (j.writeChars 0) = .ok j := by
  obtain ⟨c, cs, htext, -, -, hmark⟩ := begins_writeChars j 0
  have hfollows : Follows [] := by simp [Follows]
  have hread := (reads_writeChars h 0).here hfollows []
  have hend : resume (.after j) [] [] = .ok (j, []) := resume_result rfl
  rw [List.append_nil, hend] at hread
  rw [readChars, if_neg, hread]
  · rfl
  · rw [htext]
    simpa using hmark

theorem read_write {j : Json} (h : Writable j) : read j.write = .ok j := by
  rw [read, write, String.toList_ofList, readChars_writeChars h]

/-! ### Carriage returns -/

theorem IsScalar.return_not_mem {text : List Char} (h : IsScalar text) : '\r' ∉ text :=
  fun hm => ne_of_isScalarChar (h.chars _ hm) (by decide) rfl

theorem return_not_mem_newLine (depth : Nat) : '\r' ∉ newLine depth := by
  simp [newLine]

theorem return_not_mem_moreItems {close : Char} (hc : close ≠ '\r') (depth : Nat)
    {texts : List (List Char)} (h : ∀ text ∈ texts, '\r' ∉ text) :
    '\r' ∉ moreItems close depth texts [] := by
  induction texts with
  | nil => simp [moreItems, return_not_mem_newLine, Ne.symm hc]
  | cons text texts ih =>
    obtain ⟨htext, htexts⟩ := List.forall_mem_cons.mp h
    rw [moreItems_cons]
    simp [return_not_mem_newLine, htext, ih htexts]

theorem return_not_mem_bracket {opening close : Char} (ho : opening ≠ '\r') (hc : close ≠ '\r')
    (depth : Nat) {texts : List (List Char)} (h : ∀ text ∈ texts, '\r' ∉ text) :
    '\r' ∉ bracket opening close depth texts := by
  cases texts with
  | nil => simp [bracket, Ne.symm ho, Ne.symm hc]
  | cons text texts =>
    obtain ⟨htext, htexts⟩ := List.forall_mem_cons.mp h
    rw [← List.append_nil (bracket _ _ _ _), bracket_cons]
    simp [return_not_mem_newLine, Ne.symm ho, htext, return_not_mem_moreItems hc depth htexts]

theorem writeItems_eq_map (depth : Nat) (items : List Json) :
    writeItems depth items = items.map (writeChars depth) := by
  induction items with
  | nil => rfl
  | cons j items ih => rw [writeItems, ih, List.map_cons]

theorem writeFields_eq_map (depth : Nat) (fields : List (Text × Json)) :
    writeFields depth fields =
      fields.map fun f => writeText f.1 ++ ':' :: ' ' :: f.2.writeChars depth := by
  induction fields with
  | nil => rfl
  | cons f fields ih =>
    obtain ⟨k, j⟩ := f
    rw [writeFields, ih, List.map_cons]

/-- Reading a file as text leaves what was written as it is. -/
theorem return_not_mem_writeChars {j : Json} (h : Writable j) (depth : Nat) :
    '\r' ∉ j.writeChars depth := by
  induction h generalizing depth with
  | null => exact (isScalar_word null_mem_words).return_not_mem
  | boolean b => exact (isScalar_word (boolean_mem_words b)).return_not_mem
  | @integer n _ => exact (isScalar_integer n).return_not_mem
  | float x => exact (isScalar_float x).return_not_mem
  | text s => exact return_not_mem_writeText s
  | array _ ih =>
    refine return_not_mem_bracket (by decide) (by decide) depth fun text htext => ?_
    rw [writeItems_eq_map] at htext
    obtain ⟨j, hj, rfl⟩ := List.mem_map.mp htext
    exact ih j hj _
  | object _ hname _ ih =>
    refine return_not_mem_bracket (by decide) (by decide) depth fun text htext => ?_
    rw [writeFields_eq_map] at htext
    obtain ⟨f, hf, rfl⟩ := List.mem_map.mp htext
    obtain ⟨s, hs⟩ := hname f hf
    rw [hs]
    simp [return_not_mem_writeText, ih f hf]

end StackLang.Json
