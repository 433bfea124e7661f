import Mathlib.Data.List.Basic
import StackLang.Command.Files
import StackLang.Machine.Locals

/-! # Files in a tree

What a path leads to, and what a write changes: a file whose directory is there can be put into the
tree, and then every other path leads where it led before. -/

namespace StackLang.FileTree

variable {t t' : FileTree}

theorem isDirectory_iff {names : List String} :
    t.isDirectory names = true ↔
      names = [] ∨ ∃ f ∈ t.files, names <+: f.1 ∧ names.length < f.1.length := by
  simp [isDirectory]

theorem isDirectory_of_isPrefix {names more : List String} (h : t.isDirectory more = true)
    (hp : names <+: more) : t.isDirectory names = true := by
  rw [isDirectory_iff] at h ⊢
  rcases h with rfl | ⟨f, hf, hmore, hlen⟩
  · exact .inl (List.prefix_nil.mp hp)
  · exact .inr ⟨f, hf, hp.trans hmore, Nat.lt_of_le_of_lt hp.length_le hlen⟩

/-! ### Paths -/

/-- Where paths lead depends on the directories only. -/
theorem resolve_congr (h : ∀ names, t'.isDirectory names = t.isDirectory names) (p : Path) :
    t'.resolve p = t.resolve p := by
  have hdescend : t'.descend = t.descend := by
    funext place name
    cases place with
    | outside => rfl
    | within names => simp only [descend, h]
  rw [resolve, resolve, hdescend]

theorem descend_within {place : Place} {name : String} {names : List String}
    (h : t.descend place name = .ok (.within names)) (hn : t.isDirectory names = false) :
    ∃ above, place = .within above ∧ t.isDirectory above = true ∧ names = above ++ [name] ∧
      name ≠ ".." := by
  cases place with
  | outside =>
    rw [descend] at h
    split at h <;> cases h
  | within above =>
    have habove : t.isDirectory above = true := by
      by_contra hf
      rw [descend, if_pos ((Bool.not_eq_true _).mp hf)] at h
      cases h
    rw [descend, if_neg (by simp [habove])] at h
    split at h
    · have hplace := Except.ok.inj h
      split at hplace
      · cases hplace
      · cases hplace
        rw [isDirectory_of_isPrefix habove (List.dropLast_prefix above)] at hn
        cases hn
    · split at h
      · cases h
      · cases h
        exact ⟨above, rfl, habove, rfl, ‹_›⟩

theorem descend_of_directory {above : List String} {name : String}
    (h : t.isDirectory above = true) (hdots : name ≠ "..")
    (hlong : t.descend (.within above) name ≠ .error .tooLong) :
    t.descend (.within above) name = .ok (.within (above ++ [name])) := by
  rw [descend, if_neg (by simp [h]), if_neg hdots] at hlong ⊢
  split
  · rw [if_pos ‹_›] at hlong
    exact absurd rfl hlong
  · rfl

/-- Where a path starts from. -/
def startOf (p : Path) : Place := if p.root = "" then .within [] else .outside

theorem resolve_eq {p : Path} (h : t.resolve p ≠ .error .tooLong) :
    t.resolve p = p.names.foldlM t.descend (startOf p) := by
  unfold resolve at h ⊢
  split
  · rw [if_pos ‹_›] at h
    exact absurd rfl h
  · rfl

theorem foldlM_snoc (init : List String) (last : String) (place : Place) :
    (init ++ [last]).foldlM t.descend place =
      init.foldlM t.descend place >>= fun above => t.descend above last := by
  simp [List.foldlM_append]

/-- What is no directory stands in one. -/
theorem resolve_within {p : Path} {names : List String} (h : t.resolve p = .ok (.within names))
    (hn : t.isDirectory names = false) :
    ∃ init last above, p.names = init ++ [last] ∧ names = above ++ [last] ∧
      t.isDirectory above = true ∧ init.foldlM t.descend (startOf p) = .ok (.within above) := by
  rw [resolve_eq (by simp [h])] at h
  rcases List.eq_nil_or_concat p.names with hnil | ⟨init, last, hlast⟩
  · rw [hnil, List.foldlM_nil, startOf] at h
    split at h
    · cases h
      simp [isDirectory] at hn
    · cases h
  · rw [hlast, List.concat_eq_append, foldlM_snoc] at h
    cases hinit : init.foldlM t.descend (startOf p) with
    | error e =>
      rw [hinit] at h
      cases h
    | ok place =>
      rw [hinit] at h
      obtain ⟨above, rfl, habove, rfl, -⟩ := descend_within h hn
      exact ⟨init, last, above, by rw [hlast, List.concat_eq_append], rfl, habove, hinit⟩

/-- The file beside a file stands in the same directory. -/
theorem resolve_extended {p : Path} {names : List String} {ending : String}
    (h : t.resolve p = .ok (.within names)) (hn : t.isDirectory names = false)
    (hdots : ∀ s : String, s ++ ending ≠ "..")
    (hlong : t.resolve (p.extended ending) ≠ .error .tooLong) :
    ∃ above last, names = above ++ [last] ∧ t.isDirectory above = true ∧
      t.resolve (p.extended ending) = .ok (.within (above ++ [last ++ ending])) := by
  obtain ⟨init, last, above, hnames, rfl, habove, hinit⟩ := resolve_within h hn
  have hext : (p.extended ending).names = init ++ [last ++ ending] := by
    simp [Path.extended, hnames]
  have hstart : startOf (p.extended ending) = startOf p := rfl
  refine ⟨above, last, rfl, habove, ?_⟩
  have hdescend : t.resolve (p.extended ending) = t.descend (.within above) (last ++ ending) := by
    rw [resolve_eq hlong, hext, hstart, foldlM_snoc, hinit]
    rfl
  rw [hdescend] at hlong ⊢
  exact descend_of_directory habove (hdots last) hlong

/-! ### Entries -/

theorem under?_eq_file {p : Path} {bytes : List UInt8} :
    t.under? p = some (.file bytes) ↔
      ∃ names, t.resolve p = .ok (.within names) ∧ t.isDirectory names = false ∧
        t.files.lookup names = some bytes := by
  unfold under?
  constructor
  · intro h
    split at h
    · cases h
    · cases h
    · cases h
    · rename_i names hnames
      split at h
      · cases h
      · obtain ⟨b, hb, he⟩ := Option.map_eq_some_iff.mp h
        cases he
        exact ⟨names, hnames, (Bool.not_eq_true _).mp ‹_›, hb⟩
  · intro h
    obtain ⟨names, hnames, hdir, hlookup⟩ := h
    rw [hnames]
    dsimp only
    rw [if_neg (by simp [hdir]), hlookup]
    rfl

/-- A path leads to the same entry in trees with the same directories, if the file there is the
same. -/
theorem under?_congr (h : ∀ names, t'.isDirectory names = t.isDirectory names) {p : Path}
    (hfile : ∀ names, t.resolve p = .ok (.within names) →
      t'.files.lookup names = t.files.lookup names) : t'.under? p = t.under? p := by
  unfold under?
  rw [resolve_congr h]
  cases hp : t.resolve p with
  | error e => cases e <;> rfl
  | ok place =>
    cases place with
    | outside => rfl
    | within names => simp only [h, hfile names hp]

theorem under?_directory_congr (h : ∀ names, t'.isDirectory names = t.isDirectory names)
    (p : Path) : t'.under? p = some .directory ↔ t.under? p = some .directory := by
  unfold under?
  rw [resolve_congr h]
  cases hp : t.resolve p with
  | error e => cases e <;> simp
  | ok place =>
    cases place with
    | outside => simp
    | within names =>
      simp only [h]
      split <;> simp

/-! ### Putting a file into a directory -/

theorem lookup_put (t : FileTree) (names : List String) (bytes : List UInt8) (x : List String) :
    (t.put names bytes).files.lookup x = if x = names then some bytes else t.files.lookup x := by
  rw [put, List.lookup_append, Locals.lookup_filter_ne]
  split
  · subst x
    simp
  · rw [List.lookup_cons, beq_false_of_ne ‹_›, List.lookup_nil, Option.or_none]

section

variable {above : List String} (habove : t.isDirectory above = true)
include habove

theorem isDirectory_put (last : String) (bytes : List UInt8) (names : List String) :
    (t.put (above ++ [last]) bytes).isDirectory names = t.isDirectory names := by
  rw [Bool.eq_iff_iff, isDirectory_iff]
  constructor
  · rintro (rfl | ⟨f, hf, hp, hlen⟩)
    · exact isDirectory_iff.mpr (.inl rfl)
    · simp only [put, List.mem_append, List.mem_filter, List.mem_singleton] at hf
      rcases hf with hf | rfl
      · exact isDirectory_iff.mpr (.inr ⟨f, hf.1, hp, hlen⟩)
      · rcases List.prefix_concat_iff.mp hp with rfl | hp
        · exact absurd hlen (Nat.lt_irrefl _)
        · exact isDirectory_of_isPrefix habove hp
  · intro h
    rcases isDirectory_iff.mp h with rfl | ⟨f, hf, hp, hlen⟩
    · exact .inl rfl
    · by_cases hname : f.1 = above ++ [last]
      · exact .inr ⟨(above ++ [last], bytes), by simp [put], hname ▸ hp, hname ▸ hlen⟩
      · exact .inr ⟨f, by simp [put, hf, hname], hp, hlen⟩

theorem under?_put_self {p : Path} {last : String} {bytes : List UInt8}
    (hp : t.resolve p = .ok (.within (above ++ [last])))
    (hdir : t.isDirectory (above ++ [last]) = false) :
    (t.put (above ++ [last]) bytes).under? p = some (.file bytes) := by
  refine under?_eq_file.mpr ⟨above ++ [last], ?_, ?_, ?_⟩
  · rw [resolve_congr (isDirectory_put habove last bytes), hp]
  · rw [isDirectory_put habove, hdir]
  · rw [lookup_put, if_pos rfl]

theorem under?_put_ne {p : Path} {last : String} {bytes : List UInt8}
    (hp : t.resolve p ≠ .ok (.within (above ++ [last]))) :
    (t.put (above ++ [last]) bytes).under? p = t.under? p := by
  refine under?_congr (isDirectory_put habove last bytes) fun names hnames => ?_
  rw [lookup_put, if_neg]
  rintro rfl
  exact hp hnames

end

theorem write_eq_put {w : Write} {names : List String}
    (h : t.resolve w.path = .ok (.within names)) : t.write w = t.put names w.bytes := by
  rw [write, h]

end StackLang.FileTree
