import StackLang.Json.Reader
import StackLang.Json.Writer

/-! # Written texts

Quoted text of JSON is read as the characters that it was written from, and it has no carriage return
in it, which reading a file would change. -/

namespace StackLang.Json

open StackLang.Text

/-! ### Hexadecimal escapes -/

theorem hex_four : ∀ n < 0x20,
    hex 4 n = ['0', '0', Nat.digitChar (n / 16), Nat.digitChar (n % 16)] := by
  decide

theorem hexValue?_digitChar : ∀ d < 16, hexValue? (Nat.digitChar d) = some d := by
  decide

theorem scanUnicode?_hex {n : Nat} (h : n < 0x20) {rest : List Char} (hne : rest ≠ []) :
    scanUnicode? (hex 4 n ++ rest) = some (.char (Char.ofNat n), rest) := by
  obtain ⟨e, es, rfl⟩ := List.exists_cons_of_ne_nil hne
  have hunit : scanUnit? (hex 4 n ++ e :: es) = some (n, e :: es) := by
    have hzero : hexValue? '0' = some 0 := rfl
    have hsum : n / 16 * 16 + n % 16 = n := by omega
    simp [hex_four n h, scanUnit?, hzero, hexValue?_digitChar (n / 16) (by omega),
      hexValue?_digitChar (n % 16) (by omega), hsum]
  have hhigh : isHigh n = false := by
    simp [isHigh]
    omega
  have hcode : Code.ofNat n = .char (Char.ofNat n) := by
    rw [Code.ofNat, dif_neg (by omega)]
  rw [scanUnicode?, hunit]
  simp [hhigh, hcode]

/-! ### Pieces -/

theorem scanPiece_simple {start : List Char} {d c : Char} (h : simpleEscapes.lookup d = some c)
    (hu : d ≠ 'u') (rest : List Char) :
    scanPiece start ('\\' :: d :: rest) = .code (.char c) rest := by
  simp [scanPiece, hu, h]

theorem scanPiece_escaped (start : List Char) (c : Char) {rest : List Char} (hne : rest ≠ []) :
    scanPiece start (escaped c ++ rest) = .code (.char c) rest := by
  unfold escaped
  iterate 7
    split
    · subst c
      exact scanPiece_simple rfl (by decide) rest
  split
  · rename_i hlt
    have hu := scanUnicode?_hex hlt hne
    rw [Char.ofNat_toNat] at hu
    simp [scanPiece, hu]
  · simp_all [scanPiece]

/-! ### Whole texts -/

theorem scanQuoted_close {start cs rest : List Char} (h : scanPiece start cs = .close rest) :
    scanQuoted start cs = .ok ([], rest) := by
  rw [scanQuoted]
  split <;> simp_all

theorem scanQuoted_code {start cs rest : List Char} {c : Code}
    (h : scanPiece start cs = .code c rest) :
    scanQuoted start cs = (scanQuoted start rest).map fun r => (c :: r.1, r.2) := by
  rw [scanQuoted]
  split <;> simp_all

theorem scanQuoted_escaped (start cs rest : List Char) :
    scanQuoted start (cs.flatMap escaped ++ '"' :: rest) = .ok (cs.map .char, rest) := by
  induction cs with
  | nil => exact scanQuoted_close (by simp [scanPiece])
  | cons c cs ih =>
    have hne : cs.flatMap escaped ++ '"' :: rest ≠ [] := by simp
    rw [List.flatMap_cons, List.append_assoc, scanQuoted_code (scanPiece_escaped start c hne), ih]
    rfl

theorem writeText_ofString (s : String) :
    writeText (Text.ofString s) = '"' :: (s.toList.flatMap escaped ++ ['"']) := by
  simp [writeText, Text.ofString, List.flatMap_map, escapedCode]

/-- A written string is read from behind its opening quote. -/
theorem exists_body (s : String) :
    ∃ body, writeText (Text.ofString s) = '"' :: body ∧
      ∀ start rest, scanQuoted start (body ++ rest) = .ok ((Text.ofString s).codes, rest) := by
  refine ⟨_, writeText_ofString s, fun start rest => ?_⟩
  rw [List.append_assoc, List.singleton_append, scanQuoted_escaped]
  rfl

/-! ### Carriage returns -/

theorem return_not_mem_hex : ∀ n < 0x20, '\r' ∉ hex 4 n := by
  decide

theorem return_not_mem_escaped (c : Char) : '\r' ∉ escaped c := by
  unfold escaped
  iterate 7
    split
    · decide
  split
  · rename_i hlt
    simp [return_not_mem_hex _ hlt]
  · rw [List.mem_singleton]
    exact Ne.symm ‹¬c = '\r'›

theorem return_not_mem_writeText (s : String) : '\r' ∉ writeText (Text.ofString s) := by
  rw [writeText_ofString]
  simp [return_not_mem_escaped]

end StackLang.Json
