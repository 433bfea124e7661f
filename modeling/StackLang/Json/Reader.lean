import StackLang.Json.Scan

/-! JSON text to values. The reader keeps what is still open on a stack of its own and reads at
least one character at each step. The first problem is reported with its place in the text. -/

namespace StackLang

namespace Json

/-- An array or object that is still open, its finished parts newest first. -/
inductive Frame where
  | items (done : List Json)
  | members (done : List (Text × Json)) (key : Text)

/-- What has to come next, or has just been read. -/
inductive Mode where
  | value
  | member (done : List (Text × Json))
  | after (j : Json)

inductive Step where
  | more (mode : Mode) (stack : List Frame) (rest : List Char)
  | result (j : Json) (rest : List Char)
  | bad (stop : Stop)

def stepScalar (stack : List Frame) (cs : List Char) : Step :=
  match scanWord? cs with
  | some (j, rest) => .more (.after j) stack rest
  | none =>
    match scanNumber cs with
    | .ok (j, rest) => .more (.after j) stack rest
    | .error stop => .bad stop

def stepText (stack : List Frame) (start cs : List Char) : Step :=
  match scanQuoted start cs with
  | .ok (codes, rest) => .more (.after (text ⟨codes⟩)) stack rest
  | .error stop => .bad stop

def stepObject (stack : List Frame) (cs : List Char) : Step :=
  match cs with
  | [] => .more (.member []) stack []
  | c :: rest =>
    if c = '}' then .more (.after (object [])) stack rest else .more (.member []) stack (c :: rest)

def stepArray (stack : List Frame) (cs : List Char) : Step :=
  match cs with
  | [] => .more .value (.items [] :: stack) []
  | c :: rest =>
    if c = ']' then .more (.after (array [])) stack rest
    else .more .value (.items [] :: stack) (c :: rest)

def stepValue (stack : List Frame) (cs : List Char) : Step :=
  match cs with
  | [] => .bad (.at .value [])
  | c :: rest =>
    if c = '"' then stepText stack (c :: rest) rest
    else if c = '\x7b' then stepObject stack (skip rest)
    else if c = '[' then stepArray stack (skip rest)
    else stepScalar stack (c :: rest)

def stepColon (done : List (Text × Json)) (key : Text) (stack : List Frame)
    (cs : List Char) : Step :=
  match cs with
  | [] => .bad (.at .colon [])
  | c :: rest =>
    if c = ':' then .more .value (.members done key :: stack) rest
    else .bad (.at .colon (c :: rest))

def stepMember (done : List (Text × Json)) (stack : List Frame) (cs : List Char) : Step :=
  match cs with
  | [] => .bad (.at .name [])
  | c :: rest =>
    if c = '"' then
      match scanQuoted (c :: rest) rest with
      | .ok (codes, after) => stepColon done ⟨codes⟩ stack (skip after)
      | .error stop => .bad stop
    else .bad (.at .name (c :: rest))

/-- Goes on after the value `j` inside the innermost frame. -/
def stepInside (j : Json) (frame : Frame) (stack : List Frame) (cs : List Char) : Step :=
  match cs, frame with
  | [], _ => .bad (.at .comma [])
  | c :: rest, .items done =>
    if c = ']' then .more (.after (array (j :: done).reverse)) stack rest
    else if c = ',' then .more .value (.items (j :: done) :: stack) rest
    else .bad (.at .comma (c :: rest))
  | c :: rest, .members done key =>
    if c = '}' then .more (.after (ofPairs ((key, j) :: done).reverse)) stack rest
    else if c = ',' then .more (.member ((key, j) :: done)) stack rest
    else .bad (.at .comma (c :: rest))

def step (mode : Mode) (stack : List Frame) (cs : List Char) : Step :=
  match mode, stack with
  | .value, _ => stepValue stack (skip cs)
  | .member done, _ => stepMember done stack (skip cs)
  | .after j, [] => .result j cs
  | .after j, frame :: stack => stepInside j frame stack (skip cs)

def Step.rest? : Step → Option (List Char)
  | more _ _ rest => some rest
  | _ => none

theorem stepScalar_lt {stack : List Frame} {cs rest : List Char}
    (h : (stepScalar stack cs).rest? = some rest) : rest.length < cs.length := by
  unfold stepScalar at h
  split at h
  · rename_i hw
    cases h
    exact length_scanWord?_lt hw
  · split at h
    · rename_i hn
      cases h
      exact length_scanNumber_lt hn
    · simp [Step.rest?] at h

theorem stepText_lt {stack : List Frame} {start cs rest : List Char}
    (h : (stepText stack start cs).rest? = some rest) : rest.length < cs.length := by
  unfold stepText at h
  split at h
  · rename_i hq
    cases h
    exact length_scanQuoted_lt hq
  · simp [Step.rest?] at h

theorem stepObject_le {stack : List Frame} {cs rest : List Char}
    (h : (stepObject stack cs).rest? = some rest) : rest.length ≤ cs.length := by
  unfold stepObject at h
  repeat' split at h
  all_goals (cases h; simp)

theorem stepArray_le {stack : List Frame} {cs rest : List Char}
    (h : (stepArray stack cs).rest? = some rest) : rest.length ≤ cs.length := by
  unfold stepArray at h
  repeat' split at h
  all_goals (cases h; simp)

theorem stepValue_lt {stack : List Frame} {cs rest : List Char}
    (h : (stepValue stack cs).rest? = some rest) : rest.length < cs.length := by
  unfold stepValue at h
  split at h
  · simp [Step.rest?] at h
  · rename_i c r
    split at h
    · exact Nat.lt_succ_of_lt (stepText_lt h)
    · split at h
      · exact Nat.lt_succ_of_le (Nat.le_trans (stepObject_le h) (length_skip_le r))
      · split at h
        · exact Nat.lt_succ_of_le (Nat.le_trans (stepArray_le h) (length_skip_le r))
        · exact stepScalar_lt h

theorem stepColon_lt {done : List (Text × Json)} {key : Text} {stack : List Frame}
    {cs rest : List Char} (h : (stepColon done key stack cs).rest? = some rest) :
    rest.length < cs.length := by
  unfold stepColon at h
  split at h
  · simp [Step.rest?] at h
  · split at h
    · cases h
      simp
    · simp [Step.rest?] at h

theorem stepMember_lt {done : List (Text × Json)} {stack : List Frame} {cs rest : List Char}
    (h : (stepMember done stack cs).rest? = some rest) : rest.length < cs.length := by
  unfold stepMember at h
  split at h
  · simp [Step.rest?] at h
  · split at h
    · split at h
      · rename_i r _ s after hq
        have h1 := stepColon_lt h
        have h2 := length_skip_le after
        have h3 := length_scanQuoted_lt hq
        simp only [List.length_cons]
        omega
      · simp [Step.rest?] at h
    · simp [Step.rest?] at h

theorem stepInside_lt {j : Json} {frame : Frame} {stack : List Frame} {cs rest : List Char}
    (h : (stepInside j frame stack cs).rest? = some rest) : rest.length < cs.length := by
  unfold stepInside at h
  repeat' split at h
  all_goals first
    | (cases h; simp)
    | simp [Step.rest?] at h

theorem step_lt {mode : Mode} {stack : List Frame} {cs rest : List Char}
    (h : (step mode stack cs).rest? = some rest) : rest.length < cs.length := by
  unfold step at h
  split at h
  · exact Nat.lt_of_lt_of_le (stepValue_lt h) (length_skip_le cs)
  · exact Nat.lt_of_lt_of_le (stepMember_lt h) (length_skip_le cs)
  · simp [Step.rest?] at h
  · exact Nat.lt_of_lt_of_le (stepInside_lt h) (length_skip_le cs)

/-- Reads on until the outermost value is complete. -/
def resume (mode : Mode) (stack : List Frame) (cs : List Char) :
    Except Stop (Json × List Char) :=
  match h : step mode stack cs with
  | .bad stop => .error stop
  | .result j rest => .ok (j, rest)
  | .more mode' stack' rest =>
    have : rest.length < cs.length := step_lt (by rw [h]; rfl)
    resume mode' stack' rest
termination_by cs.length

/-- The value that is the whole text. -/
def readChars (cs : List Char) : Except Stop Json :=
  if cs.head? = some '\uFEFF' then .error (.at .byteOrderMark cs)
  else
    match resume .value [] cs with
    | .error stop => .error stop
    | .ok (j, rest) => if skip rest = [] then .ok j else .error (.at .extra (skip rest))

end Json

inductive JsonError where
  /-- Lines and columns count from 1, the offset from 0. -/
  | malformed (problem : Json.Problem) (line column offset : Nat)
  | tooManyDigits (digits : Nat)
deriving DecidableEq

def JsonError.message : JsonError → String
  | malformed problem line column offset =>
    problem.message ++ ": line " ++ toString line ++ " column " ++ toString column ++ " (char " ++
      toString offset ++ ")"
  | tooManyDigits digits => tooManyDigitsMessage digits

/-- Finds the place where only `rest` is left of the text. -/
def JsonError.locate (cs : List Char) (problem : Json.Problem) (rest : List Char) : JsonError :=
  let before := cs.take (cs.length - rest.length)
  .malformed problem (before.count '\n' + 1)
    ((before.reverse.takeWhile (· != '\n')).length + 1) before.length

def Json.read (s : String) : Except JsonError Json :=
  match readChars s.toList with
  | .ok j => .ok j
  | .error (.tooManyDigits digits) => .error (.tooManyDigits digits)
  | .error (.at problem rest) => .error (.locate s.toList problem rest)

end StackLang
