import StackLang.Fault
import StackLang.Text.Utf8

/-! How a step ends. A failed step, too, leaves a state behind. -/

namespace StackLang

/-- Something in a tree that nobody checked stands where it cannot be used. The strings name its
type as messages do. -/
inductive Unsupported where
  | statement (typeName : String)
  | expression (typeName : String)
  /-- A literal without a value. -/
  | literal
  /-- Only a program has a body to run. -/
  | noBody (typeName : String)
deriving DecidableEq

def Unsupported.message : Unsupported → String
  | statement typeName => "execute: unexpected node type <class '" ++ typeName ++ "'>"
  | expression typeName => "evaluate: unexpected node type <class '" ++ typeName ++ "'>"
  | literal => ""
  | noBody typeName => "'" ++ typeName ++ "' object has no attribute 'body'"

inductive Failure where
  | fault (f : Fault) (line : Option Int)
  /-- An integer was too long to be shown. -/
  | digitLimit
  /-- Text that was to be shown holds half of a surrogate pair. -/
  | unencodable (e : Text.EncodeError)
  | unsupported (u : Unsupported)
deriving DecidableEq

inductive Outcome (σ : Type) where
  | ok (state : σ)
  | failed (f : Failure) (state : σ)
deriving DecidableEq

namespace Outcome

variable {σ τ : Type}

def state : Outcome σ → σ
  | ok s | failed _ s => s

def failure? : Outcome σ → Option Failure
  | ok _ => none
  | failed f _ => some f

def map (f : σ → τ) : Outcome σ → Outcome τ
  | ok s => ok (f s)
  | failed e s => failed e (f s)

/-- Goes on only after success. -/
def andThen (o : Outcome σ) (next : σ → Outcome σ) : Outcome σ :=
  match o with
  | ok s => next s
  | failed f s => failed f s

@[simp] theorem andThen_ok (s : σ) (next : σ → Outcome σ) : (ok s).andThen next = next s := rfl

@[simp] theorem andThen_failed (f : Failure) (s : σ) (next : σ → Outcome σ) :
    (failed f s).andThen next = failed f s := rfl

theorem andThen_assoc (o : Outcome σ) (f g : σ → Outcome σ) :
    (o.andThen f).andThen g = o.andThen fun s => (f s).andThen g := by
  cases o <;> rfl

@[simp] theorem state_map (f : σ → τ) (o : Outcome σ) : (o.map f).state = f o.state := by
  cases o <;> rfl

end Outcome

end StackLang
