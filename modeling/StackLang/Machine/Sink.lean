import StackLang.Text.Utf8

/-! Where a program prints to: memory, or bytes in UTF-8. There may be no bytes for halves of
surrogate pairs, or only for some of them; text that holds another one is refused. -/

namespace StackLang

structure Sink where
  /-- Why a text is not taken, if it is not. -/
  refusal? : Text → Option Text.EncodeError
  /-- No string is refused. -/
  refusal?_ofString (s : String) : refusal? (Text.ofString s) = none

namespace Sink

attribute [simp] refusal?_ofString

/-- Keeps any text. -/
def memory : Sink := ⟨fun _ => none, fun _ => rfl⟩

/-- Has no bytes for any half. -/
def encoded : Sink :=
  ⟨fun t => Text.findHalves? 0 t.codes, fun s => Text.findHalves?_map_char 0 s.toList⟩

def TakesAll (sink : Sink) : Prop := ∀ t, sink.refusal? t = none

theorem takesAll_memory : memory.TakesAll := fun _ => rfl

end Sink

end StackLang
