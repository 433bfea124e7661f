import StackLang.Value

/-! The variables of a running program: each name has at most one value, the one set last. -/

namespace StackLang

structure Locals where
  entries : List (Text × Value)
deriving DecidableEq

namespace Locals

def empty : Locals := ⟨[]⟩

def get? (l : Locals) (name : Text) : Option Value := l.entries.lookup name

def erase (l : Locals) (name : Text) : Locals := ⟨l.entries.filter (·.1 != name)⟩

def set (l : Locals) (name : Text) (v : Value) : Locals := ⟨(l.erase name).entries ++ [(name, v)]⟩

@[simp] theorem get?_empty (name : Text) : empty.get? name = none := rfl

theorem lookup_filter_ne {α β : Type} [DecidableEq α] [BEq α] [LawfulBEq α] (entries : List (α × β)) (name x : α) :
    (entries.filter (·.1 != name)).lookup x = if x = name then none else entries.lookup x := by
  induction entries with
  | nil => simp
  | cons p rest ih =>
    obtain ⟨k, v⟩ := p
    by_cases hk : k = name
    · subst hk
      rw [List.filter_cons_of_neg (by simp), ih, List.lookup_cons]
      by_cases hx : x = k
      · simp [hx]
      · have hx' : (x == k) = false := by simpa using hx
        simp [hx, hx']
    · rw [List.filter_cons_of_pos (by simpa using hk), List.lookup_cons, List.lookup_cons, ih]
      by_cases hx : x = k
      · simp [hx, hk]
      · have hx' : (x == k) = false := by simpa using hx
        simp [hx']

theorem get?_erase (l : Locals) (name x : Text) :
    (l.erase name).get? x = if x = name then none else l.get? x :=
  lookup_filter_ne l.entries name x

theorem get?_set (l : Locals) (name x : Text) (v : Value) :
    (l.set name v).get? x = if x = name then some v else l.get? x := by
  have he := l.get?_erase name x
  simp only [get?] at he
  simp only [get?, set, List.lookup_append, he]
  by_cases hx : x = name
  · simp [hx]
  · have hx' : (x == name) = false := by simpa using hx
    simp [hx, hx', List.lookup_cons]

end Locals

end StackLang
