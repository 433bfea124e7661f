import StackLang.Proofs.Machine.Strings
import StackLang.Proofs.Unchecked.Runs

/-! # Runs of programs are safe

Without a trace, a program computes with values only, even where nobody checks them, and its run
ends in few ways. -/

namespace StackLang

open Unchecked (Part Stop)

/-- A document with nothing but statements in its body is that of a program. -/
theorem Document.exists_program {body : List Document} (h : ∀ d ∈ body, ∃ s, d = .statement s) :
    ∃ p : Program, p.document = .program body := by
  induction body with
  | nil => exact ⟨⟨[]⟩, rfl⟩
  | cons d body ih =>
    obtain ⟨⟨s, rfl⟩, hbody⟩ := List.forall_mem_cons.mp h
    obtain ⟨p, hp⟩ := ih hbody
    refine ⟨⟨s :: p.body⟩, ?_⟩
    rw [Program.document] at hp ⊢
    cases hp
    rfl

namespace Program

variable {p : Program} {start : Machine}

/-- The run is to show an integer that is too long: at a statement that it comes to, or of the stack
that is left after the last one. -/
def MeetsLong (p : Program) (start : Machine) : Prop :=
  (∃ before s, p.Comes start before s ∧ s.ShowsLong before) ∨
    ∃ after, start.runBlock 0 p.body = .ok after ∧ ∃ v ∈ after.stack, v.IsLong

/-- The run comes to a `print` of text that the sink does not take. -/
def MeetsRefusal (p : Program) (start : Machine) : Prop :=
  ∃ before s e, p.Comes start before s ∧ s.IsRefused before e

theorem run_digitLimit_iff (hlines : ∀ s ∈ p.body, s.line.natAbs < Integer.textLimit) :
    (∃ m', p.run 0 start = .failed .digitLimit m') ↔ p.MeetsLong start := by
  rw [run_failed_iff hlines]
  refine or_congr ⟨?_, ?_⟩ (by simp)
  · rintro ⟨before, s, g, hcomes, hg, heq⟩
    rw [Failure.atLine_eq_digitLimit_iff.mp heq.symm] at hg
    exact ⟨before, s, hcomes, Stmt.breaks_digitLimit_iff.mp hg⟩
  · rintro ⟨before, s, hcomes, hlong⟩
    exact ⟨before, s, _, hcomes, Stmt.breaks_digitLimit_iff.mpr hlong, rfl⟩

theorem run_unencodable_iff (hlines : ∀ s ∈ p.body, s.line.natAbs < Integer.textLimit) :
    (∃ e m', p.run 0 start = .failed (.unencodable e) m') ↔ p.MeetsRefusal start := by
  constructor
  · rintro ⟨e, h⟩
    rcases (run_failed_iff hlines).mp h with ⟨before, s, g, hcomes, hg, heq⟩ | ⟨heq, -⟩
    · rw [Failure.atLine_eq_unencodable_iff.mp heq.symm] at hg
      exact ⟨before, s, e, hcomes, Stmt.breaks_unencodable_iff.mp hg⟩
    · cases heq
  · rintro ⟨before, s, e, hcomes, hrefused⟩
    have hbreaks : s.Breaks before (.unencodable e) := Stmt.breaks_unencodable_iff.mpr hrefused
    exact ⟨e, (run_failed_iff hlines).mpr (.inl ⟨before, s, .unencodable e, hcomes, hbreaks, rfl⟩)⟩

/-- No run fails over an unknown operator, or over a part that cannot be used. -/
theorem foreseen_of_failed (hlines : ∀ s ∈ p.body, s.line.natAbs < Integer.textLimit) {f : Failure}
    {m : Machine} (h : p.run 0 start = .failed f m) :
    (∃ g line, f = .fault g (some line) ∧ g.name ∈ Fault.foreseen) ∨ f = .digitLimit ∨
      ∃ e, f = .unencodable e := by
  rcases (run_failed_iff hlines).mp ⟨m, h⟩ with ⟨before, s, g, -, hg, rfl⟩ | ⟨rfl, -⟩
  · cases hg.isRaised with
    | fault hname => exact .inl ⟨_, s.line, rfl, hname⟩
    | digitLimit => exact .inr (.inl rfl)
    | unencodable e => exact .inr (.inr ⟨e, rfl⟩)
  · exact .inr (.inl rfl)

/-- A sink that takes all texts refuses none that is printed. -/
theorem not_meetsRefusal_of_takesAll (hlines : ∀ s ∈ p.body, s.line.natAbs < Integer.textLimit)
    (htakes : start.sink.TakesAll) : ¬ p.MeetsRefusal start := by
  rintro ⟨before, s, e, hcomes, line, v, rest, t, -, -, -, he⟩
  have hsink : before.sink = start.sink :=
    hcomes.invariant hlines (fun s _ m m' hm hstep => hstep.sink_eq.trans hm) rfl
  rw [hsink, htakes t] at he
  cases he

/-- Every sink takes what a program prints whose texts are strings and that reads strings. -/
theorem not_meetsRefusal_of_strings (hlines : ∀ s ∈ p.body, s.line.natAbs < Integer.textLimit)
    (hstrings : ∀ s ∈ p.body, s.Meets .strings) (hstart : start.HoldsStrings) :
    ¬ p.MeetsRefusal start := by
  rintro ⟨before, s, e, hcomes, line, v, rest, t, -, hstack, ht, he⟩
  have hbefore : before.HoldsStrings :=
    hcomes.invariant hlines (fun s hs m m' hm hstep => hstep.holdsStrings (hstrings s hs) hm) hstart
  obtain ⟨text, rfl⟩ := (hbefore.top hstack).1.text? ht
  simp at he

end Program

theorem Failure.stop_injective {f g : Failure} (h : f.stop = g.stop) : f = g := by
  rcases f with ⟨a, - | x⟩ | - | a | a <;> rcases g with ⟨b, - | y⟩ | - | b | b <;>
    simp_all [stop]

section

variable {o : Outcome Machine} {r : EStateM.Result Stop Unchecked.State Unit}

theorem Agrees.ok_iff (h : Agrees o r) : (∃ s, r = .ok () s) ↔ ∃ m, o = .ok m := by
  cases h <;> simp

theorem Agrees.error_iff (h : Agrees o r) (f : Failure) :
    (∃ s, r = .error f.stop s) ↔ ∃ m, o = .failed f m := by
  cases h with
  | ok hm => simp
  | @failed m s g hm =>
    constructor
    · rintro ⟨s', heq⟩
      injection heq with hstop
      exact ⟨m, by rw [Failure.stop_injective hstop]⟩
    · rintro ⟨m', heq⟩
      injection heq with hfailure
      exact ⟨s, by rw [hfailure]⟩

end

theorem holdsStrings_startOn (sink : Sink) {input : List Text} (hinput : ∀ t ∈ input, t.IsString) :
    (Machine.startOn sink input).HoldsStrings :=
  ⟨by simp [Machine.startOn], by simp [Machine.startOn], hinput⟩

end StackLang
