import BootStage.Step

/-!
# The step ledger

A step starts at most once, and only after its prerequisites completed; a step that started can
complete.  Completed steps are kept in the order in which they did.
-/

namespace BootStage

structure Ledger where
  started : List Step
  /-- In the order of completion. -/
  completed : List Step
  deriving DecidableEq

namespace Ledger

def empty : Ledger := ⟨[], []⟩

def isStarted (l : Ledger) (s : Step) : Bool := s ∈ l.started

def isComplete (l : Ledger) (s : Step) : Bool := s ∈ l.completed

/-- The first prerequisite of `s` that has not completed. -/
def missing? (l : Ledger) (s : Step) : Option Step :=
  s.prerequisites.find? fun p => !l.isComplete p

def start (l : Ledger) (s : Step) : Except Error Ledger :=
  if l.isStarted s ∨ (l.missing? s).isSome then .error .stepOrderViolation
  else .ok { l with started := s :: l.started }

/-- Mark a started step complete; any other call has no effect. -/
def complete (l : Ledger) (s : Step) : Ledger :=
  if l.isStarted s ∧ ¬ l.isComplete s then { l with completed := l.completed ++ [s] } else l

theorem start_eq_ok_iff {l m : Ledger} {s : Step} :
    l.start s = .ok m ↔
      s ∉ l.started ∧ (∀ p ∈ s.prerequisites, p ∈ l.completed) ∧
        m = { l with started := s :: l.started } := by
  unfold start
  split
  · next h =>
    constructor
    · intro h'
      cases h'
    · rintro ⟨hs, hp, -⟩
      simp [isStarted, isComplete, missing?, hs] at h
      obtain ⟨p, hp₁, hp₂⟩ := h
      exact absurd (hp p hp₁) hp₂
  · next h =>
    simp [isStarted, isComplete, missing?] at h
    constructor
    · intro h'
      cases h'
      exact ⟨h.1, h.2, rfl⟩
    · rintro ⟨-, -, rfl⟩
      rfl

end Ledger

end BootStage
