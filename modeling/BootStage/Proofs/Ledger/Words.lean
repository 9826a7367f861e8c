import Mathlib.Data.Nat.Bitwise
import BootStage.Flags
import BootStage.Proofs.Ledger

/-!
# The ledger in two words

Eighteen steps fit into a word, one bit each.  The ledger can be held in two such words, for the
steps that started and for those that completed, and in a list with one place for each step, which
is pushed to without a look at whether there was room.  For a ledger that is `Ordered` that loses
nothing:

    w.Holds l → the outcome of a start is the same, and what it leaves is held     (Holds.start)
    w.Holds l → what a completion leaves is held                                   (Holds.complete)
-/

namespace BootStage

/-- Position in nominal order. -/
def Step.index (s : Step) : Nat := Step.all.idxOf s

instance : Flag Step where
  all := Step.all
  bit s := 1 <<< UInt32.ofNat s.index

namespace Flags

theorem toNat_stepBit (s : Step) : (Flag.bit s).toNat = 2 ^ s.index := by cases s <;> rfl

theorem has_step_eq_testBit (w : Flags Step) (s : Step) :
    w.has s = w.bits.toNat.testBit s.index := by
  have hBit : (w.bits &&& Flag.bit s).toNat =
      (w.bits.toNat.testBit s.index).toNat * 2 ^ s.index := by
    rw [UInt32.toNat_and, toNat_stepBit, Nat.and_two_pow]
  have hPos : 0 < 2 ^ s.index := Nat.two_pow_pos s.index
  unfold has
  rw [Bool.eq_iff_iff, bne_iff_ne, ne_eq, ← UInt32.toNat_inj, hBit]
  cases w.bits.toNat.testBit s.index with
  | true => simp
  | false => simp

theorem has_step_empty (s : Step) : (empty : Flags Step).has s = false := by
  rw [has_step_eq_testBit]
  exact Nat.zero_testBit s.index

/-- Setting the bit of a step adds that step and no other. -/
theorem has_step_insert (w : Flags Step) (s t : Step) :
    (w.insert s).has t = (w.has t || decide (s = t)) := by
  have hIndex : s.index = t.index ↔ s = t := List.idxOf_inj (Step.mem_all s)
  have hBits : (w.insert s).bits.toNat = w.bits.toNat ||| 2 ^ s.index := by
    unfold insert
    rw [UInt32.toNat_or, toNat_stepBit]
  rw [has_step_eq_testBit, has_step_eq_testBit, hBits, Nat.testBit_or, Nat.testBit_two_pow]
  simp only [hIndex]

end Flags

namespace Ledger

/-- A ledger as it is held in two words and a list. -/
structure Words where
  started : Flags Step
  done : Flags Step
  /-- In the order of completion. -/
  order : List Step
  deriving DecidableEq

namespace Words

def empty : Words := ⟨.empty, .empty, []⟩

/-- Places in the list. -/
def capacity : Nat := Step.all.length

def isComplete (w : Words) (s : Step) : Bool := w.done.has s

/-- The first prerequisite of `s` that has not completed. -/
def missing? (w : Words) (s : Step) : Option Step :=
  s.prerequisites.find? fun p => !w.isComplete p

def start (w : Words) (s : Step) : Except Error Unit × Words :=
  if w.started.has s ∨ (w.missing? s).isSome then (.error .stepOrderViolation, w)
  else (.ok (), { w with started := w.started.insert s })

/-- Put a step at the end of the list; a step that finds no place is lost. -/
def push (w : Words) (s : Step) : Words :=
  if w.order.length < capacity then { w with order := w.order ++ [s] } else w

def complete (w : Words) (s : Step) : Words :=
  if ¬ w.started.has s ∨ w.isComplete s then w
  else push { w with done := w.done.insert s } s

/-- The words and the list hold the ledger. -/
structure Holds (w : Words) (l : Ledger) : Prop where
  started : ∀ s, w.started.has s = l.isStarted s
  done : ∀ s, w.isComplete s = l.isComplete s
  order : w.order = l.completed

variable {w : Words} {l : Ledger} {s : Step}

theorem holds_empty : empty.Holds .empty :=
  ⟨Flags.has_step_empty, Flags.has_step_empty, rfl⟩

theorem Holds.missing?_eq (h : w.Holds l) (s : Step) : w.missing? s = l.missing? s := by
  unfold missing? Ledger.missing?
  simp only [h.done]

/-- Where the ledger refuses a start the words do so and stay as they are, and what the ledger
becomes where it does not is held by what the words become. -/
theorem Holds.start (h : w.Holds l) (s : Step) :
    (∃ m, l.start s = .ok m ∧ (w.start s).1 = .ok () ∧ (w.start s).2.Holds m) ∨
      l.start s = .error .stepOrderViolation ∧ w.start s = (.error .stepOrderViolation, w) := by
  unfold Words.start Ledger.start
  rw [h.started, h.missing?_eq]
  by_cases hRefused : l.isStarted s = true ∨ (l.missing? s).isSome = true
  · rw [if_pos hRefused, if_pos hRefused]
    exact .inr ⟨rfl, rfl⟩
  · rw [if_neg hRefused, if_neg hRefused]
    refine .inl ⟨_, rfl, rfl, ?_, h.done, h.order⟩
    intro t
    rw [Flags.has_step_insert, h.started]
    simp [isStarted, Bool.or_comm, eq_comm]

theorem Holds.complete (h : w.Holds l) (hl : l.Ordered) (s : Step) :
    (w.complete s).Holds (l.complete s) := by
  unfold Words.complete
  rw [h.started, h.done]
  by_cases hIdle : s ∉ l.started ∨ s ∈ l.completed
  · rw [complete_eq_self hIdle, if_pos (by simpa [isStarted, Ledger.isComplete] using hIdle)]
    exact h
  · obtain ⟨hStarted, hNew⟩ := not_or.1 hIdle
    rw [Decidable.not_not] at hStarted
    rw [complete_eq_append hStarted hNew,
      if_neg (by simpa [isStarted, Ledger.isComplete] using hIdle)]
    -- The list has room, since the step is none of those in it.
    have hRoom : w.order.length < capacity := by
      rw [h.order]
      exact hl.length_lt hNew
    unfold push
    rw [if_pos hRoom]
    refine ⟨h.started, ?_, congrArg (· ++ [s]) h.order⟩
    intro t
    show (w.done.insert s).has t = _
    rw [Flags.has_step_insert]
    have hDone : w.done.has t = l.isComplete t := h.done t
    rw [hDone]
    simp [Ledger.isComplete, eq_comm]

end Words

end Ledger

end BootStage
