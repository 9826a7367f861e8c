import Mathlib.Data.List.Induction
import BootStage.Proofs.Ledger.Words

/-!
# Histories of the ledger

Starts and completions may come in any order, more than once and of steps that were never started.
Whatever the history, completed steps stand in the ledger once and after their prerequisites, and
the ledger fits into its two words and its list (`replay_in_order`).
-/

namespace BootStage.Ledger

/-- A call on the ledger. -/
inductive Event
  | start (s : Step)
  | complete (s : Step)
  deriving DecidableEq

/-- A start that is refused leaves nothing behind. -/
def apply (l : Ledger) : Event → Ledger
  | .start s =>
    match l.start s with
    | .ok m => m
    | .error _ => l
  | .complete s => l.complete s

/-- The ledger after a history. -/
def replay (history : List Event) : Ledger := history.foldl apply empty

namespace Words

def apply (w : Words) : Event → Words
  | .start s => (w.start s).2
  | .complete s => w.complete s

def replay (history : List Event) : Words := history.foldl apply empty

end Words

/-- The step was started with success at some point of the history. -/
def Begun (history : List Event) (s : Step) : Prop :=
  ∃ earlier later, history = earlier ++ .start s :: later ∧ ((replay earlier).start s).isOk = true

variable {history : List Event} {event : Event} {l m : Ledger} {s : Step}

theorem replay_concat (history : List Event) (event : Event) :
    replay (history ++ [event]) = (replay history).apply event := by
  unfold replay
  rw [List.foldl_append]
  rfl

theorem Words.replay_concat (history : List Event) (event : Event) :
    Words.replay (history ++ [event]) = (Words.replay history).apply event := by
  unfold Words.replay
  rw [List.foldl_append]
  rfl

theorem apply_start_of_ok (h : l.start s = .ok m) : l.apply (.start s) = m := by
  simp only [apply, h]

theorem apply_start_of_error {e : Error} (h : l.start s = .error e) : l.apply (.start s) = l := by
  simp only [apply, h]

/-! ## One call -/

theorem Ordered.apply (hl : l.Ordered) (event : Event) : (l.apply event).Ordered := by
  cases event with
  | complete s => exact hl.complete s
  | start s =>
    cases hStart : l.start s with
    | ok m =>
      rw [apply_start_of_ok hStart]
      exact hl.start hStart
    | error e =>
      rw [apply_start_of_error hStart]
      exact hl

theorem Words.Holds.apply {w : Words} (h : w.Holds l) (hl : l.Ordered) (event : Event) :
    (w.apply event).Holds (l.apply event) := by
  cases event with
  | complete s => exact h.complete hl s
  | start s =>
    show (w.start s).2.Holds _
    rcases h.start s with ⟨m, hStart, -, hHolds⟩ | ⟨hStart, hSame⟩
    · rw [apply_start_of_ok hStart]
      exact hHolds
    · rw [apply_start_of_error hStart, hSame]
      exact h

/-- A call starts a step exactly if it is a start of that step and succeeds. -/
theorem mem_started_apply_iff (l : Ledger) (event : Event) (s : Step) :
    s ∈ (l.apply event).started ↔
      s ∈ l.started ∨ event = .start s ∧ (l.start s).isOk = true := by
  cases event with
  | complete q =>
    show s ∈ (l.complete q).started ↔ _
    rw [started_complete]
    simp
  | start q =>
    cases hStart : l.start q with
    | ok m =>
      rw [apply_start_of_ok hStart]
      obtain ⟨-, -, rfl⟩ := start_eq_ok_iff.1 hStart
      show s ∈ q :: l.started ↔ _
      rw [List.mem_cons]
      constructor
      · rintro (rfl | hs)
        · exact .inr ⟨rfl, by rw [hStart]; rfl⟩
        · exact .inl hs
      · rintro (hs | ⟨hSame, -⟩)
        · exact .inr hs
        · cases hSame
          exact .inl rfl
    | error e =>
      rw [apply_start_of_error hStart]
      constructor
      · intro hs
        exact .inl hs
      · rintro (hs | ⟨hSame, hOk⟩)
        · exact hs
        · cases hSame
          rw [hStart] at hOk
          cases hOk

/-! ## Whole histories -/

theorem ordered_replay (history : List Event) : (replay history).Ordered := by
  induction history using List.reverseRecOn with
  | nil => exact ordered_empty
  | append_singleton history event ih =>
    rw [replay_concat]
    exact ih.apply event

theorem holds_replay (history : List Event) : (Words.replay history).Holds (replay history) := by
  induction history using List.reverseRecOn with
  | nil => exact Words.holds_empty
  | append_singleton history event ih =>
    rw [replay_concat, Words.replay_concat]
    exact ih.apply (ordered_replay history) event

theorem begun_concat_iff :
    Begun (history ++ [event]) s ↔
      Begun history s ∨ event = .start s ∧ ((replay history).start s).isOk = true := by
  constructor
  · rintro ⟨earlier, later, hSplit, hOk⟩
    rcases split_concat hSplit with ⟨rfl, hEvent, -⟩ | ⟨later', -, hOlder⟩
    · exact .inr ⟨hEvent.symm, hOk⟩
    · exact .inl ⟨earlier, later', hOlder, hOk⟩
  · rintro (⟨earlier, later, rfl, hOk⟩ | ⟨rfl, hOk⟩)
    · exact ⟨earlier, later ++ [event], by simp, hOk⟩
    · exact ⟨history, [], rfl, hOk⟩

/-- The started steps of the ledger are those whose start succeeded. -/
theorem mem_started_replay_iff : s ∈ (replay history).started ↔ Begun history s := by
  induction history using List.reverseRecOn with
  | nil =>
    constructor
    · intro hs
      cases hs
    · rintro ⟨earlier, later, hSplit, -⟩
      cases earlier <;> cases hSplit
  | append_singleton history event ih =>
    rw [replay_concat, mem_started_apply_iff, begun_concat_iff, ih]

/-- Whatever the history: no step completes twice, a step counts as complete exactly if it is in the
list of completed steps, it was started, and in that list its prerequisites stand before it; the
list never holds more steps than there are.  A start succeeds exactly if no start of the step did
and no prerequisite is missing; a start that fails and a completion that has no effect leave the
ledger as it was.  And the two words and the list that the ledger is held in answer as it does. -/
theorem replay_in_order (history : List Event) :
    (replay history).completed.Nodup ∧
    (∀ s, (replay history).isComplete s = true ↔ s ∈ (replay history).completed) ∧
    (∀ s ∈ (replay history).completed, Begun history s) ∧
    (∀ earlier s later, (replay history).completed = earlier ++ s :: later →
      ∀ p ∈ s.prerequisites, p ∈ earlier) ∧
    (replay history).completed.length ≤ Words.capacity ∧
    (∀ s, ((replay history).start s).isOk = true ↔
      ¬ Begun history s ∧ (replay history).missing? s = none) ∧
    (∀ s e, (replay history).start s = .error e →
      e = .stepOrderViolation ∧ replay (history ++ [.start s]) = replay history) ∧
    (∀ s, ¬ Begun history s ∨ s ∈ (replay history).completed →
      replay (history ++ [.complete s]) = replay history) ∧
    (Words.replay history).Holds (replay history) ∧
    ∀ s, ((Words.replay history).start s).1 = ((replay history).start s).map fun _ => () := by
  have hOrdered := ordered_replay history
  have hHolds := holds_replay history
  refine ⟨hOrdered.nodup, ?_, ?_, hOrdered.before, length_le_of_nodup hOrdered.nodup, ?_, ?_, ?_,
    hHolds, ?_⟩
  · intro s
    unfold isComplete
    rw [decide_eq_true_eq]
  · intro s hs
    exact mem_started_replay_iff.1 (hOrdered.backed s hs)
  · intro s
    rw [isOk_start_iff_new, mem_started_replay_iff]
  · intro s e hStart
    rw [replay_concat, apply_start_of_error hStart]
    exact ⟨eq_stepOrderViolation_of_start_eq_error hStart, rfl⟩
  · intro s hIdle
    rw [replay_concat]
    rw [← mem_started_replay_iff] at hIdle
    exact complete_eq_self hIdle
  · intro s
    rcases hHolds.start s with ⟨m, hStart, hOk, -⟩ | ⟨hStart, hSame⟩
    · rw [hStart, hOk]
      rfl
    · rw [hStart, hSame]
      rfl

/-- Completing what was not started and starting what is not founded does nothing; nor does starting
or completing twice. -/
example : (replay [.complete .fuseProbe, .start .memoryProtection, .start .fuseProbe,
      .complete .fuseProbe, .start .fuseProbe, .complete .fuseProbe, .start .antiRollback,
      .complete .antiRollback]).completed = [.fuseProbe, .antiRollback] := by decide

end BootStage.Ledger
