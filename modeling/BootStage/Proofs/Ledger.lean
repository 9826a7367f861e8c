import Mathlib.Data.List.Nodup
import Mathlib.Data.List.Perm.Subperm
import BootStage.Ledger

/-!
# What starting and completing does to the ledger

In a ledger that is `Backed` every completed step was started, and in one that is `Founded` the
prerequisites of every completed step have completed.  Starting a step and completing it keep that,
and a step that was just started is new among the completed ones.

`Ordered` is more, and is kept also where starts and completions do not come in pairs: no step
completes twice, and none before its prerequisites.  So there is a place for each completed step in
a list of eighteen.
-/

namespace BootStage

/-- A list that ends in `r` is split at `r` or before it. -/
theorem split_concat {α : Type} {l earlier later : List α} {r q : α}
    (h : l ++ [r] = earlier ++ q :: later) :
    (earlier = l ∧ q = r ∧ later = []) ∨
      ∃ later', later = later' ++ [r] ∧ l = earlier ++ q :: later' := by
  rcases List.eq_nil_or_concat later with rfl | ⟨later', x, rfl⟩
  · obtain ⟨hFront, hLast⟩ := List.append_inj' h rfl
    exact .inl ⟨hFront.symm, (List.singleton_inj.1 hLast).symm, rfl⟩
  · have hOlder : l ++ [r] = (earlier ++ q :: later') ++ [x] := by simpa using h
    obtain ⟨hFront, hLast⟩ := List.append_inj' hOlder rfl
    obtain rfl : r = x := List.singleton_inj.1 hLast
    exact .inr ⟨later', List.concat_eq_append, hFront⟩

namespace Ledger

variable {l m : Ledger} {s : Step}

/-- Completed steps were started. -/
def Backed (l : Ledger) : Prop := ∀ s ∈ l.completed, s ∈ l.started

/-- Prerequisites of completed steps have completed. -/
def Founded (l : Ledger) : Prop := ∀ s ∈ l.completed, ∀ p ∈ s.prerequisites, p ∈ l.completed

/-- The prerequisites of every step that started have completed. -/
def Grounded (l : Ledger) : Prop := ∀ s ∈ l.started, ∀ p ∈ s.prerequisites, p ∈ l.completed

theorem backed_empty : empty.Backed := by
  intro s hs
  cases hs

theorem founded_empty : empty.Founded := by
  intro s hs
  cases hs

theorem eq_stepOrderViolation_of_start_eq_error {e : Error} (h : l.start s = .error e) :
    e = .stepOrderViolation := by
  unfold start at h
  split at h
  · cases h
    rfl
  · cases h

theorem started_subset_of_start (h : l.start s = .ok m) : l.started ⊆ m.started := by
  obtain ⟨-, -, rfl⟩ := start_eq_ok_iff.1 h
  exact List.subset_cons_self s l.started

theorem started_complete (l : Ledger) (s : Step) : (l.complete s).started = l.started := by
  unfold complete
  split <;> rfl

theorem mem_completed_complete {q : Step} (h : q ∈ (l.complete s).completed) :
    q ∈ l.completed ∨ q = s := by
  unfold complete at h
  split at h
  · exact (List.mem_append.1 h).imp_right List.mem_singleton.1
  · exact .inl h

theorem Backed.start (hl : l.Backed) (h : l.start s = .ok m) : m.Backed := by
  obtain ⟨-, -, rfl⟩ := start_eq_ok_iff.1 h
  intro p hp
  exact List.mem_cons_of_mem s (hl p hp)

/-- A step that was just started becomes the last of the completed ones. -/
theorem Backed.complete_start (hl : l.Backed) (h : l.start s = .ok m) :
    m.complete s = { m with completed := l.completed ++ [s] } := by
  obtain ⟨hNew, -, rfl⟩ := start_eq_ok_iff.1 h
  have hIncomplete : s ∉ l.completed := fun hs => hNew (hl s hs)
  simp [complete, isStarted, isComplete, hIncomplete]

theorem Backed.complete_of_start (hl : l.Backed) (h : l.start s = .ok m) :
    (m.complete s).Backed := by
  rw [hl.complete_start h]
  obtain ⟨-, -, rfl⟩ := start_eq_ok_iff.1 h
  intro p hp
  rcases List.mem_append.1 hp with hp | hp
  · exact List.mem_cons_of_mem s (hl p hp)
  · rw [List.mem_singleton.1 hp]
    exact List.mem_cons_self

/-! ## Starts and completions in any order -/

/-- Completed steps were started, none is there twice, and each stands after its prerequisites. -/
structure Ordered (l : Ledger) : Prop where
  backed : l.Backed
  /-- A prerequisite is looked for at the start, so it is there when the step completes. -/
  grounded : l.Grounded
  nodup : l.completed.Nodup
  before : ∀ earlier s later, l.completed = earlier ++ s :: later →
    ∀ p ∈ s.prerequisites, p ∈ earlier

theorem ordered_empty : empty.Ordered where
  backed := backed_empty
  grounded := fun s hs => nomatch hs
  nodup := List.nodup_nil
  before := by
    intro earlier s later h
    cases earlier <;> cases h

theorem missing?_eq_none_iff : l.missing? s = none ↔ ∀ p ∈ s.prerequisites, p ∈ l.completed := by
  simp [missing?, isComplete]

theorem isOk_start_iff_new : (l.start s).isOk = true ↔ s ∉ l.started ∧ l.missing? s = none := by
  rw [missing?_eq_none_iff]
  constructor
  · intro h
    cases hStart : l.start s with
    | error e =>
      rw [hStart] at h
      cases h
    | ok m =>
      obtain ⟨hNew, hPrerequisites, -⟩ := start_eq_ok_iff.1 hStart
      exact ⟨hNew, hPrerequisites⟩
  · rintro ⟨hNew, hPrerequisites⟩
    rw [start_eq_ok_iff.2 ⟨hNew, hPrerequisites, rfl⟩]
    rfl

theorem Ordered.start (hl : l.Ordered) (h : l.start s = .ok m) : m.Ordered := by
  obtain ⟨-, hPrerequisites, rfl⟩ := start_eq_ok_iff.1 h
  refine ⟨hl.backed.start h, ?_, hl.nodup, hl.before⟩
  intro q hq p hp
  rcases List.mem_cons.1 hq with rfl | hq
  · exact hPrerequisites p hp
  · exact hl.grounded q hq p hp

theorem complete_eq_self (h : s ∉ l.started ∨ s ∈ l.completed) : l.complete s = l := by
  unfold complete
  rw [if_neg]
  simp only [isStarted, isComplete, decide_eq_true_eq, not_and, Decidable.not_not]
  intro hStarted
  exact h.resolve_left (not_not_intro hStarted)

theorem complete_eq_append (hStarted : s ∈ l.started) (hNew : s ∉ l.completed) :
    l.complete s = { l with completed := l.completed ++ [s] } := by
  unfold complete
  rw [if_pos]
  simp [isStarted, isComplete, hStarted, hNew]

theorem Ordered.complete (hl : l.Ordered) (s : Step) : (l.complete s).Ordered := by
  by_cases hIdle : s ∉ l.started ∨ s ∈ l.completed
  · rw [complete_eq_self hIdle]
    exact hl
  obtain ⟨hStarted, hNew⟩ := not_or.1 hIdle
  rw [Decidable.not_not] at hStarted
  rw [complete_eq_append hStarted hNew]
  refine ⟨?_, ?_, ?_, ?_⟩
  · intro q hq
    rcases List.mem_append.1 hq with hq | hq
    · exact hl.backed q hq
    · rw [List.mem_singleton.1 hq]
      exact hStarted
  · intro q hq p hp
    exact List.mem_append_left _ (hl.grounded q hq p hp)
  · show (l.completed ++ [s]).Nodup
    rw [← List.concat_eq_append, List.nodup_concat]
    exact ⟨hNew, hl.nodup⟩
  · intro earlier q later hSplit p hp
    rcases split_concat hSplit with ⟨rfl, rfl, -⟩ | ⟨later', -, hCompleted⟩
    · -- The step itself: its prerequisites were complete when it started.
      exact hl.grounded q hStarted p hp
    · exact hl.before earlier q later' hCompleted p hp

/-- A list without repetition has at most as many steps as there are. -/
theorem length_le_of_nodup {steps : List Step} (h : steps.Nodup) :
    steps.length ≤ Step.all.length :=
  (h.subperm fun s _ => Step.mem_all s).length_le

/-- As long as a step has not completed, there is a place left for it. -/
theorem Ordered.length_lt (hl : l.Ordered) (hNew : s ∉ l.completed) :
    l.completed.length < Step.all.length :=
  length_le_of_nodup (List.nodup_cons.2 ⟨hNew, hl.nodup⟩)

end Ledger

end BootStage
