import Mathlib.Data.List.DropRight
import BootStage.Log.Ring

/-!
# What a flush hands over

Beside a log that is used by `Operation`s in any order stands its `History`: every entry that it has
accepted since it was last cleared, and how many of them there were at the last flush.  A flush
ought to hand over the entries that were accepted since and are still held
(`History.outstanding`).  It hands over the newest `pending` of them:

    r.entries   = h.accepted.rtake ringCapacity                        (History.Describes.entries)
    r.pending   = min (accepted since) (room at the last flush, or 1)  (History.Describes.pending)
    r.unflushed = (h.outstanding r).rtake r.pending                    (unflushed_eq_rtake)

That is all of them only while no eviction has taken an entry that was handed over before: every
eviction lowers the count of pending entries, whichever entry it evicts.
`flush_hands_over_newest` says exactly when nothing is left out, and
`flush_leaves_out_held_entry` shows a log that leaves an entry out.
-/

namespace BootStage.Log

/-- What can be done to a log. -/
inductive Operation
  | write (e : Entry)
  | record (level : Level) (source : String) (pieces : List String)
  | flush
  | clear
  | setThreshold (level : Level)

namespace Operation

def apply (r : Ring) : Operation → Ring
  | write e => r.write e
  | record level source pieces => r.record level source pieces
  | flush => r.markFlushed
  | clear => r.clear
  | setThreshold level => { r with threshold := level }

/-- The entry that the operation adds to the log, if it adds one. -/
def accepted? (r : Ring) : Operation → Option Entry
  | write e => if e.level.passes r.threshold then some e else none
  | record level source pieces =>
    if level.passes r.threshold then some ⟨level, r.sequence, source, .ofPieces pieces⟩ else none
  | flush | clear | setThreshold _ => none

end Operation

/-- What happened to a log since it was last cleared. -/
structure History where
  /-- Every accepted entry, oldest first. -/
  accepted : List Entry
  /-- How many of them there were at the last flush. -/
  flushed : Nat

namespace History

def empty : History := ⟨[], 0⟩

/-- The history once the log `r` has undergone an operation. -/
def next (h : History) (r : Ring) (op : Operation) : History :=
  match op with
  | .flush => { h with flushed := h.accepted.length }
  | .clear => empty
  | op => { h with accepted := h.accepted ++ (op.accepted? r).toList }

/-- The entries accepted since the last flush or clear, as far as the log still holds them. -/
def outstanding (h : History) (r : Ring) : List Entry :=
  (h.accepted.drop h.flushed).rtake r.length

end History

/-- A log and its history after operations one after the other. -/
def runAll (r : Ring) (h : History) : List Operation → Ring × History
  | [] => (r, h)
  | op :: ops => runAll (op.apply r) (h.next r op) ops

/-- How a log comes out of its history. -/
structure History.Describes (h : History) (r : Ring) : Prop where
  /-- The newest entries are held. -/
  entries : r.entries = h.accepted.rtake ringCapacity
  flushed_le : h.flushed ≤ h.accepted.length
  /-- No more entries are pending than there was room for at the last flush, or one if there was no
  room. -/
  pending : r.pending = min (h.accepted.length - h.flushed) (max (ringCapacity - h.flushed) 1)

namespace History.Describes

variable {h : History} {r : Ring}

theorem length (hr : h.Describes r) : r.length = min h.accepted.length ringCapacity := by
  unfold Ring.length
  rw [hr.entries, List.rtake, List.length_drop]
  omega

theorem empty (threshold : Level) : History.empty.Describes (.empty threshold) :=
  ⟨rfl, Nat.le_refl _, rfl⟩

/-- A full log gives up its oldest entry for a new one, and holds the newest ones again. -/
theorem entries_push (hr : h.Describes r) (e : Entry) :
    ((if r.isFull then r.evict else r).push e).entries = (h.accepted ++ [e]).rtake ringCapacity := by
  have hLength := hr.length
  have hNewest : (h.accepted ++ [e]).rtake ringCapacity = h.accepted.rtake 63 ++ [e] :=
    List.rtake_concat_succ h.accepted 63 e
  have hCapacity : ringCapacity = 64 := rfl
  rw [hNewest]
  by_cases hFull : r.isFull = true
  · have hMany : ringCapacity ≤ r.length := by simpa [Ring.isFull] using hFull
    rw [if_pos hFull]
    show r.entries.tail ++ [e] = _
    rw [hr.entries, List.rtake, List.tail_drop, List.rtake]
    congr 2
    omega
  · have hFew : r.length < ringCapacity := by simpa [Ring.isFull] using hFull
    have hRoom : h.accepted.length - 63 = h.accepted.length - 64 := by omega
    rw [if_neg hFull]
    show r.entries ++ [e] = _
    rw [hr.entries, List.rtake, List.rtake, hRoom]
    rfl

theorem pending_push (hr : h.Describes r) (e : Entry) :
    ((if r.isFull then r.evict else r).push e).pending =
      min (h.accepted.length + 1 - h.flushed) (max (ringCapacity - h.flushed) 1) := by
  have hLength := hr.length
  have hFlushed := hr.flushed_le
  have hPending := hr.pending
  by_cases hFull : r.isFull = true
  · have hMany : ringCapacity ≤ r.length := by simpa [Ring.isFull] using hFull
    rw [if_pos hFull]
    show r.pending - 1 + 1 = _
    omega
  · have hFew : r.length < ringCapacity := by simpa [Ring.isFull] using hFull
    rw [if_neg hFull]
    show r.pending + 1 = _
    omega

theorem write (hr : h.Describes r) (e : Entry) :
    (h.next r (.write e)).Describes (r.write e) := by
  unfold Ring.write History.next Operation.accepted?
  by_cases hPasses : e.level.passes r.threshold = true
  · have hFlushed := hr.flushed_le
    simp only [if_pos hPasses, Option.toList_some]
    refine ⟨hr.entries_push e, ?_, ?_⟩
    · show h.flushed ≤ (h.accepted ++ [e]).length
      rw [List.length_append]
      omega
    · rw [List.length_append, List.length_singleton]
      exact hr.pending_push e
  · simp only [if_neg hPasses, Option.toList_none, List.append_nil]
    exact hr

theorem flush (hr : h.Describes r) : (h.next r .flush).Describes r.markFlushed :=
  ⟨hr.entries, Nat.le_refl _, by simp [Ring.markFlushed, History.next]⟩

theorem setThreshold (hr : h.Describes r) (level : Level) :
    (h.next r (.setThreshold level)).Describes { r with threshold := level } := by
  have hSame : h.next r (.setThreshold level) = h := by
    simp [History.next, Operation.accepted?]
  rw [hSame]
  exact ⟨hr.entries, hr.flushed_le, hr.pending⟩

theorem step (hr : h.Describes r) (op : Operation) : (h.next r op).Describes (op.apply r) := by
  cases op with
  | write e => exact hr.write e
  | record level source pieces => exact hr.write ⟨level, r.sequence, source, .ofPieces pieces⟩
  | flush => exact hr.flush
  | clear => exact ⟨rfl, Nat.le_refl _, rfl⟩
  | setThreshold level => exact hr.setThreshold level

theorem run (hr : h.Describes r) (ops : List Operation) :
    (runAll r h ops).2.Describes (runAll r h ops).1 := by
  induction ops generalizing r h with
  | nil => exact hr
  | cons op ops ih => exact ih (hr.step op)

theorem length_outstanding (hr : h.Describes r) :
    (h.outstanding r).length = min (h.accepted.length - h.flushed) ringCapacity := by
  have hLength := hr.length
  unfold History.outstanding
  rw [List.rtake, List.length_drop, List.length_drop]
  omega

theorem pending_le (hr : h.Describes r) : r.pending ≤ (h.outstanding r).length := by
  have hCapacity : ringCapacity = 64 := rfl
  have hPending := hr.pending
  rw [hr.length_outstanding]
  omega

/-- A flush hands over the newest of the outstanding entries. -/
theorem unflushed_eq_rtake (hr : h.Describes r) :
    r.unflushed = (h.outstanding r).rtake r.pending := by
  have hLength := hr.length
  have hFlushed := hr.flushed_le
  have hOutstanding := hr.length_outstanding
  have hPending := hr.pending_le
  unfold Ring.unflushed
  rw [List.rtake, hOutstanding]
  unfold History.outstanding
  rw [hr.entries, List.rtake, List.rtake, List.drop_drop, List.drop_drop, List.drop_drop,
    List.length_drop]
  congr 1
  omega

/-- Nothing is left out exactly if nothing was flushed before, or nothing was evicted, or at most
one entry was accepted since. -/
theorem pending_eq_iff (hr : h.Describes r) :
    r.pending = (h.outstanding r).length ↔
      h.flushed = 0 ∨ h.accepted.length ≤ ringCapacity ∨ h.accepted.length ≤ h.flushed + 1 := by
  have hCapacity : ringCapacity = 64 := rfl
  have hFlushed := hr.flushed_le
  rw [hr.length_outstanding, hr.pending]
  omega

end History.Describes

/-- Whatever is done to a log, it holds the newest entries that it has accepted, and a flush hands
over, in order, the newest `pending` of the entries that are held and were accepted since the last
flush or clear.  It hands over all of them, and `pending` is their number, exactly if since the last
clear nothing was flushed or nothing was evicted, or if at most one entry was accepted since the
last flush. -/
theorem flush_hands_over_newest (threshold : Level) (ops : List Operation) :
    let r := (runAll (.empty threshold) .empty ops).1
    let h := (runAll (.empty threshold) .empty ops).2
    r.entries = h.accepted.rtake ringCapacity ∧
    r.unflushed = (h.outstanding r).rtake r.pending ∧
    r.pending = min (h.accepted.length - h.flushed) (max (ringCapacity - h.flushed) 1) ∧
    (r.unflushed = h.outstanding r ∧ r.pending = (h.outstanding r).length ↔
      h.flushed = 0 ∨ h.accepted.length ≤ ringCapacity ∨
        h.accepted.length ≤ h.flushed + 1) := by
  intro r h
  have hr : h.Describes r := (History.Describes.empty threshold).run ops
  refine ⟨hr.entries, hr.unflushed_eq_rtake, hr.pending, ?_⟩
  rw [← hr.pending_eq_iff]
  constructor
  · intro hBoth
    exact hBoth.2
  · intro hPending
    refine ⟨?_, hPending⟩
    rw [hr.unflushed_eq_rtake, hPending, List.rtake, Nat.sub_self, List.drop_zero]

/-- A log that is filled and flushed, and then accepts two more entries. -/
def refilledOperations : List Operation :=
  List.replicate 64 (.write ⟨.info, 0, stageSource, .empty⟩) ++
    [.flush, .write ⟨.info, 1, stageSource, .empty⟩, .write ⟨.info, 2, stageSource, .empty⟩]

/-- Both of the new entries are held and were never handed over, but only the last is pending. -/
theorem flush_leaves_out_held_entry :
    let r := (runAll (.empty .info) .empty refilledOperations).1
    let h := (runAll (.empty .info) .empty refilledOperations).2
    (h.outstanding r).map (·.sequence) = [1, 2] ∧ r.unflushed.map (·.sequence) = [2] ∧
      r.pending = 1 := by
  decide +kernel

end BootStage.Log
