import Mathlib.Algebra.Group.Nat.Defs
import Mathlib.Data.List.Forall2
import BootStage.Proofs.Log.Pending

/-!
# The log against its chronicle

A `Chronicle` forgets nothing: it has every entry that was ever accepted, in batches that the flushes
close.  It knows neither a capacity nor a count of pending entries nor a counter of sequence numbers;
the number of an entry is how many were accepted before it.  A log that undergoes the same operations
is a view of it:

    r.entries  = (c.accepted.drop c.cleared).rtake ringCapacity        (Matches.entries)
    r.sequence = how many entries were accepted                        (Matches.sequence)
    r.unflushed <:+ c.recent, what was accepted since the last flush   (Matches.unflushed_suffix)

So each flush hands over a tail of its own batch (`Matches.emissions_suffix`), and no entry is handed
over by two of them.  `ring_follows_chronicle` is all of this for every sequence of operations.
-/

namespace BootStage.Log

/-- Everything that a log accepted since it was made. -/
structure Chronicle where
  threshold : Level
  /-- For each flush, the entries accepted since the flush before it. -/
  batches : List (List Entry)
  /-- The entries accepted since the last flush. -/
  recent : List Entry
  /-- How many entries had been accepted at the last clear. -/
  cleared : Nat

namespace Chronicle

def empty (threshold : Level) : Chronicle := ⟨threshold, [], [], 0⟩

/-- Every accepted entry, oldest first. -/
def accepted (c : Chronicle) : List Entry := c.batches.flatten ++ c.recent

/-- An entry is accepted if its level passes the threshold as it is now. -/
def offer (c : Chronicle) (e : Entry) : Chronicle :=
  if e.level.passes c.threshold then { c with recent := c.recent ++ [e] } else c

def next (c : Chronicle) : Operation → Chronicle
  | .write e => c.offer e
  | .record level source pieces =>
    c.offer ⟨level, .ofNat c.accepted.length, source, .ofPieces pieces⟩
  | .flush => { c with batches := c.batches ++ [c.recent], recent := [] }
  | .clear => { c with cleared := c.accepted.length }
  | .setThreshold level => { c with threshold := level }

theorem offer_of_passes {c : Chronicle} {e : Entry} (h : e.level.passes c.threshold = true) :
    c.offer e = { c with recent := c.recent ++ [e] } :=
  if_pos h

theorem offer_of_not_passes {c : Chronicle} {e : Entry} (h : ¬ e.level.passes c.threshold = true) :
    c.offer e = c :=
  if_neg h

theorem accepted_recent_append (c : Chronicle) (e : Entry) :
    ({ c with recent := c.recent ++ [e] } : Chronicle).accepted = c.accepted ++ [e] :=
  (List.append_assoc _ _ _).symm

theorem accepted_flush (c : Chronicle) : (c.next .flush).accepted = c.accepted := by
  simp [next, accepted]

end Chronicle

namespace Ring

variable {r : Ring} {e : Entry}

theorem write_of_passes (h : e.level.passes r.threshold = true) :
    r.write e = (if r.isFull then r.evict else r).push e :=
  if_pos h

theorem write_of_not_passes (h : ¬ e.level.passes r.threshold = true) : r.write e = r :=
  if_neg h

theorem sequence_write (h : e.level.passes r.threshold = true) :
    (r.write e).sequence = r.sequence + 1 := by
  rw [write_of_passes h]
  split <;> rfl

theorem threshold_write (r : Ring) (e : Entry) : (r.write e).threshold = r.threshold := by
  by_cases h : e.level.passes r.threshold = true
  · rw [write_of_passes h]
    split <;> rfl
  · rw [write_of_not_passes h]

end Ring

namespace History

variable {r : Ring} {e : Entry}

theorem next_write_of_passes (h : History) (hPasses : e.level.passes r.threshold = true) :
    h.next r (.write e) = { h with accepted := h.accepted ++ [e] } := by
  simp [next, Operation.accepted?, hPasses]

theorem next_write_of_not_passes (h : History) (hPasses : ¬ e.level.passes r.threshold = true) :
    h.next r (.write e) = h := by
  simp [next, Operation.accepted?, hPasses]

end History

/-- What the operation hands over, if it is a flush. -/
def Operation.emission? (r : Ring) : Operation → Option (List Entry)
  | flush => some r.unflushed
  | write _ | record _ _ _ | clear | setThreshold _ => none

/-- What each flush hands over, as a log undergoes operations one after the other. -/
def emissions (r : Ring) : List Operation → List (List Entry)
  | [] => []
  | op :: ops => (op.emission? r).toList ++ emissions (op.apply r) ops

/-- The log `r`, which comes out of its history since the last clear, is a view of the chronicle. -/
structure Chronicle.Matches (c : Chronicle) (h : History) (r : Ring) : Prop where
  describes : h.Describes r
  threshold : r.threshold = c.threshold
  sequence : r.sequence = .ofNat c.accepted.length
  cleared_le : c.cleared ≤ c.accepted.length
  sinceClear : h.accepted = c.accepted.drop c.cleared
  sinceFlush : h.accepted.drop h.flushed <:+ c.recent

namespace Chronicle.Matches

variable {c : Chronicle} {h : History} {r : Ring}

theorem empty (threshold : Level) : (Chronicle.empty threshold).Matches .empty (.empty threshold) :=
  ⟨.empty threshold, rfl, rfl, Nat.le_refl _, rfl, List.suffix_refl _⟩

/-! ## One operation -/

/-- An entry that passes is the newest everywhere. -/
theorem push (hc : c.Matches h r) {e : Entry} (hPasses : e.level.passes r.threshold = true) :
    ({ c with recent := c.recent ++ [e] } : Chronicle).Matches
      { h with accepted := h.accepted ++ [e] } (r.write e) := by
  have hDescribes := hc.describes.step (.write e)
  have hFlushed := hc.describes.flushed_le
  have hCleared := hc.cleared_le
  rw [h.next_write_of_passes hPasses] at hDescribes
  refine ⟨hDescribes, ?_, ?_, ?_, ?_, ?_⟩
  · rw [Ring.threshold_write]
    exact hc.threshold
  · rw [Ring.sequence_write hPasses, hc.sequence, accepted_recent_append, List.length_append,
      List.length_singleton, UInt32.ofNat_add]
    rfl
  · rw [accepted_recent_append, List.length_append]
    exact Nat.le_add_right_of_le hCleared
  · rw [accepted_recent_append, List.drop_append_of_le_length hCleared, hc.sinceClear]
  · show (h.accepted ++ [e]).drop h.flushed <:+ c.recent ++ [e]
    rw [List.drop_append_of_le_length hFlushed]
    exact (List.suffix_append_inj_of_length_eq rfl).2 ⟨hc.sinceFlush, rfl⟩

theorem write (hc : c.Matches h r) (e : Entry) :
    (c.offer e).Matches (h.next r (.write e)) (r.write e) := by
  by_cases hPasses : e.level.passes r.threshold = true
  · rw [offer_of_passes (hc.threshold ▸ hPasses), h.next_write_of_passes hPasses]
    exact hc.push hPasses
  · rw [offer_of_not_passes (hc.threshold ▸ hPasses), h.next_write_of_not_passes hPasses,
      Ring.write_of_not_passes hPasses]
    exact hc

theorem flush (hc : c.Matches h r) : (c.next .flush).Matches (h.next r .flush) r.markFlushed where
  describes := hc.describes.flush
  threshold := hc.threshold
  sequence := by rw [accepted_flush]; exact hc.sequence
  cleared_le := by rw [accepted_flush]; exact hc.cleared_le
  sinceClear := by rw [accepted_flush]; exact hc.sinceClear
  sinceFlush := by simp [History.next, next]

theorem clear (hc : c.Matches h r) : (c.next .clear).Matches (h.next r .clear) r.clear where
  describes := hc.describes.step .clear
  threshold := hc.threshold
  sequence := hc.sequence
  cleared_le := Nat.le_refl _
  sinceClear := (List.drop_length).symm
  sinceFlush := List.nil_suffix

theorem setThreshold (hc : c.Matches h r) (level : Level) :
    (c.next (.setThreshold level)).Matches (h.next r (.setThreshold level))
      { r with threshold := level } := by
  have hHistory : h.next r (.setThreshold level) = h := by
    simp [History.next, Operation.accepted?]
  have hDescribes := hc.describes.setThreshold level
  rw [hHistory] at hDescribes ⊢
  exact ⟨hDescribes, rfl, hc.sequence, hc.cleared_le, hc.sinceClear, hc.sinceFlush⟩

theorem step (hc : c.Matches h r) (op : Operation) :
    (c.next op).Matches (h.next r op) (op.apply r) := by
  cases op with
  | write e => exact hc.write e
  | record level source pieces =>
    show (c.offer ⟨level, .ofNat c.accepted.length, source, .ofPieces pieces⟩).Matches _ _
    rw [← hc.sequence]
    exact hc.write ⟨level, r.sequence, source, .ofPieces pieces⟩
  | flush => exact hc.flush
  | clear => exact hc.clear
  | setThreshold level => exact hc.setThreshold level

/-! ## What is seen of the log -/

theorem entries (hc : c.Matches h r) :
    r.entries = (c.accepted.drop c.cleared).rtake ringCapacity := by
  rw [← hc.sinceClear]
  exact hc.describes.entries

theorem toNat_sequence (hc : c.Matches h r) : r.sequence.toNat = c.accepted.length % 2 ^ 32 := by
  rw [hc.sequence]
  exact UInt32.toNat_ofNat'

theorem length_le (hc : c.Matches h r) : r.length ≤ ringCapacity := by
  rw [hc.describes.length]
  exact Nat.min_le_right _ _

theorem pending_le (hc : c.Matches h r) : r.pending ≤ r.length := by
  have hOutstanding := hc.describes.length_outstanding
  have hPending := hc.describes.pending_le
  have hLength := hc.describes.length
  omega

/-- A flush hands over as many entries as are pending. -/
theorem length_unflushed (hc : c.Matches h r) : r.unflushed.length = r.pending := by
  have hPending := hc.pending_le
  unfold Ring.unflushed Ring.length at *
  rw [List.length_drop]
  omega

/-- What is pending was accepted since the last flush, and nothing came after it. -/
theorem unflushed_suffix (hc : c.Matches h r) : r.unflushed <:+ c.recent := by
  rw [hc.describes.unflushed_eq_rtake]
  have hPending : (h.outstanding r).rtake r.pending <:+ h.outstanding r := List.drop_suffix _ _
  have hOutstanding : h.outstanding r <:+ h.accepted.drop h.flushed := List.drop_suffix _ _
  exact (hPending.trans hOutstanding).trans hc.sinceFlush

/-- A message that passes becomes the newest entry, and its number is how many were accepted
before. -/
theorem entries_record (hc : c.Matches h r) {level : Level}
    (hPasses : level.passes r.threshold = true) (source : String) (pieces : List String) :
    ∃ older e, (r.record level source pieces).entries = older ++ [e] ∧
      e.sequence.toNat = c.accepted.length % 2 ^ 32 := by
  have hRecord : r.record level source pieces = _ := Ring.write_of_passes hPasses
  rw [hRecord]
  exact ⟨_, _, rfl, hc.toNat_sequence⟩

/-! ## All operations -/

theorem exists_run (hc : c.Matches h r) (ops : List Operation) :
    ∃ h', (ops.foldl next c).Matches h' (ops.foldl Operation.apply r) := by
  induction ops generalizing c h r with
  | nil => exact ⟨h, hc⟩
  | cons op ops ih => exact ih (hc.step op)

/-- Only a flush closes a batch, and what it hands over is a tail of that batch. -/
theorem emission_suffix (hc : c.Matches h r) (op : Operation) :
    ∃ closed, (c.next op).batches = c.batches ++ closed ∧
      List.Forall₂ (· <:+ ·) (op.emission? r).toList closed := by
  have hOffer : ∀ e, (c.offer e).batches = c.batches ++ [] := by
    intro e
    rw [List.append_nil]
    unfold offer
    split <;> rfl
  cases op with
  | write e => exact ⟨[], hOffer e, .nil⟩
  | record level source pieces => exact ⟨[], hOffer _, .nil⟩
  | flush => exact ⟨[c.recent], rfl, .cons hc.unflushed_suffix .nil⟩
  | clear => exact ⟨[], (List.append_nil _).symm, .nil⟩
  | setThreshold level => exact ⟨[], (List.append_nil _).symm, .nil⟩

theorem emissions_suffix (hc : c.Matches h r) (ops : List Operation) :
    ∃ closed, (ops.foldl next c).batches = c.batches ++ closed ∧
      List.Forall₂ (· <:+ ·) (emissions r ops) closed := by
  induction ops generalizing c h r with
  | nil => exact ⟨[], (List.append_nil _).symm, .nil⟩
  | cons op ops ih =>
    obtain ⟨first, hFirst, hTail⟩ := hc.emission_suffix op
    obtain ⟨later, hLater, hTails⟩ := ih (hc.step op)
    refine ⟨first ++ later, ?_, List.rel_append hTail hTails⟩
    rw [List.foldl_cons, hLater, hFirst, List.append_assoc]

end Chronicle.Matches

theorem flatten_sublist_of_suffixes {parts wholes : List (List Entry)}
    (h : List.Forall₂ (· <:+ ·) parts wholes) : parts.flatten.Sublist wholes.flatten := by
  induction h with
  | nil => exact List.Sublist.refl _
  | cons hSuffix _ ih => exact hSuffix.sublist.append ih

/-- Whatever is done to a log, it holds the newest 64 of the entries that were accepted since it was
last cleared, or all of them if they are fewer; those are accepted whose level passes the threshold as
it is when they come.  No more entries are pending than are held, and a flush would hand over as many.
Each flush hands over a tail of what was accepted since the flush before it, so all flushes together
hand over accepted entries in order and none twice.  A message that is recorded next is numbered by how
many entries were ever accepted. -/
theorem ring_follows_chronicle (threshold : Level) (ops : List Operation) :
    let r := ops.foldl Operation.apply (.empty threshold)
    let c := ops.foldl Chronicle.next (.empty threshold)
    r.entries = (c.accepted.drop c.cleared).rtake ringCapacity ∧
    r.threshold = c.threshold ∧
    r.pending ≤ r.length ∧ r.length ≤ ringCapacity ∧ r.unflushed.length = r.pending ∧
    List.Forall₂ (· <:+ ·) (emissions (.empty threshold) ops) c.batches ∧
    (emissions (.empty threshold) ops).flatten.Sublist c.accepted ∧
    ∀ level source pieces, level.passes r.threshold = true →
      ∃ older e, (r.record level source pieces).entries = older ++ [e] ∧
        e.sequence.toNat = c.accepted.length % 2 ^ 32 := by
  intro r c
  obtain ⟨h, hc⟩ := (Chronicle.Matches.empty threshold).exists_run ops
  obtain ⟨closed, hClosed, hTails⟩ := (Chronicle.Matches.empty threshold).emissions_suffix ops
  have hBatches : c.batches = closed := hClosed
  rw [← hBatches] at hTails
  refine ⟨hc.entries, hc.threshold, hc.pending_le, hc.length_le, hc.length_unflushed, hTails, ?_, ?_⟩
  · exact (flatten_sublist_of_suffixes hTails).trans (List.sublist_append_left _ _)
  · intro level source pieces hPasses
    exact hc.entries_record hPasses source pieces

/-- A log that was filled and flushed and then accepted two more entries holds 64, but has accepted
66, and the next message is numbered so. -/
theorem refilled_log_numbers_on :
    let r := refilledOperations.foldl Operation.apply (.empty .info)
    Level.info.passes r.threshold = true ∧
      ∃ older e, (r.record .info stageSource ["on"]).entries = older ++ [e] ∧
        e.sequence.toNat = 66 := by
  intro r
  have hPasses : Level.info.passes r.threshold = true := by decide +kernel
  obtain ⟨-, -, -, -, -, -, -, hNumbered⟩ := ring_follows_chronicle .info refilledOperations
  obtain ⟨older, e, hEntries, hNumber⟩ := hNumbered .info stageSource ["on"] hPasses
  refine ⟨hPasses, older, e, hEntries, hNumber.trans ?_⟩
  decide +kernel

end BootStage.Log
