import BootStage.Log.Entry

/-!
# The bounded log

The log keeps the newest 64 entries.  The console comes up late, so an entry stays pending until a
flush hands it over.  Pending entries are a count, which every eviction lowers by one.  Entries less
severe than the threshold are not recorded, and the sequence number counts the ones that are.
-/

namespace BootStage.Log

/-- Entries kept before the oldest is evicted. -/
def ringCapacity : Nat := 64

/-- Recorded entries, oldest first; a flush hands over the last `pending` of them. -/
structure Ring where
  entries : List Entry
  pending : Nat
  sequence : UInt32
  threshold : Level
  deriving DecidableEq

namespace Ring

def empty (threshold : Level) : Ring := ⟨[], 0, 0, threshold⟩

def length (r : Ring) : Nat := r.entries.length

def isFull (r : Ring) : Bool := ringCapacity ≤ r.length

/-- Forget the oldest entry, and one pending entry if there is any. -/
def evict (r : Ring) : Ring := { r with entries := r.entries.tail, pending := r.pending - 1 }

/-- Append an entry to a log that has room for it. -/
def push (r : Ring) (e : Entry) : Ring :=
  { r with
    entries := r.entries ++ [e]
    pending := r.pending + 1
    sequence := r.sequence + 1 }

/-- Record an entry that passes the threshold, evicting the oldest one when full. -/
def write (r : Ring) (e : Entry) : Ring :=
  if e.level.passes r.threshold then (if r.isFull then r.evict else r).push e else r

/-- Record a formatted message under the next sequence number. -/
def record (r : Ring) (level : Level) (source : String) (pieces : List String) : Ring :=
  r.write ⟨level, r.sequence, source, .ofPieces pieces⟩

/-- Record formatted messages one after the other. -/
def recordAll (r : Ring) (source : String) : List (Level × List String) → Ring
  | [] => r
  | (level, pieces) :: rest => (r.record level source pieces).recordAll source rest

/-- The pending entries, oldest first. -/
def unflushed (r : Ring) : List Entry := r.entries.drop (r.length - r.pending)

/-- The log once the pending entries have been handed over. -/
def markFlushed (r : Ring) : Ring := { r with pending := 0 }

/-- Forget every entry; the sequence number runs on. -/
def clear (r : Ring) : Ring := { r with entries := [], pending := 0 }

/-- Some entry's message contains `needle`. -/
def mentions (r : Ring) (needle : String) : Bool :=
  r.entries.any fun e => Text.occursIn needle.toList e.message.text.toList

theorem length_push (r : Ring) (e : Entry) : (r.push e).length = r.length + 1 := by
  simp [push, length]

theorem length_write_le {r : Ring} (h : r.length ≤ ringCapacity) (e : Entry) :
    (r.write e).length ≤ ringCapacity := by
  unfold write
  split
  · rw [length_push]
    split
    · next hfull =>
      simp only [evict, length, List.length_tail] at *
      simp only [ringCapacity] at *
      omega
    · next hroom =>
      simp only [isFull, decide_eq_true_eq] at hroom
      omega
  · exact h

end Ring

end BootStage.Log
