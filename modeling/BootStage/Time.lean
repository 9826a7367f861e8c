/-!
# Bounded waits

Time is a free-running count of microseconds.  A deadline expires once strictly more than its
timeout has passed; a clock that reads less than at the start has let no time pass.
-/

namespace BootStage

/-- Microseconds from `start` to `now`. -/
def elapsed (start now : UInt64) : UInt64 := if start ≤ now then now - start else 0

structure Deadline where
  start : UInt64
  timeout : UInt64
  deriving DecidableEq

namespace Deadline

def isExpired (d : Deadline) (now : UInt64) : Bool := d.timeout < elapsed d.start now

/-- Microseconds left. -/
def remaining (d : Deadline) (now : UInt64) : UInt64 :=
  if elapsed d.start now ≤ d.timeout then d.timeout - elapsed d.start now else 0

end Deadline

theorem toNat_elapsed (start now : UInt64) :
    (elapsed start now).toNat = now.toNat - start.toNat := by
  unfold elapsed
  split
  · next h => exact UInt64.toNat_sub_of_le _ _ h
  · next h =>
    rw [UInt64.le_iff_toNat_le] at h
    simp only [UInt64.toNat_zero]
    omega

end BootStage
