/-!
# Firmware versions and the words that record them

A fuse word records the version that equals the number of its set bits.  Fuse bits go from 0 to 1
and never back, so a word only ever comes to record a later version.  A word has 32 bits, and that
is the largest version there is.

`FirmwareVersion.advance` sets the lowest clear bits of a word until it records the version.
-/

namespace BootStage

/-- Bits of a fuse word. -/
def fuseWidth : Nat := 32

/-- Number of set bits. -/
def bitCount (w : UInt32) : Nat := (List.range fuseWidth).countP fun i => w.toNat.testBit i

/-- Set the lowest clear bit; a word without one is returned as it is. -/
def setLowestClear (w : UInt32) : UInt32 := w ||| (~~~w &&& (w + 1))

/-- Set the `n` lowest clear bits. -/
def setLowestClears : Nat → UInt32 → UInt32
  | 0, w => w
  | n + 1, w => setLowestClears n (setLowestClear w)

@[ext] structure FirmwareVersion where
  number : Nat
  number_le : number ≤ fuseWidth
  deriving DecidableEq

namespace FirmwareVersion

def zero : FirmwareVersion := ⟨0, by decide⟩

def ofNat? (n : Nat) : Option FirmwareVersion :=
  if h : n ≤ fuseWidth then some ⟨n, h⟩ else none

/-- The word with the `number` lowest bits set. -/
def pattern (v : FirmwareVersion) : UInt32 := UInt32.ofNat ((1 <<< v.number) - 1)

/-- `stored` records this version or a later one. -/
def isRecordedBy (v : FirmwareVersion) (stored : UInt32) : Bool := v.number ≤ bitCount stored

/-- `stored` records a later version. -/
def isOlderThan (v : FirmwareVersion) (stored : UInt32) : Bool := v.number < bitCount stored

/-- `stored` with just enough of its lowest clear bits set to record this version. -/
def advance (v : FirmwareVersion) (stored : UInt32) : UInt32 :=
  setLowestClears (v.number - bitCount stored) stored

theorem advance_of_isRecordedBy {v : FirmwareVersion} {w : UInt32} (h : v.isRecordedBy w) :
    v.advance w = w := by
  simp only [isRecordedBy, decide_eq_true_eq] at h
  rw [advance, Nat.sub_eq_zero_of_le h, setLowestClears]

end FirmwareVersion

end BootStage
