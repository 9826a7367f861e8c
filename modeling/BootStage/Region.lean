import BootStage.Flags
import BootStage.Text

/-!
# Physical memory regions

A region is a base, a size and mapping attributes.  Its bytes are the addresses from the base on,
as many as its size says, and never past the top of the 64-bit address space: a region whose end
does not fit in 64 bits covers everything from its base upwards (`Region.contains_iff_covers`).
-/

namespace BootStage

/-- How a region is mapped, and for which world. -/
inductive MapAttribute
  | code
  | readOnlyData
  | readWrite
  | secure
  | nonSecure
  | cacheable
  | device
  deriving DecidableEq

instance : Flag MapAttribute where
  all := [.code, .readOnlyData, .readWrite, .secure, .nonSecure, .cacheable, .device]
  bit
    | .code => 0x01
    | .readOnlyData => 0x02
    | .readWrite => 0x04
    | .secure => 0x08
    | .nonSecure => 0x10
    | .cacheable => 0x20
    | .device => 0x40

@[ext] structure Region where
  base : UInt64
  size : UInt64
  attributes : Flags MapAttribute
  deriving DecidableEq

namespace Region

/-- A region that only bounds a placement and is mapped by nobody. -/
def window (base size : UInt64) : Region := ⟨base, size, .empty⟩

instance : Inhabited Region := ⟨window 0 0⟩

/-- The address after the last byte, if it is an address. -/
def limit? (r : Region) : Option UInt64 :=
  if r.base.toNat + r.size.toNat < 0x10000000000000000 then some (r.base + r.size) else none

/-- Some byte is covered and the end is an address. -/
def isValid (r : Region) : Bool := r.size != 0 && r.limit?.isSome

def contains (r : Region) (address : UInt64) : Bool :=
  match r.limit? with
  | some limit => r.base ≤ address && address < limit
  | none => r.base ≤ address

/-- The last of `size` bytes from `base`, for a non-zero `size`. -/
def lastOf? (base size : UInt64) : Option UInt64 :=
  if base.toNat + (size.toNat - 1) < 0x10000000000000000 then some (base + (size - 1)) else none

/-- All of `size` bytes from `base` lie in the region; for an empty range, its base does. -/
def containsRange (r : Region) (base size : UInt64) : Bool :=
  if size = 0 then r.contains base
  else
    match lastOf? base size, r.limit? with
    | some last, some limit => r.base ≤ base && last < limit
    | _, _ => false

/-- The last byte of a non-empty region, at most the top of the address space. -/
def lastByte (r : Region) : UInt64 := (lastOf? r.base r.size).getD 0xFFFFFFFFFFFFFFFF

/-- The regions share a byte. -/
def overlaps (r s : Region) : Bool :=
  if r.size = 0 ∨ s.size = 0 then false
  else r.base ≤ s.lastByte && s.base ≤ r.lastByte

/-- The addresses that the region covers. -/
def Covers (r : Region) (address : Nat) : Prop :=
  r.base.toNat ≤ address ∧ address < r.base.toNat + r.size.toNat ∧
    address < 0x10000000000000000

instance (r : Region) (address : Nat) : Decidable (r.Covers address) :=
  inferInstanceAs (Decidable (_ ∧ _ ∧ _))

/-- Base and size, as in `[0x2ffe0000, +0x10]`. -/
def describe (r : Region) : String :=
  "[0x" ++ Text.hex 8 r.base.toNat ++ ", +0x" ++ Text.hex 1 r.size.toNat ++ "]"

theorem contains_iff_covers (r : Region) (address : UInt64) :
    r.contains address ↔ r.Covers address.toNat := by
  have hAddress := address.toNat_lt
  unfold contains limit? Covers
  by_cases hEnd : r.base.toNat + r.size.toNat < 0x10000000000000000
  · have hSum : (r.base + r.size).toNat = r.base.toNat + r.size.toNat := by
      rw [UInt64.toNat_add]
      omega
    simp only [hEnd, if_true, Bool.and_eq_true, decide_eq_true_eq, UInt64.le_iff_toNat_le,
      UInt64.lt_iff_toNat_lt, hSum]
    omega
  · simp only [hEnd, if_false, decide_eq_true_eq, UInt64.le_iff_toNat_le]
    omega

theorem overlaps_comm (r s : Region) : r.overlaps s = s.overlaps r := by
  unfold overlaps
  by_cases h : r.size = 0 <;> by_cases h' : s.size = 0 <;> simp [h, h', Bool.and_comm]

end Region

end BootStage
