import BootStage.Region

/-!
# Memory layout

Fixed windows of the on-chip memory, and DRAM with two reservations at its top: the secure area of
the trusted execution environment (TEE), and above it the area shared between the worlds.
-/

namespace BootStage

structure Layout where
  dramBase : UInt64
  dramMaxSize : UInt64
  /-- Secure DRAM, below the shared area. -/
  dramSecureSize : UInt64
  /-- Shared DRAM, at the very top. -/
  dramSharedSize : UInt64
  /-- Code and data of this stage. -/
  stage : Region
  /-- The device tree that describes the board. -/
  deviceTree : Region
  /-- Window for the resident part of the TEE. -/
  teePager : Region
  /-- Window for the firmware configuration. -/
  firmwareConfig : Region
  /-- Always-on memory. -/
  backupMemory : Region
  deriving DecidableEq

namespace Layout

/-- Layout of the STM32MP15: 256 KiB of on-chip memory from `0x2ffc0000`, DRAM from `0xc0000000`. -/
def stm32mp15 : Layout where
  dramBase := 0xC0000000
  dramMaxSize := 0x40000000
  dramSecureSize := 0x01E00000
  dramSharedSize := 0x00200000
  stage := ⟨0x2FFE0000, 0x1F000, .ofList [.code, .secure]⟩
  deviceTree := ⟨0x2FFD9000, 0x7000, .ofList [.readOnlyData, .secure]⟩
  teePager := .window 0x2FFC0000 0x19000
  firmwareConfig := .window 0x2FFFF000 0x1000
  backupMemory := .window 0x54000000 0x1000

/-- DRAM of a given size, as secure cached memory. -/
def dram (l : Layout) (size : UInt64) : Region :=
  ⟨l.dramBase, size, .ofList [.readWrite, .secure, .cacheable]⟩

/-- The secure window at the top of DRAM, if DRAM is large enough for both reservations. -/
def dramTopWindow? (l : Layout) (dramSize : UInt64) : Option Region :=
  let reserved := l.dramSecureSize + l.dramSharedSize
  if dramSize < reserved then none
  else some (.window (l.dramBase + dramSize - reserved) l.dramSecureSize)

/-- The address lies in the largest DRAM that the chip supports. -/
def isDramAddress (l : Layout) (address : UInt64) : Bool :=
  l.dramBase ≤ address && address - l.dramBase < l.dramMaxSize

end Layout

end BootStage
