import BootStage.Board.Calls

/-!
# The memory map

The regions that the stage maps are collected before the memory management unit learns of any.  A
region is taken only if it is valid and shares no byte with one that is held already.

The regions of the fixed layout are constants.  A stage that is built from contradictory constants
cannot run at all: it stops at once, with a message and without the error handling of the boot flow
(`Defect`).
-/

namespace BootStage

/-- A contradiction among the constants of the build. -/
inductive Defect
  /-- The firmware version has no place in a fuse word. -/
  | versionTooLarge
  /-- A region of the fixed layout was refused by the memory map. -/
  | unmappable (region : Region) (cause : Error)
  deriving DecidableEq

def Defect.message : Defect → String
  | versionTooLarge => "monotonic version exceeds the fuse word width"
  | unmappable region cause => "cannot map " ++ region.describe ++ ": " ++ cause.message

/-- Regions that a map has room for. -/
def MemoryMap.capacity : Nat := 8

/-- Regions in the order in which they were added. -/
structure MemoryMap where
  regions : List Region
  deriving DecidableEq

namespace MemoryMap

def empty : MemoryMap := ⟨[]⟩

def add (m : MemoryMap) (r : Region) : Except Error MemoryMap :=
  if ¬ r.isValid then .error .invalidRegion
  else if m.regions.any (·.overlaps r) then .error .regionOverlap
  else if capacity ≤ m.regions.length then .error .tableFull
  else .ok ⟨m.regions ++ [r]⟩

/-- Add a region of the fixed layout; that it is refused is a defect of the build. -/
def addFixed (m : MemoryMap) (r : Region) : Except Defect MemoryMap :=
  match m.add r with
  | .ok m' => .ok m'
  | .error cause => .error (.unmappable r cause)

/-- Hand regions over one after the other, up to the first that is refused. -/
def handOver : List Region → Program (Except DriverFault Unit)
  | [] => Board.enableMmu
  | r :: rs => do
    match ← Board.mapStatic r with
    | .ok () => handOver rs
    | .error fault => return .error fault

/-- Hand the whole map over and switch the unit on. -/
def install (m : MemoryMap) : Program (Except DriverFault Unit) := handOver m.regions

/-- Add a region while the unit is on.  The map keeps it even if the unit then refuses it. -/
def addDynamic (m : MemoryMap) (r : Region) : Program (Except Error Unit × MemoryMap) :=
  match m.add r with
  | .error e => return (.error e, m)
  | .ok m' => do
    match ← Board.mapDynamic r with
    | .ok () => return (.ok (), m')
    | .error _ => return (.error .dramMappingFailed, m')

end MemoryMap

end BootStage
