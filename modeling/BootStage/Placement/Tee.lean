import BootStage.Placement.Basic
import BootStage.Tee.Image

/-!
# Placement of the TEE

A loaded TEE image is looked at once.  A monolithic image runs where it was loaded; a container is
split into its parts; and if DRAM was kept across standby, the TEE of a container is resident still
and is resumed where it left off.
-/

namespace BootStage.Placement

/-- Windows for the parts of a container. -/
def teeWindows (bytes : List UInt8) : Placing Tee.Windows := do
  let config ← Placing.config
  match config.teeWindows with
  | .fixed =>
    let table ← Placing.table
    return ⟨table.teePager.region, table.teePaged.region⟩
  | .dramTop =>
    let top ← Placing.dramTopWindow
    let declared := (Tee.pagerAddress? bytes).any config.layout.teePager.contains
    return ⟨if declared then config.layout.teePager else top, top⟩

/-- Give a part its region; an empty part is not fetched. -/
def placePart (region : Region) (d : Descriptor) : Descriptor :=
  let placed := { d with region, imageSize := region.size }
  if region.size = 0 then placed else placed.fetch

/-- Enter a split TEE at its pager, with the base of its paged part as first argument. -/
def placeSplit (parts : Tee.Split) : Placing Unit := do
  Placing.update .tee fun d =>
    { d with
      entry :=
        { d.entry with
          pc := parts.entryPoint
          state := parts.state
          arg0 := parts.paged.base
          arg1 := 0
          arg2 := 0 } }
  Placing.update .teePager (placePart parts.pager)
  Placing.update .teePaged (placePart parts.paged)

/-- A monolithic image and its configuration may be one piece of memory. -/
def growByConfig : Placing Unit := do
  let table ← Placing.table
  let region := table.tee.region
  let extra := table.teeConfig.region.size
  if region.size.toNat + extra.toNat < 0x10000000000000000 then
    Placing.setRegion .tee { region with size := region.size + extra }
  else
    throw .invalidRegion

def placeMonolithic : Placing Unit := do
  if ¬ (← Placing.table).tee.region.isValid then throw .noTeeEntryPoint
  let config ← Placing.config
  match config.teeWindows with
  | .fixed => growByConfig
  | .dramTop => Placing.enterAt .tee config.layout.teePager.base
  Placing.update .tee fun d => { d with entry := { d.entry with arg0 := 0 } }

/-- Split the container that was loaded at `base`. -/
def placeContainer (bytes : List UInt8) (base : UInt64) : Placing Unit := do
  let windows ← teeWindows bytes
  let config ← Placing.config
  match Tee.Image.parse bytes base windows config.reservedRegions with
  | .ok (.split parts) => placeSplit parts
  | .ok (.monolithic _) => placeMonolithic
  | .error e =>
    Placing.note .error ["OPTEE header parse error."]
    throw e

/-- Only the entry point of a resident TEE is set; always-on memory needs its clock for that. -/
def resumeTee : Placing Unit := do
  let pc ← Board.savedTeeEntry
  Placing.enterAt .tee pc
  if (← Placing.config).layout.backupMemory.contains pc then
    Board.enableClock .backupMemory

/-- A TEE in DRAM can be resumed later if this stage's parameters are kept. -/
def keepParameters : Placing Unit := do
  let pc := (← Placing.table).tee.entry.pc
  if (← Placing.config).layout.isDramAddress pc then
    match ← Board.saveStageParameters with
    | .ok () => return
    | .error fault =>
      Placing.note .warning ["Cannot save stage parameters: ", fault.message]
      modify fun s =>
        { s with placement := s.placement.addDegraded .tee .contextSaveFailed }

def placeTee : Placing Unit := do
  let base := (← Placing.table).tee.region.base
  Placing.enterAt .tee base
  let bytes := (← Board.imageBytes base Tee.headerCapacity).getD []
  if Tee.hasSignature bytes then
    if ← Board.isDramRestored then
      resumeTee
    else
      placeContainer bytes base
      keepParameters
  else
    placeMonolithic
    keepParameters

end BootStage.Placement
