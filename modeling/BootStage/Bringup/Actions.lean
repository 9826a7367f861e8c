import BootStage.Bringup.Console
import BootStage.Bringup.OperatingPoint
import BootStage.Bringup.PowerDomain

/-!
# What each step does

The actions of the steps that need only a few calls, and `Step.action`, which gives every step its
action.
-/

namespace BootStage

namespace Bringup

def probeFuses : Action Unit := Action.require Board.probeFuses .fuseProbeFailed

/-- The regions that the stage maps for itself, in the order in which they are mapped. -/
def staticRegions (layout : Layout) : List Region :=
  [layout.stage, layout.deviceTree,
   ⟨layout.firmwareConfig.base, layout.firmwareConfig.size, .ofList [.readOnlyData, .secure]⟩]

/-- Add a region of the layout to the memory map. -/
def mapFixed (region : Region) : Action Unit := do
  let b ← get
  match b.memoryMap.addFixed region with
  | .ok memoryMap => set { b with memoryMap }
  | .error defect => throw (.defect defect)

/-- Put the stage's own regions under protection. -/
def protectMemory : Action Unit := do
  let b ← get
  (staticRegions b.config.layout).forM mapFixed
  let b ← get
  Action.require b.memoryMap.install .mmuConfigFailed

def openConfigTree : Action Unit := Action.require Board.openConfig .configTreeInvalid

def normalizePowerDomain : Action Unit := do
  let b ← get
  Action.settled (← PowerDomain.normalize b.patience b.config.powerTimeout)

def startWatchdog : Action Unit := do
  Action.require Board.startWatchdog .watchdogInitFailed
  Board.refreshWatchdog

/-- Note how open the device is to debuggers; an open one gets its second watchdog frozen. -/
def applyDebugPolicy : Action Unit := do
  let features ← Board.debugFeatures
  let closed ← Board.isClosedDevice
  let access : DebugAccess := ⟨!features.isEmpty, closed⟩
  modify fun b => { b with report := { b.report with debugAccess := some access } }
  if access.isOpen then
    match ← Board.freezeSecondWatchdog with
    | .ok () => pure ()
    | .error fault =>
      Action.note .info ["IWDG2 freeze error : ", fault.message]
      modify (·.degrade .debugPolicy .debugFreezeFailed)
    if access.isClosedDevice then
      modify fun b => b.withLog (DebugAccess.warn b.stage.log)

def saveBootInterface : Action Unit := do
  let context := (← get).stage.context
  Action.require (Board.saveBootInterface context.interface context.instanceIndex)
    .contextSaveFailed

def partitionBuses : Action Unit :=
  Action.require Board.partitionBuses .securityPartitionFailed

def reportResetReason : Action Unit := do
  let status ← Board.readRegister Registers.Rcc.resetStatus
  modify fun b =>
    let (reason, log) := ResetReason.report ⟨status⟩ b.stage.log
    { b.withLog log with report := { b.report with resetReason := some reason } }

/-- Refuse to be a rollback, and record the version that runs. -/
def enforceVersion : Action Unit := do
  let b ← get
  let (result, log) ← Counter.enforce b.config.firmwareVersion b.stage.log
  modify (·.withLog log)
  let counter ← Action.ofExcept result
  modify fun b => { b with report := { b.report with counter := some counter } }

def refreshPmic : Action Unit := do
  if ← Board.pmicPresent then
    Action.require Board.startPmic .pmicStatusUnavailable
    let version ← Action.require Board.pmicVersion .pmicStatusUnavailable
    Action.note .info ["PMIC version = 0x", Text.hex 2 version.toNat]

/-- Open the source of later images, unless a TEE at the top of DRAM is still in place. -/
def setUpIo : Action Unit := do
  let b ← get
  let resident ← if b.config.teeWindows = .dramTop then Board.isDramRestored else pure false
  if ¬ resident then
    Action.require (Board.openImageSource b.stage.bootDevice) .ioSetupFailed

/-- Bring DRAM up; what was kept for a resume is dropped on a cold boot. -/
def probeDram : Action Unit := do
  Action.require Board.probeDram .dramInitFailed
  if ← Board.isDramRestored then
    Action.note .info ["DDR content restored"]
  else
    Board.writeRegister (Registers.Tamp.backupRegister Registers.Tamp.secondCoreBranch) 0
    Board.writeRegister (Registers.Tamp.backupRegister Registers.Tamp.secondCoreMagic) 0
    Board.eraseBackup
    if ← Board.pmicPresent then Action.require Board.configurePmic .pmicError

def mapDram : Action Unit := do
  let size ← Board.dramSize
  if size = 0 then Action.fail .dramMappingFailed
  let b ← get
  let (result, memoryMap) ← b.memoryMap.addDynamic (b.config.layout.dram size)
  set { b with memoryMap }
  Action.ofExcept result

def sealBuses : Action Unit := Action.require Board.sealBuses .securityPartitionFailed

end Bringup

open Bringup in
def Step.action : Step → Action Unit
  | fuseProbe => Bringup.probeFuses
  | memoryProtection => protectMemory
  | configTree => openConfigTree
  | powerDomain => normalizePowerDomain
  | clockTree => setUpClockTree
  | operatingPoint => selectOperatingPoint
  | console => selectConsole
  | watchdog => startWatchdog
  | debugPolicy => applyDebugPolicy
  | bootInterface => saveBootInterface
  | securityPartition => partitionBuses
  | resetReason => reportResetReason
  | antiRollback => enforceVersion
  | pmicRefresh => refreshPmic
  | ioSetup => setUpIo
  | dramProbe => Bringup.probeDram
  | dramMapping => mapDram
  | prepareExit => sealBuses

end BootStage
