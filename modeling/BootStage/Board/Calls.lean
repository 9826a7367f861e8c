import BootStage.Board.Program

/-!
# Driver calls

Each request as a program of its own, and the few fixed combinations of them: changing bits of a
register by reading it and writing it back, and waiting in milliseconds.
-/

namespace BootStage.Board

open Program (ask)

/-! ## Registers and time -/

def readRegister (address : UInt32) : Program UInt32 := ask (.readRegister address)

def writeRegister (address value : UInt32) : Program Unit := ask (.writeRegister address value)

/-- Clear the bits of `clear`, then set those of `set`, in one write. -/
def clearSetBits (address clear set : UInt32) : Program Unit := do
  let value ← readRegister address
  writeRegister address ((value &&& ~~~clear) ||| set)

def setBits (address mask : UInt32) : Program Unit := do
  let value ← readRegister address
  writeRegister address (value ||| mask)

def clearBits (address mask : UInt32) : Program Unit := do
  let value ← readRegister address
  writeRegister address (value &&& ~~~mask)

def now : Program UInt64 := ask .now

def delayMicros (us : UInt32) : Program Unit := ask (.delayMicros us)

/-- A delay too long to count in microseconds is as long as can be counted. -/
def delayMillis (ms : UInt32) : Program Unit :=
  delayMicros (if ms.toNat * 1000 < 0x100000000 then ms * 1000 else 0xFFFFFFFF)

/-! ## Fuses -/

def probeFuses : Program (Except DriverFault Unit) := ask .probeFuses

/-- Index of the fuse word that records the firmware version. -/
def counterIndex : Program (Except DriverFault UInt32) := ask .counterIndex

/-- The fuse word that records the firmware version. -/
def counterWord : Program (Except DriverFault UInt32) := ask .counterWord

/-- Set the bits of `value` in the fuse word at `index`. -/
def programFuse (value index : UInt32) : Program (Except DriverFault Unit) :=
  ask (.programFuse value index)

def debugFeatures : Program (Flags DebugFeature) := ask .debugFeatures

/-- The device is locked for production. -/
def isClosedDevice : Program Bool := ask .isClosedDevice

/-! ## Memory management unit -/

/-- Add a region to the tables that `enableMmu` installs. -/
def mapStatic (region : Region) : Program (Except DriverFault Unit) := ask (.mapStatic region)

/-- Add a region to the tables in use. -/
def mapDynamic (region : Region) : Program (Except DriverFault Unit) := ask (.mapDynamic region)

def enableMmu : Program (Except DriverFault Unit) := ask .enableMmu

/-! ## Configuration tree -/

def openConfig : Program (Except DriverFault Unit) := ask .openConfig

/-- Bytes of DRAM, zero if unknown. -/
def dramSize : Program UInt64 := ask .dramSize

def pmicPresent : Program Bool := ask .pmicPresent

/-- The settings of the processor's PLL are fixed. -/
def pllPredefined : Program Bool := ask .pllPredefined

def configuredOperatingPoint : Program (Except DriverFault OperatingPoint) :=
  ask .configuredOperatingPoint

/-- The regulator that supplies the processor. -/
def cpuSupply : Program (Option String) := ask .cpuSupply

def consoleNode : Program (Except DriverFault UartNode) := ask .consoleNode

def applyConsolePins : Program (Except DriverFault Unit) := ask .applyConsolePins

def boardModel : Program (Option String) := ask .boardModel

/-- Read the firmware configuration out of its window. -/
def populateFirmwareConfig (window : Region) : Program (Except DriverFault Unit) :=
  ask (.populateFirmwareConfig window)

def imagePlace (image : ImageId) : Program (Option ImagePlace) := ask (.imagePlace image)

/-! ## Clocks -/

def probeClocks : Program (Except DriverFault Unit) := ask .probeClocks

/-- Start the clock tree; frequency zero keeps the predefined PLL. -/
def startClocks (frequencyKHz : UInt32) : Program (Except DriverFault Unit) :=
  ask (.startClocks frequencyKHz)

def enableClock (clock : ClockId) : Program Unit := ask (.enableClock clock)

/-- Rate in hertz. -/
def clockRate (clock : ClockId) : Program UInt32 := ask (.clockRate clock)

/-- The operating point kept across standby. -/
def savedOperatingPoint : Program (Except DriverFault OperatingPoint) := ask .savedOperatingPoint

/-! ## Power management chip -/

def startPmic : Program (Except DriverFault Unit) := ask .startPmic

/-- Set up the regulators for a cold boot. -/
def configurePmic : Program (Except DriverFault Unit) := ask .configurePmic

def railVoltage (rail : String) : Program (Except DriverFault UInt16) := ask (.railVoltage rail)

def setRailVoltage (rail : String) (voltageMV : UInt16) : Program (Except DriverFault Unit) :=
  ask (.setRailVoltage rail voltageMV)

def pmicVersion : Program (Except DriverFault UInt8) := ask .pmicVersion

/-! ## Reset lines and serial interfaces -/

def assertReset (line : ResetLine) (timeoutMicros : UInt32) : Program (Except DriverFault Unit) :=
  ask (.assertReset line timeoutMicros)

def releaseReset (line : ResetLine) (timeoutMicros : UInt32) : Program (Except DriverFault Unit) :=
  ask (.releaseReset line timeoutMicros)

/-- Print a log entry. -/
def emit (entry : Log.Entry) : Program Unit := ask (.emit entry)

/-- Base address of a serial interface, counted from one. -/
def uartBase (index : UInt16) : Program (Option UInt32) := ask (.uartBase index)

def stopUart (base : UInt32) : Program Unit := ask (.stopUart base)

def registerConsole (base clockRate baudRate : UInt32) : Program (Except DriverFault Unit) :=
  ask (.registerConsole base clockRate baudRate)

/-! ## Watchdog -/

def startWatchdog : Program (Except DriverFault Unit) := ask .startWatchdog

def refreshWatchdog : Program Unit := ask .refreshWatchdog

/-- Have the second watchdog stand still while a debugger halts the processor. -/
def freezeSecondWatchdog : Program (Except DriverFault Unit) := ask .freezeSecondWatchdog

/-! ## Context kept across standby -/

def wokeFromStandby : Program Bool := ask .wokeFromStandby

def restorePll : Program (Except DriverFault Unit) := ask .restorePll

def saveBootInterface (interface : BootInterface) (index : UInt16) :
    Program (Except DriverFault Unit) :=
  ask (.saveBootInterface interface index)

/-- Where the TEE resumes after standby. -/
def savedTeeEntry : Program UInt64 := ask .savedTeeEntry

/-- Keep what the resume path needs to know of this stage. -/
def saveStageParameters : Program (Except DriverFault Unit) := ask .saveStageParameters

def eraseBackup : Program Unit := ask .eraseBackup

/-! ## Bus firewall and DRAM -/

/-- Early partitioning of memory and buses. -/
def partitionBuses : Program (Except DriverFault Unit) := ask .partitionBuses

/-- Final partitioning before the stage is left. -/
def sealBuses : Program (Except DriverFault Unit) := ask .sealBuses

def probeDram : Program (Except DriverFault Unit) := ask .probeDram

/-- DRAM kept its contents across standby. -/
def isDramRestored : Program Bool := ask .isDramRestored

/-! ## Image loading -/

def openImageSource (device : BootDevice) : Program (Except DriverFault Unit) :=
  ask (.openImageSource device)

/-- Clean and invalidate `size` bytes of the data cache from `base`. -/
def flushCache (base size : UInt64) : Program Unit := ask (.flushCache base size)

/-- Up to `length` bytes at `address`, if it is readable. -/
def imageBytes (address : UInt64) (length : Nat) : Program (Option (List UInt8)) :=
  ask (.imageBytes address length)

end BootStage.Board
