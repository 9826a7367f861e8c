import BootStage.BootContext
import BootStage.DriverFault
import BootStage.Flags
import BootStage.Image.Id
import BootStage.Log.Entry
import BootStage.Region

/-!
# What the stage asks of the board

Every contact with the hardware is one `Request`, and `Request.Reply` is the type of what comes
back.  Requests that can fail are answered with a `DriverFault` or a value.  Nothing is assumed
about the answers: the same request may be answered differently each time.
-/

namespace BootStage

/-- Clock of the clock tree, by number. -/
structure ClockId where
  number : UInt32
  deriving DecidableEq

/-- Gate of the clock that feeds the always-on memory. -/
def ClockId.backupMemory : ClockId := ⟨0xFFFFFFFF⟩

/-- Reset line, by number. -/
structure ResetLine where
  number : UInt32
  deriving DecidableEq

/-- Debug access that the fuses leave enabled. -/
inductive DebugFeature
  | hardware
  | secureInvasive
  | secureNonInvasive
  | softwareEnable
  deriving DecidableEq

instance : Flag DebugFeature where
  all := [.hardware, .secureInvasive, .secureNonInvasive, .softwareEnable]
  bit
    | .hardware => 0x10
    | .secureInvasive => 0x20
    | .secureNonInvasive => 0x40
    | .softwareEnable => 0x400

/-- World that a configuration node is enabled for. -/
inductive NodeStatus
  | secure
  | nonSecure
  | disabled
  deriving DecidableEq

/-- The serial interface that the configuration names as console. -/
structure UartNode where
  base : UInt32
  clock : Option ClockId
  reset : Option ResetLine
  status : NodeStatus
  deriving DecidableEq

/-- Frequency and supply voltage of the processor. -/
structure OperatingPoint where
  frequencyKHz : UInt32
  voltageMV : UInt16
  deriving DecidableEq

/-- Place that the firmware configuration gives an image. -/
structure ImagePlace where
  address : UInt64
  maxSize : UInt64
  deriving DecidableEq

inductive Request
  -- registers and time
  | readRegister (address : UInt32)
  | writeRegister (address value : UInt32)
  | now
  | delayMicros (us : UInt32)
  -- fuses
  | probeFuses
  | counterIndex
  | counterWord
  | programFuse (value index : UInt32)
  | debugFeatures
  | isClosedDevice
  -- memory management unit
  | mapStatic (region : Region)
  | mapDynamic (region : Region)
  | enableMmu
  -- configuration tree
  | openConfig
  | dramSize
  | pmicPresent
  | pllPredefined
  | configuredOperatingPoint
  | cpuSupply
  | consoleNode
  | applyConsolePins
  | boardModel
  | populateFirmwareConfig (window : Region)
  | imagePlace (image : ImageId)
  -- clocks
  | probeClocks
  | startClocks (frequencyKHz : UInt32)
  | enableClock (clock : ClockId)
  | clockRate (clock : ClockId)
  | savedOperatingPoint
  -- power management chip
  | startPmic
  | configurePmic
  | railVoltage (rail : String)
  | setRailVoltage (rail : String) (voltageMV : UInt16)
  | pmicVersion
  -- reset lines
  | assertReset (line : ResetLine) (timeoutMicros : UInt32)
  | releaseReset (line : ResetLine) (timeoutMicros : UInt32)
  -- serial interfaces
  | emit (entry : Log.Entry)
  | uartBase (index : UInt16)
  | stopUart (base : UInt32)
  | registerConsole (base clockRate baudRate : UInt32)
  -- watchdog
  | startWatchdog
  | refreshWatchdog
  | freezeSecondWatchdog
  -- context kept across standby
  | wokeFromStandby
  | restorePll
  | saveBootInterface (interface : BootInterface) (index : UInt16)
  | savedTeeEntry
  | saveStageParameters
  | eraseBackup
  -- bus firewall
  | partitionBuses
  | sealBuses
  -- DRAM
  | probeDram
  | isDramRestored
  -- image loading
  | openImageSource (device : BootDevice)
  | flushCache (base size : UInt64)
  | imageBytes (address : UInt64) (length : Nat)
  deriving DecidableEq

/-- What a request is answered with. -/
@[reducible] def Request.Reply : Request → Type
  | readRegister _ => UInt32
  | writeRegister _ _ => Unit
  | now => UInt64
  | delayMicros _ => Unit
  | probeFuses => Except DriverFault Unit
  | counterIndex => Except DriverFault UInt32
  | counterWord => Except DriverFault UInt32
  | programFuse _ _ => Except DriverFault Unit
  | debugFeatures => Flags DebugFeature
  | isClosedDevice => Bool
  | mapStatic _ => Except DriverFault Unit
  | mapDynamic _ => Except DriverFault Unit
  | enableMmu => Except DriverFault Unit
  | openConfig => Except DriverFault Unit
  | dramSize => UInt64
  | pmicPresent => Bool
  | pllPredefined => Bool
  | configuredOperatingPoint => Except DriverFault OperatingPoint
  | cpuSupply => Option String
  | consoleNode => Except DriverFault UartNode
  | applyConsolePins => Except DriverFault Unit
  | boardModel => Option String
  | populateFirmwareConfig _ => Except DriverFault Unit
  | imagePlace _ => Option ImagePlace
  | probeClocks => Except DriverFault Unit
  | startClocks _ => Except DriverFault Unit
  | enableClock _ => Unit
  | clockRate _ => UInt32
  | savedOperatingPoint => Except DriverFault OperatingPoint
  | startPmic => Except DriverFault Unit
  | configurePmic => Except DriverFault Unit
  | railVoltage _ => Except DriverFault UInt16
  | setRailVoltage _ _ => Except DriverFault Unit
  | pmicVersion => Except DriverFault UInt8
  | assertReset _ _ => Except DriverFault Unit
  | releaseReset _ _ => Except DriverFault Unit
  | emit _ => Unit
  | uartBase _ => Option UInt32
  | stopUart _ => Unit
  | registerConsole _ _ _ => Except DriverFault Unit
  | startWatchdog => Except DriverFault Unit
  | refreshWatchdog => Unit
  | freezeSecondWatchdog => Except DriverFault Unit
  | wokeFromStandby => Bool
  | restorePll => Except DriverFault Unit
  | saveBootInterface _ _ => Except DriverFault Unit
  | savedTeeEntry => UInt64
  | saveStageParameters => Except DriverFault Unit
  | eraseBackup => Unit
  | partitionBuses => Except DriverFault Unit
  | sealBuses => Except DriverFault Unit
  | probeDram => Except DriverFault Unit
  | isDramRestored => Bool
  | openImageSource _ => Except DriverFault Unit
  | flushCache _ _ => Unit
  | imageBytes _ _ => Option (List UInt8)

/-- Console output. -/
def Request.isEmit : Request → Bool
  | emit _ => true
  | _ => false

end BootStage
