import BootStage.Layout
import BootStage.Log.Entry
import BootStage.Version

/-!
# Configuration of the stage

Everything that is chosen when the stage is built.  What varies from board to board comes from the
configuration tree at run time.
-/

namespace BootStage

/-- Where the windows of a split TEE come from. -/
inductive TeeWindows
  /-- From the firmware configuration. -/
  | fixed
  /-- From the top of DRAM; the TEE image describes itself. -/
  | dramTop
  deriving DecidableEq

structure Config where
  layout : Layout
  teeWindows : TeeWindows
  /-- Images are authenticated. -/
  trustedBoardBoot : Bool
  /-- The serial programmer is supported. -/
  uartProgrammer : Bool
  /-- The USB programmer is supported. -/
  usbProgrammer : Bool
  consoleBaudRate : UInt32
  /-- Microseconds that a reset line may take. -/
  resetTimeout : UInt32
  /-- Microseconds that a power-domain register may take. -/
  powerTimeout : UInt32
  logThreshold : Log.Level
  firmwareVersion : FirmwareVersion
  deriving DecidableEq

namespace Config

def standard : Config where
  layout := .stm32mp15
  teeWindows := .fixed
  trustedBoardBoot := true
  uartProgrammer := true
  usbProgrammer := true
  consoleBaudRate := 115200
  resetTimeout := 1000
  powerTimeout := 1000
  logThreshold := .info
  firmwareVersion := .zero

/-- Regions that no image may touch. -/
def reservedRegions (c : Config) : List Region := [c.layout.stage, c.layout.deviceTree]

end Config

end BootStage
