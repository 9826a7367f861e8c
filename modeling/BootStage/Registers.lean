import BootStage.Flags

/-!
# Register map of the STM32MP15

Addresses and fields of the registers that the stage touches, by block: reset and clock control
(`Rcc`), power control (`Pwr`), tamper and backup registers (`Tamp`), serial interfaces (`Uart`).
-/

namespace BootStage.Registers

namespace Rcc

def base : UInt32 := 0x50000000

/-- Secure-world control. -/
def secureControl : UInt32 := base + 0x000

/-- Clears stop requests of the processor cores. -/
def stopRequestClear : UInt32 := base + 0x104

/-- Backup domain control. -/
def backupDomain : UInt32 := base + 0x140

/-- Why the processor was reset. -/
def resetStatus : UInt32 := base + 0x408

/-- Delay of the exit from low power. -/
def lowPowerDelay : UInt32 := base + 0x41C

/-- Secure access to the coprocessor's clock and reset registers. -/
def coprocessorProtection : UInt32 := 0x2

def stopRequestCore0 : UInt32 := 0x1

def stopRequestCore1 : UInt32 := 0x2

/-- Source of the real-time clock; zero if none was ever selected. -/
def rtcSource : UInt32 := 0x30000

/-- Software reset of the backup domain. -/
def backupReset : UInt32 := 0x80000000

/-- The delay field of `lowPowerDelay`. -/
def lowPowerDelayField : UInt32 := 0x3FFFFF

end Rcc

namespace Pwr

def base : UInt32 := 0x50001000

def control1 : UInt32 := base + 0x00

def control2 : UInt32 := base + 0x08

/-- Mode control of the coprocessor. -/
def coprocessorControl : UInt32 := base + 0x14

/-- Lifts the write protection of the backup domain. -/
def backupWriteAccess : UInt32 := 0x100

/-- Keeps the backup memory powered in standby. -/
def backupRetention : UInt32 := 0x1

/-- Keeps the retention memory powered in standby. -/
def retentionMemory : UInt32 := 0x2

/-- Power-down deep sleep of the coprocessor. -/
def deepSleep : UInt32 := 0x1

end Pwr

namespace Tamp

def base : UInt32 := 0x5C00A000

/-- Bounds of the protected backup registers. -/
def secureMode : UInt32 := base + 0x20

/-- Address of a backup register, by index. -/
def backupRegister (index : UInt32) : UInt32 := base + 0x100 + 4 * index

/-- Position of the write-protection bound in `secureMode`. -/
def writeProtectionShift : UInt32 := 16

/-- Position of the read-and-write-protection bound in `secureMode`. -/
def readWriteProtectionShift : UInt32 := 0

/-- Backup register that wakes the second core when it holds a magic number. -/
def secondCoreMagic : UInt32 := 4

/-- Backup register with the address the second core branches to. -/
def secondCoreBranch : UInt32 := 5

end Tamp

/-- Base address of a serial interface, counted from one. -/
def Uart.base? (index : UInt16) : Option UInt32 :=
  if index = 1 then some 0x5C000000
  else if index = 2 then some 0x4000E000
  else if index = 3 then some 0x4000F000
  else if index = 4 then some 0x40010000
  else if index = 5 then some 0x40011000
  else if index = 6 then some 0x44003000
  else if index = 7 then some 0x40018000
  else if index = 8 then some 0x40019000
  else none

end BootStage.Registers
