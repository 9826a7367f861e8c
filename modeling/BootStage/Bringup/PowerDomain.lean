import BootStage.Poll
import BootStage.Registers

/-!
# Normalizing the power domains

Whatever ran before may have left the power and backup domains in any state.  Registers are written
in a fixed order: stop requests, write access to the backup domain, deep sleep of the coprocessor,
reset of a backup domain that was never set up, delay of the exit from low power, backup regulators,
coprocessor protection, secure backup registers.
-/

namespace BootStage.PowerDomain

open Registers

/-- Periods of the internal oscillator that the exit from low power is delayed by. -/
def exitDelay : UInt32 := 5

/-- Backup registers kept for the secure world. -/
def secureBackupRegisters : UInt32 := 10

/-- Protection bounds that keep the secure backup registers to the secure world. -/
def backupBounds : UInt32 :=
  secureBackupRegisters <<< Tamp.writeProtectionShift |||
    secureBackupRegisters <<< Tamp.readWriteProtectionShift

/-- Drop stop requests and wait for write access to the backup domain. -/
def openBackupDomain (patience : Nat) (timeout : UInt32) : Program Poll.Outcome := do
  Board.writeRegister Rcc.stopRequestClear (Rcc.stopRequestCore0 ||| Rcc.stopRequestCore1)
  Board.setBits Pwr.control1 Pwr.backupWriteAccess
  Poll.awaitBits patience Pwr.control1 Pwr.backupWriteAccess .set timeout

/-- Reset the backup domain if no clock was ever selected for its real-time clock. -/
def resetBackupDomain (patience : Nat) (timeout : UInt32) : Program Poll.Outcome := do
  let domain ← Board.readRegister Rcc.backupDomain
  if domain &&& Rcc.rtcSource = 0 then
    Board.setBits Rcc.backupDomain Rcc.backupReset
    match ← Poll.awaitBits patience Rcc.backupDomain Rcc.backupReset .set timeout with
    | .settled =>
      Board.clearBits Rcc.backupDomain Rcc.backupReset
      return .settled
    | outcome => return outcome
  else
    return .settled

/-- Delay, regulators and protection. -/
def applySettings : Program Unit := do
  Board.clearSetBits Rcc.lowPowerDelay Rcc.lowPowerDelayField exitDelay
  Board.clearBits Pwr.control2 (Pwr.backupRetention ||| Pwr.retentionMemory)
  Board.clearBits Rcc.secureControl Rcc.coprocessorProtection
  Board.writeRegister Tamp.secureMode backupBounds

/-- Put the power and backup domains into a known state; nothing is written after a timeout. -/
def normalize (patience : Nat) (timeout : UInt32) : Program Poll.Outcome := do
  match ← openBackupDomain patience timeout with
  | .settled =>
    Board.setBits Pwr.coprocessorControl Pwr.deepSleep
    match ← resetBackupDomain patience timeout with
    | .settled =>
      applySettings
      return .settled
    | outcome => return outcome
  | outcome => return outcome

end BootStage.PowerDomain
