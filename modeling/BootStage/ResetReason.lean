import BootStage.Flags
import BootStage.Log.Ring
import BootStage.Text

/-!
# Why the processor was reset

The reset status word has a flag for each of thirteen causes, and several may be set at once.  The
flags are looked at in a fixed order.  The reset pad masks an exit from standby and widens a reset
by the coprocessor from its own domain to the whole system.
-/

namespace BootStage

inductive ResetFlag
  | powerOn
  | brownout
  | pad
  | hseClockFailure
  | vddCoreFailure
  | mpuSystem
  | mcuSystem
  | iwdg1
  | iwdg2
  | standby
  | cStandby
  | mpuProcessor0
  | mpuProcessor1
  deriving DecidableEq

instance : Flag ResetFlag where
  all := [.powerOn, .brownout, .pad, .hseClockFailure, .vddCoreFailure, .mpuSystem, .mcuSystem,
    .iwdg1, .iwdg2, .standby, .cStandby, .mpuProcessor0, .mpuProcessor1]
  bit
    | .powerOn => 0x0001
    | .brownout => 0x0002
    | .pad => 0x0004
    | .hseClockFailure => 0x0008
    | .vddCoreFailure => 0x0010
    | .mpuSystem => 0x0040
    | .mcuSystem => 0x0080
    | .iwdg1 => 0x0100
    | .iwdg2 => 0x0200
    | .standby => 0x0800
    | .cStandby => 0x1000
    | .mpuProcessor0 => 0x2000
    | .mpuProcessor1 => 0x4000

inductive ResetReason
  /-- No flag is set. -/
  | unknown
  | standby
  | cStandby
  | powerOn
  | brownout
  /-- The coprocessor reset the system. -/
  | mcuSystem
  /-- The coprocessor reset its own domain. -/
  | mcuLocal
  | mpuSystem
  | hseClockFailure
  | iwdg1
  | iwdg2
  | mpuProcessor0
  | mpuProcessor1
  | pad
  | vddCoreFailure
  /-- Only flags without a name are set. -/
  | unidentified
  deriving DecidableEq

namespace ResetReason

/-- Every reason, in the order of its declaration. -/
def all : List ResetReason :=
  [unknown, standby, cStandby, powerOn, brownout, mcuSystem, mcuLocal, mpuSystem, hseClockFailure,
   iwdg1, iwdg2, mpuProcessor0, mpuProcessor1, pad, vddCoreFailure, unidentified]

/-- Causes that are considered last, the first one set being taken. -/
def remaining : List (ResetFlag × ResetReason) :=
  [(.mpuSystem, mpuSystem), (.hseClockFailure, hseClockFailure), (.iwdg1, iwdg1), (.iwdg2, iwdg2),
   (.mpuProcessor0, mpuProcessor0), (.mpuProcessor1, mpuProcessor1), (.pad, pad),
   (.vddCoreFailure, vddCoreFailure)]

def ofStatus (status : Flags ResetFlag) : ResetReason :=
  if status.isEmpty then unknown
  else if ¬ status.has .pad ∧ status.has .standby then standby
  else if ¬ status.has .pad ∧ status.has .cStandby then cStandby
  else if status.has .powerOn then powerOn
  else if status.has .brownout then brownout
  else if status.has .mcuSystem then (if status.has .pad then mcuSystem else mcuLocal)
  else
    match remaining.find? fun p => status.has p.1 with
    | some (_, reason) => reason
    | none => unidentified

def description : ResetReason → String
  | unknown => "Reset reason unknown"
  | standby => "System exits from STANDBY"
  | cStandby => "MPU exits from CSTANDBY"
  | powerOn => "Power-on Reset (rst_por)"
  | brownout => "Brownout Reset (rst_bor)"
  | mcuSystem => "System reset generated by MCU (MCSYSRST)"
  | mcuLocal => "Local reset generated by MCU (MCSYSRST)"
  | mpuSystem => "System reset generated by MPU (MPSYSRST)"
  | hseClockFailure => "Reset due to a clock failure on HSE"
  | iwdg1 => "IWDG1 Reset (rst_iwdg1)"
  | iwdg2 => "IWDG2 Reset (rst_iwdg2)"
  | mpuProcessor0 => "MPU Processor 0 Reset"
  | mpuProcessor1 => "MPU Processor 1 Reset"
  | pad => "Pad Reset from NRST"
  | vddCoreFailure => "Reset due to a failure of VDD_CORE"
  | unidentified => "Unidentified reset reason"

/-- What the log says of a reason that was read from `status`. -/
def lines (status : Flags ResetFlag) (reason : ResetReason) : List (Log.Level × List String) :=
  let heading := (Log.Level.info, ["Reset reason (0x", Text.hex 1 status.bits.toNat, "):"])
  match reason with
  | unknown => [(.warning, [reason.description])]
  | standby | cStandby => [heading, (.info, [reason.description])]
  | unidentified => [heading, (.error, ["  ", reason.description])]
  | _ => [heading, (.info, ["  ", reason.description])]

/-- Decode the status word and log what it says. -/
def report (status : Flags ResetFlag) (log : Log.Ring) : ResetReason × Log.Ring :=
  let reason := ofStatus status
  (reason, log.recordAll Log.stageSource (lines status reason))

end ResetReason

end BootStage
