import BootStage.Bringup.Basic

/-!
# Clock tree and operating point

The boot device is classified before the clock tree is probed.  The processor's frequency is raised
only after its supply voltage was checked and, if need be, changed.  After standby the operating
point is the one that was saved, and the PLL settings are restored first.
-/

namespace BootStage.Bringup

/-- A serial programmer must not keep its UART running. -/
def stopProgrammerUart : Action Unit := do
  let b ← get
  if b.config.uartProgrammer ∧ b.stage.context.isSerialUart then
    match ← Board.uartBase b.stage.context.instanceIndex with
    | some base => Board.stopUart base
    | none => return

/-- The USB programmer if the ROM was talked to over it, the board's own storage otherwise. -/
def classifiedDevice (config : Config) (context : BootContext) : BootDevice :=
  if config.usbProgrammer ∧ context.isSerialUsb then .usb else .board

def setUpClockTree : Action Unit := do
  stopProgrammerUart
  let b ← get
  let stage ← Action.ofExcept (b.stage.setBootDevice (classifiedDevice b.config b.stage.context))
  set { b with stage }
  Action.require Board.probeClocks .clockInitFailed

/-- Have the processor's supply deliver `voltage`; a supply that does so already is left alone. -/
def supplyVoltage (voltage : UInt16) : Action Unit := do
  match ← Board.cpuSupply with
  | none => Action.fail .pmicError
  | some rail =>
    let current ← Action.require (Board.railVoltage rail) .pmicError
    if current ≠ voltage then
      Action.note .debug
        [rail, ": ", toString current.toNat, " mV -> ", toString voltage.toNat, " mV"]
      Action.require (Board.setRailVoltage rail voltage) .pmicError

/-- The processor's frequency, zero for the predefined PLL, once its supply can bear it. -/
def supplyFrequency (pmic standby : Bool) : Action UInt32 := do
  if ← Board.pllPredefined then
    return 0
  else
    let point ← Action.require
      (if standby then Board.savedOperatingPoint else Board.configuredOperatingPoint)
      .operatingPointUnavailable
    if pmic then supplyVoltage point.voltageMV
    return point.frequencyKHz

def selectOperatingPoint : Action Unit := do
  let pmic ← Board.pmicPresent
  if pmic then Action.require Board.startPmic .pmicError
  let standby ← Board.wokeFromStandby
  if standby then Action.require Board.restorePll .operatingPointUnavailable
  let frequency ← supplyFrequency pmic standby
  Action.require (Board.startClocks frequency) .clockInitFailed

end BootStage.Bringup
