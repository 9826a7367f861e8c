import BootStage.Bringup.Basic

/-!
# Bringing up the console

The console is the UART that the configuration names, unless it is disabled, incompletely described
or the one that a serial programmer talks on.  Whether or not a console comes up, a device locked
for production must run a stage that authenticates images.
-/

namespace BootStage.Bringup

/-- Microseconds that the UART is held in reset. -/
def resetHold : UInt32 := 2

/-- Milliseconds that the UART is given after its reset. -/
def resetSettle : UInt32 := 1

/-- A serial programmer talks on the UART at `base`. -/
def isProgrammerUart (base : UInt32) : Action Bool := do
  let b ← get
  if b.config.uartProgrammer ∧ b.stage.context.isSerialUart then
    return (← Board.uartBase b.stage.context.instanceIndex) == some base
  else
    return false

def resetUart (line : ResetLine) : Action Unit := do
  let timeout := (← get).config.resetTimeout
  Action.require (Board.assertReset line timeout) .resetLineTimeout
  Board.delayMicros resetHold
  Action.require (Board.releaseReset line timeout) .resetLineTimeout
  Board.delayMillis resetSettle

/-- Tell on the console what the board is and how the ROM's authentication went. -/
def greet : Action Unit := do
  match ← Board.boardModel with
  | some model => Action.note .notice ["Model: ", model]
  | none => pure ()
  let b ← get
  if b.config.trustedBoardBoot then
    match b.stage.context.authentication with
    | .notDone => return
    | .failed => Action.note .notice ["Bootrom authentication ", "failed"]
    | .succeeded => Action.note .notice ["Bootrom authentication ", "succeeded"]

/-- Reset the UART and register it as console. -/
def registerUart (base : UInt32) (clock : ClockId) (reset : ResetLine) : Action Unit := do
  Board.enableClock clock
  resetUart reset
  let clockRate ← Board.clockRate clock
  let baudRate := (← get).config.consoleBaudRate
  Action.require (Board.registerConsole base clockRate baudRate) .consoleRegistrationFailed
  let b ← get
  let stage ← Action.ofExcept (b.stage.setConsole ⟨base, clockRate, baudRate⟩)
  set { b with stage }

def openConsole : Action Unit := do
  let node ← Action.require Board.consoleNode .consoleUnavailable
  if node.status = .disabled then Action.fail .consoleUnavailable
  if ← isProgrammerUart node.base then Action.fail .consoleUnavailable
  match node.clock, node.reset with
  | some clock, some reset =>
    Action.require Board.applyConsolePins .consoleUnavailable
    registerUart node.base clock reset
    greet
  | _, _ => Action.fail .consoleUnavailable

/-- A locked device requires a stage that authenticates images. -/
def requireAuthentication : Action Unit := do
  if ¬ (← get).config.trustedBoardBoot then
    if ← Board.isClosedDevice then
      Action.note .error ["Secured chip must enable trusted board boot"]
      Action.fail .authenticationRequired

def selectConsole : Action Unit := do
  let outcome ← Action.outcome openConsole
  requireAuthentication
  match outcome with
  | .ok () => return
  | .error stop => throw stop

end BootStage.Bringup
