import BootStage.Board.Calls
import BootStage.Config
import BootStage.Counter
import BootStage.DebugAccess
import BootStage.Ledger
import BootStage.MemoryMap
import BootStage.Poll
import BootStage.ResetReason
import BootStage.Stage

/-!
# State of the bring-up

A bring-up carries the state of the stage, the ledger of its steps, the memory map and a report of
what was seen on the way.  The action of a step reads and changes all of that, talks to the board
and may stop early; what it changed before it stopped stays changed.
-/

namespace BootStage

/-- What was seen during the bring-up. -/
structure Report where
  resetReason : Option ResetReason
  debugAccess : Option DebugAccess
  counter : Option Counter.Outcome
  /-- Survived failures, in order of occurrence. -/
  degraded : List (Step × Error)
  deriving DecidableEq

namespace Report

def empty : Report := ⟨none, none, none, []⟩

/-- Survived failures that the report has room for. -/
def degradedCapacity : Nat := 8

/-- Note a survived failure while there is room. -/
def addDegraded (r : Report) (step : Step) (e : Error) : Report :=
  if r.degraded.length < degradedCapacity then { r with degraded := r.degraded ++ [(step, e)] }
  else r

def hasDegraded (r : Report) (e : Error) : Bool := r.degraded.any (·.2 = e)

end Report

structure Bringup where
  config : Config
  /-- Rounds that a wait is followed for. -/
  patience : Nat
  stage : Stage
  ledger : Ledger
  memoryMap : MemoryMap
  report : Report

namespace Bringup

/-- Rounds that a wait is followed for unless something else is asked for. -/
def defaultPatience : Nat := 0x4000000000000000

def fresh (config : Config) (context : BootContext) (patience : Nat) : Bringup where
  config := config
  patience := patience
  stage := .fresh context config.logThreshold
  ledger := .empty
  memoryMap := .empty
  report := .empty

def withLog (b : Bringup) (log : Log.Ring) : Bringup := { b with stage := { b.stage with log } }

/-- Log a message made of `pieces`. -/
def note (b : Bringup) (level : Log.Level) (pieces : List String) : Bringup :=
  b.withLog (b.stage.log.record level Log.stageSource pieces)

/-- Log a survived failure and put it in the report. -/
def degrade (b : Bringup) (step : Step) (e : Error) : Bringup :=
  let b := b.note .warning [step.name, ": ", e.message]
  { b with report := b.report.addDegraded step e }

/-- Print entries one after the other. -/
def emitAll : List Log.Entry → Program Unit
  | [] => pure ()
  | e :: es => do
    Board.emit e
    emitAll es

/-- Print the pending entries, if there is a console. -/
def flushConsole (b : Bringup) : Program Bringup :=
  if b.stage.console.isFilled then do
    emitAll b.stage.log.unflushed
    return b.withLog b.stage.log.markFlushed
  else
    pure b

end Bringup

/-- Why an action stopped early. -/
inductive Stop
  | failed (error : Error)
  | defect (defect : Defect)
  /-- A wait went on for longer than it is followed. -/
  | hung
  deriving DecidableEq

abbrev Action : Type → Type := ExceptT Stop (StateT Bringup Program)

namespace Action

variable {α : Type}

def fail (e : Error) : Action α := throw (.failed e)

/-- The value of a driver call; any fault of the driver is the error `e`. -/
def require (p : Program (Except DriverFault α)) (e : Error) : Action α := do
  match ← p with
  | .ok a => return a
  | .error _ => fail e

def ofExcept : Except Error α → Action α
  | .ok a => return a
  | .error e => fail e

/-- Go on only if a wait settled. -/
def settled : Poll.Outcome → Action Unit
  | .settled => return
  | .timedOut => fail .timeout
  | .hung => throw .hung

/-- Run an action and look at how it ended. -/
def outcome (a : Action α) : Action (Except Stop α) :=
  ExceptT.lift (ExceptT.run a)

def note (level : Log.Level) (pieces : List String) : Action Unit :=
  modify (·.note level pieces)

end Action

end BootStage
