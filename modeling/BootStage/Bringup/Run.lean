import BootStage.Bringup.Actions

/-!
# Running the bring-up

A step is entered in the ledger, does its action, and is completed unless the action failed with a
fatal error; a degraded error is reported and the step completes all the same.  The phases perform
their steps in nominal order and stop at the first that does not complete.
-/

namespace BootStage

/-- A step that did not complete, and why. -/
structure FatalError where
  step : Step
  error : Error
  deriving DecidableEq

/-- As in `anti-rollback: [0x0201] rollback attempted`. -/
def FatalError.message (f : FatalError) : String := f.step.name ++ ": " ++ f.error.message

/-- Why a phase ended early. -/
inductive Abort
  | fatal (failure : FatalError)
  | defect (defect : Defect)
  | hung
  deriving DecidableEq

abbrev Phase : Type → Type := ExceptT Abort (StateT Bringup Program)

namespace Bringup

/-- Log that a step failed, print the log, and end the phase. -/
def abandon (b : Bringup) (step : Step) (e : Error) (pieces : List String) :
    Program (Except Abort Unit × Bringup) := do
  let b ← (b.note .error pieces).flushConsole
  return (.error (.fatal ⟨step, e⟩), b)

/-- Enter a step as completed and print the log. -/
def finish (b : Bringup) (step : Step) : Program (Except Abort Unit × Bringup) := do
  let b ← flushConsole { b with ledger := b.ledger.complete step }
  return (.ok (), b)

/-- What follows a step's action. -/
def conclude (step : Step) : Except Stop Unit × Bringup → Program (Except Abort Unit × Bringup)
  | (.ok (), b) => b.finish step
  | (.error (.failed e), b) =>
    if e.isFatal then b.abandon step e [step.name, ": ", e.message]
    else (b.degrade step e).finish step
  | (.error (.defect d), b) => pure (.error (.defect d), b)
  | (.error .hung, b) => pure (.error .hung, b)

/-- Run one step. -/
def perform (step : Step) : Phase Unit := fun b =>
  match b.ledger.start step with
  | .error e => b.abandon step e [step.name, " started out of order"]
  | .ok ledger => do
    let ended ← step.action.run.run { b with ledger }
    conclude step ended

/-- Run steps in turn, up to the first that does not complete. -/
def performAll : List Step → Phase Unit
  | [] => pure ()
  | step :: steps => do
    perform step
    performAll steps

def setUpArchitecture : Phase Unit := performAll Step.architecture

def setUpPlatform : Phase Unit := performAll Step.platform

/-- Both phases. -/
def bringUp : Phase Unit := do
  setUpArchitecture
  setUpPlatform

/-- The final security setup. -/
def prepareExit : Phase Unit := perform .prepareExit

/-- How a bring-up ends that halts the platform on a fatal error. -/
inductive Ending
  | completed
  | halted (code : UInt16)
  | defect (defect : Defect)
  | hung
  deriving DecidableEq

def Ending.ofResult : Except Abort Unit → Ending
  | .ok () => completed
  | .error (.fatal failure) => halted failure.error.code
  | .error (.defect d) => defect d
  | .error .hung => hung

/-- Both phases; a fatal error halts the platform with the error's code. -/
def bringUpOrHalt (b : Bringup) : Program (Ending × Bringup) := do
  let (result, b) ← bringUp.run.run b
  return (.ofResult result, b)

end Bringup

end BootStage
