import BootStage.Board.Calls
import BootStage.Time

/-!
# Bounded polls

A poll tests a condition until it holds or a deadline has expired, and once more after that: a
change that comes while nobody is looking is not taken for a timeout.

A clock that never reaches the deadline keeps the poll going for ever.  `patience` bounds the number
of rounds that are followed, and a poll that outlasts it is reported as hung, apart from a timeout.
-/

namespace BootStage.Poll

inductive Outcome
  | settled
  | timedOut
  | hung
  deriving DecidableEq

/-- Rounds of test and clock, the deadline being known. -/
def rounds (deadline : Deadline) (condition : Program Bool) : Nat → Program Outcome
  | 0 => pure .hung
  | patience + 1 => do
    let holds ← condition
    if holds then return .settled
    let now ← Board.now
    if deadline.isExpired now then
      let holds ← condition
      return if holds then .settled else .timedOut
    rounds deadline condition patience

/-- Poll for at most `timeout` microseconds. -/
def untilHolds (patience : Nat) (timeout : UInt32) (condition : Program Bool) :
    Program Outcome := do
  let start ← Board.now
  rounds ⟨start, timeout.toUInt64⟩ condition patience

/-- State that the bits of a mask are waited for to reach. -/
inductive BitState
  | set
  | clear
  deriving DecidableEq

/-- All bits of `mask` are in the state. -/
def BitState.isMet (state : BitState) (value mask : UInt32) : Bool :=
  match state with
  | set => value &&& mask == mask
  | clear => value &&& mask == 0

/-- Wait for the bits of `mask` in a register. -/
def awaitBits (patience : Nat) (address mask : UInt32) (state : BitState) (timeout : UInt32) :
    Program Outcome :=
  untilHolds patience timeout do
    let value ← Board.readRegister address
    return state.isMet value mask

end BootStage.Poll
