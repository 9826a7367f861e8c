import BootStage.Error

/-!
# Failures reported by board drivers

A driver call that fails says why in one of nine ways.  The steps of the bring-up answer a fault
with an error of their own; `DriverFault.toError` is the error when nothing more is known.
-/

namespace BootStage

inductive DriverFault
  | initFailed
  | timeout
  | notPresent
  | invalidParameter
  | readFailed
  | programFailed
  | busy
  | notSupported
  | hardwareFault
  deriving DecidableEq

namespace DriverFault

/-- Every fault, in the order of its declaration. -/
def all : List DriverFault :=
  [initFailed, timeout, notPresent, invalidParameter, readFailed, programFailed, busy, notSupported,
   hardwareFault]

def code : DriverFault → UInt16
  | initFailed => 0x0802
  | timeout => 0x08F1
  | notPresent => 0x0810
  | invalidParameter => 0x08F0
  | readFailed => 0x0820
  | programFailed => 0x0821
  | busy => 0x08F2
  | notSupported => 0x08FF
  | hardwareFault => 0x08D0

def description : DriverFault → String
  | initFailed => "initialization failed"
  | timeout => "timeout"
  | notPresent => "not present"
  | invalidParameter => "invalid parameter"
  | readFailed => "read failed"
  | programFailed => "program failed"
  | busy => "busy"
  | notSupported => "not supported"
  | hardwareFault => "hardware fault detected"

/-- Code and description, as in `[0x08F1] timeout`. -/
def message (f : DriverFault) : String :=
  "[0x" ++ Text.hexUpper 4 f.code.toNat ++ "] " ++ f.description

/-- The error of a fault outside any particular step. -/
def toError : DriverFault → Error
  | timeout => .timeout
  | invalidParameter => .invalidParameter
  | notSupported => .notSupported
  | readFailed => .fuseReadFailed
  | programFailed => .fuseProgramFailed
  | initFailed | notPresent | busy | hardwareFault => .internalError

end DriverFault

end BootStage
