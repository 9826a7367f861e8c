import BootStage.Text

/-!
# Failures of the boot stage

An error is either fatal, and bring-up stops, or degraded, and the stage goes on with less:
`Error.severity_eq_degraded_iff` lists the degraded ones.  Every error has a 16-bit code, grouped
by its high byte, and is shown as that code and a short description.
-/

namespace BootStage

/-- What a failure does to the boot flow. -/
inductive Severity
  | fatal
  | degraded
  deriving DecidableEq

inductive Error
  -- hardware bring-up
  | fuseProbeFailed
  | fuseReadFailed
  | fuseProgramFailed
  | mmuConfigFailed
  | configTreeInvalid
  | clockInitFailed
  | operatingPointUnavailable
  | pmicError
  | resetLineTimeout
  | watchdogInitFailed
  | consoleRegistrationFailed
  | securityPartitionFailed
  | dramInitFailed
  | dramMappingFailed
  | ioSetupFailed
  | timeout
  | authenticationRequired
  -- anti-rollback
  | rollbackAttempted
  -- image placement
  | unknownImage
  | regionOverlap
  | invalidRegion
  | teeHeaderInvalid
  | noTeeEntryPoint
  | tableFull
  -- degraded operation
  | consoleUnavailable
  | debugFreezeFailed
  | contextSaveFailed
  | pmicStatusUnavailable
  -- sequencing
  | stepOrderViolation
  | alreadyInitialized
  -- general
  | invalidParameter
  | notSupported
  | internalError
  deriving DecidableEq

namespace Error

/-- Every error, in the order of its declaration. -/
def all : List Error :=
  [fuseProbeFailed, fuseReadFailed, fuseProgramFailed, mmuConfigFailed, configTreeInvalid,
   clockInitFailed, operatingPointUnavailable, pmicError, resetLineTimeout, watchdogInitFailed,
   consoleRegistrationFailed, securityPartitionFailed, dramInitFailed, dramMappingFailed,
   ioSetupFailed, timeout, authenticationRequired, rollbackAttempted, unknownImage, regionOverlap,
   invalidRegion, teeHeaderInvalid, noTeeEntryPoint, tableFull, consoleUnavailable,
   debugFreezeFailed, contextSaveFailed, pmicStatusUnavailable, stepOrderViolation,
   alreadyInitialized, invalidParameter, notSupported, internalError]

def code : Error → UInt16
  | fuseProbeFailed => 0x0101
  | fuseReadFailed => 0x0102
  | fuseProgramFailed => 0x0103
  | mmuConfigFailed => 0x0104
  | configTreeInvalid => 0x0105
  | clockInitFailed => 0x0106
  | operatingPointUnavailable => 0x0107
  | pmicError => 0x0108
  | resetLineTimeout => 0x0109
  | watchdogInitFailed => 0x010A
  | consoleRegistrationFailed => 0x010B
  | securityPartitionFailed => 0x010C
  | dramInitFailed => 0x010D
  | dramMappingFailed => 0x010E
  | ioSetupFailed => 0x010F
  | timeout => 0x0110
  | authenticationRequired => 0x0111
  | rollbackAttempted => 0x0201
  | unknownImage => 0x0301
  | regionOverlap => 0x0302
  | invalidRegion => 0x0303
  | teeHeaderInvalid => 0x0304
  | noTeeEntryPoint => 0x0305
  | tableFull => 0x0306
  | consoleUnavailable => 0x0401
  | debugFreezeFailed => 0x0402
  | contextSaveFailed => 0x0403
  | pmicStatusUnavailable => 0x0404
  | stepOrderViolation => 0x0501
  | alreadyInitialized => 0x0502
  | invalidParameter => 0xFF01
  | notSupported => 0xFF02
  | internalError => 0xFFFF

def description : Error → String
  | fuseProbeFailed => "fuse controller probe failed"
  | fuseReadFailed => "fuse read failed"
  | fuseProgramFailed => "fuse program failed"
  | mmuConfigFailed => "MMU configuration failed"
  | configTreeInvalid => "invalid platform configuration"
  | clockInitFailed => "clock init failed"
  | operatingPointUnavailable => "no operating point"
  | pmicError => "PMIC error"
  | resetLineTimeout => "reset line timeout"
  | watchdogInitFailed => "watchdog init failed"
  | consoleRegistrationFailed => "console registration failed"
  | securityPartitionFailed => "security partitioning failed"
  | dramInitFailed => "DRAM init failed"
  | dramMappingFailed => "DRAM mapping failed"
  | ioSetupFailed => "IO setup failed"
  | timeout => "timeout"
  | authenticationRequired => "closed device requires authentication"
  | rollbackAttempted => "rollback attempted"
  | unknownImage => "unknown image id"
  | regionOverlap => "memory regions overlap"
  | invalidRegion => "invalid memory region"
  | teeHeaderInvalid => "TEE header parse error"
  | noTeeEntryPoint => "no TEE entry point"
  | tableFull => "table full"
  | consoleUnavailable => "console unavailable"
  | debugFreezeFailed => "watchdog freeze failed"
  | contextSaveFailed => "context save failed"
  | pmicStatusUnavailable => "PMIC status unavailable"
  | stepOrderViolation => "bring-up step order violation"
  | alreadyInitialized => "already initialized"
  | invalidParameter => "invalid parameter"
  | notSupported => "not supported"
  | internalError => "internal error"

/-- Only lost diagnostics are survivable: console, debug freeze, saved context, PMIC status. -/
def severity : Error → Severity
  | consoleUnavailable | debugFreezeFailed | contextSaveFailed | pmicStatusUnavailable => .degraded
  | _ => .fatal

def isFatal (e : Error) : Bool := e.severity == .fatal

/-- Errors that touch rollback protection, isolation or authentication. -/
def isSecurity : Error → Bool
  | fuseProgramFailed | rollbackAttempted | securityPartitionFailed | regionOverlap
  | authenticationRequired => true
  | _ => false

/-- Code and description, as in `[0x0201] rollback attempted`. -/
def message (e : Error) : String :=
  "[0x" ++ Text.hexUpper 4 e.code.toNat ++ "] " ++ e.description

theorem mem_all (e : Error) : e ∈ all := by cases e <;> decide

theorem code_injective {a b : Error} (h : a.code = b.code) : a = b := by
  have key : ∀ a ∈ all, ∀ b ∈ all, a.code = b.code → a = b := by decide
  exact key a (mem_all a) b (mem_all b) h

theorem severity_eq_degraded_iff (e : Error) :
    e.severity = .degraded ↔ e ∈ [consoleUnavailable, debugFreezeFailed, contextSaveFailed,
      pmicStatusUnavailable] := by
  cases e <;> decide

end Error

end BootStage
