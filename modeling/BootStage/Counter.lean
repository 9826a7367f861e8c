import BootStage.Board.Calls
import BootStage.Log.Ring
import BootStage.Version

/-!
# The anti-rollback counter

The version of every firmware that ran is recorded in one fuse word.  Firmware older than the
record must not run; firmware newer than the record has its version recorded before anything else
is loaded.  Fuses are programmed once and read back: a word that does not come out with exactly the
version's number of bits is an error, whatever the driver said.
-/

namespace BootStage.Counter

/-- The recorded word, and the version that is about to run. -/
structure Reading where
  index : UInt32
  stored : UInt32
  version : FirmwareVersion
  deriving DecidableEq

/-- How the version came to be recorded. -/
inductive Outcome
  | upToDate (stored : UInt32)
  | advanced (before after : UInt32)
  deriving DecidableEq

def read (version : FirmwareVersion) : Program (Except Error Reading) := do
  match ← Board.counterIndex with
  | .error _ => return .error .fuseReadFailed
  | .ok index =>
    match ← Board.counterWord with
    | .error _ => return .error .fuseReadFailed
    | .ok stored => return .ok ⟨index, stored, version⟩

namespace Reading

/-- Refuse a version older than the recorded one. -/
def check (r : Reading) : Except Error Unit :=
  if r.version.isOlderThan r.stored then .error .rollbackAttempted else .ok ()

/-- The word to program, unless the version is recorded already. -/
def target? (r : Reading) : Option UInt32 :=
  if r.version.isRecordedBy r.stored then none else some (r.version.advance r.stored)

end Reading

/-- Module name in the log. -/
def source : String := "rollback"

/-- Program `target` and read it back. -/
def record (r : Reading) (target : UInt32) (log : Log.Ring) :
    Program (Except Error Outcome × Log.Ring) := do
  match ← Board.programFuse target r.index with
  | .error fault =>
    return (.error .fuseProgramFailed,
      log.record .error source ["BSEC: MONOTONIC_OTP program Error ", fault.message])
  | .ok () =>
    match ← Board.counterWord with
    | .error _ => return (.error .fuseReadFailed, log)
    | .ok written =>
      if bitCount written = r.version.number then
        return (.ok (.advanced r.stored target),
          log.record .info source
            ["Monotonic counter has been incremented (value 0x", Text.hex 1 target.toNat, ")"])
      else
        return (.error .fuseProgramFailed,
          log.record .error source
            ["MONOTONIC_OTP reads 0x", Text.hex 1 written.toNat, " after programming 0x",
              Text.hex 1 target.toNat])

/-- Have the fuse word record `version`, or refuse to run it. -/
def enforce (version : FirmwareVersion) (log : Log.Ring) :
    Program (Except Error Outcome × Log.Ring) := do
  match ← read version with
  | .error e => return (.error e, log)
  | .ok r =>
    match r.check with
    | .error e =>
      return (.error e,
        log.record .error source
          ["Firmware version ", toString version.number, " older than counter 0x",
            Text.hex 1 r.stored.toNat])
    | .ok () =>
      match r.target? with
      | none => return (.ok (.upToDate r.stored), log)
      | some target => record r target log

end BootStage.Counter
