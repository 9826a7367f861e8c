import BootStage.Placement.FirmwareConfig
import BootStage.Placement.Tee

/-!
# After an image was loaded

The loader calls `imageLoaded` after each image.  Three images have consequences for the table; the
others have none.
-/

namespace BootStage.Placement

/-- The TEE returns to the non-secure firmware, which has to have left the cache. -/
def handOffNonSecure : Placing Unit := do
  let firmware := (← Placing.table).nonSecureFirmware
  Placing.update .tee fun d =>
    { d with entry := { d.entry with returnAddress := firmware.entry.pc } }
  Board.flushCache firmware.region.base firmware.region.size

def afterLoad : ImageId → Placing Unit
  | .firmwareConfig => placeFirmwareConfig
  | .tee => placeTee
  | .nonSecureFirmware => handOffNonSecure
  | .teePager | .teePaged | .hardwareConfig | .teeConfig => return

/-- Follow up on an image that the loader has just brought in. -/
def imageLoaded (image : ImageId) (p : Placement) (log : Log.Ring) :
    Program (Except Error Unit × Session) :=
  (afterLoad image).run.run ⟨p, log⟩

/-- As `imageLoaded`, for an image given by the loader's own number. -/
def numberLoaded (number : UInt32) (p : Placement) (log : Log.Ring) :
    Program (Except Error Unit × Session) :=
  match ImageId.ofLoaderNumber number with
  | .ok image => imageLoaded image p log
  | .error e => pure (.error e, ⟨p, log⟩)

end BootStage.Placement
