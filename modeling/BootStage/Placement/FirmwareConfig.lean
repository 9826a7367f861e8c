import BootStage.Placement.Basic

/-!
# Placement by the firmware configuration

The firmware configuration has an entry for each of four images, or none.  An image with an entry
gets its region and is fetched, unless it lies in DRAM and DRAM still holds it from before standby.
-/

namespace BootStage.Placement

/-- Images that the firmware configuration may describe, in the order of the walk. -/
def describedImages : List ImageId := [.tee, .nonSecureFirmware, .hardwareConfig, .teeConfig]

/-- Entry point that tells the TEE that the non-secure firmware resumes. -/
def resumeEntry : UInt64 := 0

/-- Set what depends on the image's role. -/
def applyRole (image : ImageId) (place : ImagePlace) (restored : Bool) : Placing Unit := do
  match image with
  | .tee =>
    Placing.enterAt .tee place.address
    Placing.setRegion .teePager (.window place.address place.maxSize)
    Placing.setRegion .teePaged (← Placing.dramTopWindow)
  | .nonSecureFirmware =>
    Placing.enterAt .nonSecureFirmware (if restored then resumeEntry else place.address)
  | .hardwareConfig | .teeConfig => return
  | _ =>
    Placing.note .error ["No placement rule for ", image.name]
    throw .unknownImage

/-- Place one image as the configuration says. -/
def applyEntry (image : ImageId) (place : ImagePlace) (restored : Bool) : Placing Unit := do
  let layout := (← Placing.config).layout
  let region := Region.window place.address place.maxSize
  Placing.setRegion image region
  if ¬ (restored ∧ layout.isDramAddress place.address) then
    Placing.update image Descriptor.fetch
  Placing.note .debug [image.name, " at ", region.describe]
  applyRole image place restored

/-- Place images in turn; one without an entry is left as it is. -/
def applyEntries (restored : Bool) : List ImageId → Placing Unit
  | [] => return
  | image :: images => do
    match ← Board.imagePlace image with
    | some place => applyEntry image place restored
    | none => pure ()
    applyEntries restored images

/-- Read the firmware configuration and place the images that it describes. -/
def placeFirmwareConfig : Placing Unit := do
  let window := (← Placing.config).layout.firmwareConfig
  match ← Board.populateFirmwareConfig window with
  | .error _ => throw .configTreeInvalid
  | .ok () =>
    Placing.setRegion .firmwareConfig window
    applyEntries (← Board.isDramRestored) describedImages

end BootStage.Placement
