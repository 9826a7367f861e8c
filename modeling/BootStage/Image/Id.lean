import BootStage.Error

/-!
# Roles of images

The boot flow knows seven images.  The external loader has numbers of its own for them, and no two
images share one (`ImageId.ofLoaderNumber_loaderNumber`).
-/

namespace BootStage

inductive ImageId
  /-- Says where every other image goes. -/
  | firmwareConfig
  /-- The trusted execution environment. -/
  | tee
  /-- Resident part of a split TEE. -/
  | teePager
  /-- Demand-loaded part of a split TEE. -/
  | teePaged
  /-- First firmware of the non-secure world. -/
  | nonSecureFirmware
  /-- Hardware description for later stages. -/
  | hardwareConfig
  | teeConfig
  deriving DecidableEq

namespace ImageId

/-- Every image, in table order. -/
def all : List ImageId :=
  [firmwareConfig, tee, teePager, teePaged, nonSecureFirmware, hardwareConfig, teeConfig]

/-- Position in table order. -/
def index : ImageId → Nat
  | firmwareConfig => 0
  | tee => 1
  | teePager => 2
  | teePaged => 3
  | nonSecureFirmware => 4
  | hardwareConfig => 5
  | teeConfig => 6

def name : ImageId → String
  | firmwareConfig => "FW_CONFIG"
  | tee => "BL32"
  | teePager => "BL32_EXTRA1"
  | teePaged => "BL32_EXTRA2"
  | nonSecureFirmware => "BL33"
  | hardwareConfig => "HW_CONFIG"
  | teeConfig => "TOS_FW_CONFIG"

/-- The loader's number for the image. -/
def loaderNumber : ImageId → UInt32
  | firmwareConfig => 31
  | tee => 4
  | teePager => 21
  | teePaged => 22
  | nonSecureFirmware => 5
  | hardwareConfig => 23
  | teeConfig => 26

def ofLoaderNumber (number : UInt32) : Except Error ImageId :=
  match all.find? fun id => id.loaderNumber == number with
  | some id => .ok id
  | none => .error .unknownImage

theorem getElem?_index (id : ImageId) : all[id.index]? = some id := by cases id <;> rfl

theorem ofLoaderNumber_loaderNumber (id : ImageId) : ofLoaderNumber id.loaderNumber = .ok id := by
  cases id <;> rfl

end ImageId

end BootStage
