import BootStage.Image.Id
import BootStage.Region

/-!
# The image table

One descriptor per image tells the loader where the image goes, whether to fetch it, and how to
enter it.  Writing one descriptor leaves the six others alone (`ImageTable.get_set`).
-/

namespace BootStage

/-- What the loader is told about fetching an image. -/
inductive LoadAttribute
  | skipLoading
  deriving DecidableEq

instance : Flag LoadAttribute where
  all := [.skipLoading]
  bit
    | .skipLoading => 0x2

/-- Execution state that an image is entered in. -/
inductive ExecutionState
  | aarch32
  | aarch64
  deriving DecidableEq

structure EntryPoint where
  pc : UInt64
  /-- Where the secure monitor returns to after boot. -/
  returnAddress : UInt64
  arg0 : UInt64
  arg1 : UInt64
  arg2 : UInt64
  state : ExecutionState
  deriving DecidableEq

def EntryPoint.unknown : EntryPoint := ⟨0, 0, 0, 0, 0, .aarch32⟩

/-- Placement of one image. -/
@[ext] structure Descriptor where
  id : ImageId
  /-- Load address and greatest size. -/
  region : Region
  /-- Size of the image once it is known. -/
  imageSize : UInt64
  attributes : Flags LoadAttribute
  entry : EntryPoint
  deriving DecidableEq

namespace Descriptor

/-- Nothing is known yet and nothing is fetched. -/
def unresolved (id : ImageId) : Descriptor :=
  ⟨id, .window 0 0, 0, .ofList [.skipLoading], .unknown⟩

def skipsLoading (d : Descriptor) : Bool := d.attributes.has .skipLoading

/-- Have the loader fetch the image. -/
def fetch (d : Descriptor) : Descriptor :=
  { d with attributes := d.attributes.erase .skipLoading }

end Descriptor

@[ext] structure ImageTable where
  firmwareConfig : Descriptor
  tee : Descriptor
  teePager : Descriptor
  teePaged : Descriptor
  nonSecureFirmware : Descriptor
  hardwareConfig : Descriptor
  teeConfig : Descriptor
  deriving DecidableEq

namespace ImageTable

def unresolved : ImageTable where
  firmwareConfig := .unresolved .firmwareConfig
  tee := .unresolved .tee
  teePager := .unresolved .teePager
  teePaged := .unresolved .teePaged
  nonSecureFirmware := .unresolved .nonSecureFirmware
  hardwareConfig := .unresolved .hardwareConfig
  teeConfig := .unresolved .teeConfig

def get (t : ImageTable) : ImageId → Descriptor
  | .firmwareConfig => t.firmwareConfig
  | .tee => t.tee
  | .teePager => t.teePager
  | .teePaged => t.teePaged
  | .nonSecureFirmware => t.nonSecureFirmware
  | .hardwareConfig => t.hardwareConfig
  | .teeConfig => t.teeConfig

def set (t : ImageTable) (id : ImageId) (d : Descriptor) : ImageTable :=
  match id with
  | .firmwareConfig => { t with firmwareConfig := d }
  | .tee => { t with tee := d }
  | .teePager => { t with teePager := d }
  | .teePaged => { t with teePaged := d }
  | .nonSecureFirmware => { t with nonSecureFirmware := d }
  | .hardwareConfig => { t with hardwareConfig := d }
  | .teeConfig => { t with teeConfig := d }

def update (t : ImageTable) (id : ImageId) (f : Descriptor → Descriptor) : ImageTable :=
  t.set id (f (t.get id))

/-- The descriptors in table order. -/
def toList (t : ImageTable) : List Descriptor := ImageId.all.map t.get

theorem get_set (t : ImageTable) (a b : ImageId) (d : Descriptor) :
    (t.set a d).get b = if a = b then d else t.get b := by
  cases a <;> cases b <;> rfl

theorem get_update (t : ImageTable) (a b : ImageId) (f : Descriptor → Descriptor) :
    (t.update a f).get b = if a = b then f (t.get b) else t.get b := by
  unfold update
  rw [get_set]
  split
  · next h => rw [h]
  · rfl

theorem get_unresolved (id : ImageId) : unresolved.get id = .unresolved id := by cases id <;> rfl

end ImageTable

end BootStage
