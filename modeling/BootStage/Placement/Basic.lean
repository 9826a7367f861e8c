import BootStage.Board.Calls
import BootStage.Config
import BootStage.Image.Table
import BootStage.Log.Ring

/-!
# State of image placement

Placement keeps the image table as the loader brings in one image after the other.  It writes to the
log of the running stage, which is lent to it for each call.
-/

namespace BootStage

structure Placement where
  config : Config
  table : ImageTable
  /-- Survived failures, in order of occurrence. -/
  degraded : List (ImageId × Error)
  deriving DecidableEq

namespace Placement

/-- Survived failures that there is room for. -/
def degradedCapacity : Nat := 4

/-- Placement on a table that exists already. -/
def onTable (config : Config) (table : ImageTable) : Placement := ⟨config, table, []⟩

def fresh (config : Config) : Placement := onTable config .unresolved

/-- Note a survived failure while there is room. -/
def addDegraded (p : Placement) (image : ImageId) (e : Error) : Placement :=
  if p.degraded.length < degradedCapacity then { p with degraded := p.degraded ++ [(image, e)] }
  else p

/-- The placement and the log lent to it. -/
structure Session where
  placement : Placement
  log : Log.Ring
  deriving DecidableEq

end Placement

abbrev Placing : Type → Type := ExceptT Error (StateT Placement.Session Program)

namespace Placing

def config : Placing Config := return (← get).placement.config

def table : Placing ImageTable := return (← get).placement.table

def modifyTable (f : ImageTable → ImageTable) : Placing Unit :=
  modify fun s => { s with placement := { s.placement with table := f s.placement.table } }

/-- Change the descriptor of one image. -/
def update (image : ImageId) (f : Descriptor → Descriptor) : Placing Unit :=
  modifyTable (·.update image f)

/-- Enter an image at `pc`. -/
def enterAt (image : ImageId) (pc : UInt64) : Placing Unit :=
  update image fun d => { d with entry := { d.entry with pc } }

/-- Give an image its region. -/
def setRegion (image : ImageId) (region : Region) : Placing Unit :=
  update image fun d => { d with region }

def note (level : Log.Level) (pieces : List String) : Placing Unit :=
  modify fun s => { s with log := s.log.record level Log.stageSource pieces }

/-- The secure window at the top of DRAM. -/
def dramTopWindow : Placing Region := do
  let layout := (← config).layout
  let size ← Board.dramSize
  match layout.dramTopWindow? size with
  | some window => return window
  | none => throw .invalidRegion

end Placing

end BootStage
