import BootStage.BootContext
import BootStage.Log.Ring
import BootStage.Once

/-!
# State of the running stage

The hand-off from the boot ROM never changes.  The boot device and the console are set once each.
The log is filled from the start and printed as soon as there is a console.
-/

namespace BootStage

/-- A registered console. -/
structure Console where
  base : UInt32
  clockRate : UInt32
  baudRate : UInt32
  deriving DecidableEq

structure Stage where
  context : BootContext
  device : OnceCell BootDevice
  console : OnceCell Console
  log : Log.Ring
  deriving DecidableEq

namespace Stage

def fresh (context : BootContext) (logThreshold : Log.Level) : Stage :=
  ⟨context, .empty, .empty, .empty logThreshold⟩

/-- The board's own storage unless another device was set. -/
def bootDevice (s : Stage) : BootDevice := s.device.value?.getD .board

def setBootDevice (s : Stage) (device : BootDevice) : Except Error Stage :=
  match s.device.fill device with
  | .ok cell => .ok { s with device := cell }
  | .error e => .error e

def setConsole (s : Stage) (console : Console) : Except Error Stage :=
  match s.console.fill console with
  | .ok cell => .ok { s with console := cell }
  | .error e => .error e

end Stage

end BootStage
