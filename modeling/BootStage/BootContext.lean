/-!
# Hand-off from the boot ROM

The ROM leaves three words: the interface it loaded this stage from, the instance of that
interface, and the outcome of its authentication of this stage.
-/

namespace BootStage

/-- Interface that the boot ROM loaded this stage from. -/
inductive BootInterface
  | none
  | sdCard
  | emmc
  | norQspi
  | nandFmc
  | serialUart
  | serialUsb
  | nandQspi
  | unknown (code : UInt16)
  deriving DecidableEq

namespace BootInterface

def ofCode (code : UInt16) : BootInterface :=
  if code = 0 then none
  else if code = 1 then sdCard
  else if code = 2 then emmc
  else if code = 3 then norQspi
  else if code = 4 then nandFmc
  else if code = 5 then serialUart
  else if code = 6 then serialUsb
  else if code = 7 then nandQspi
  else unknown code

def code : BootInterface → UInt16
  | none => 0
  | sdCard => 1
  | emmc => 2
  | norQspi => 3
  | nandFmc => 4
  | serialUart => 5
  | serialUsb => 6
  | nandQspi => 7
  | unknown code => code

/-- Decoding loses nothing. -/
theorem code_ofCode (c : UInt16) : (ofCode c).code = c := by
  unfold ofCode
  repeat' split
  all_goals simp_all [code]

end BootInterface

/-- Outcome of the boot ROM's authentication of this stage. -/
inductive AuthStatus
  | notDone
  | failed
  | succeeded
  deriving DecidableEq

def AuthStatus.ofCode (code : UInt32) : AuthStatus :=
  if code = 1 then failed else if code = 2 then succeeded else notDone

/-- Where later images are fetched from. -/
inductive BootDevice
  | board
  | usb
  deriving DecidableEq

structure BootContext where
  interface : BootInterface
  instanceIndex : UInt16
  authentication : AuthStatus
  deriving DecidableEq

namespace BootContext

def ofWords (interface instanceIndex : UInt16) (authentication : UInt32) : BootContext :=
  ⟨.ofCode interface, instanceIndex, .ofCode authentication⟩

/-- The ROM was talked to over the serial programmer's UART. -/
def isSerialUart (c : BootContext) : Bool := c.interface == .serialUart

/-- The ROM was talked to over the USB programmer. -/
def isSerialUsb (c : BootContext) : Bool := c.interface == .serialUsb

end BootContext

end BootStage
