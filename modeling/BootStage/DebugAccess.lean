import BootStage.Log.Ring

/-!
# Debug access to the device

A device that is locked for production should have no debug access left.  One that has boots
nevertheless, under a banner that cannot be missed.
-/

namespace BootStage

structure DebugAccess where
  /-- Some debug access is enabled by the fuses. -/
  isOpen : Bool
  /-- The device is locked for production. -/
  isClosedDevice : Bool
  deriving DecidableEq

namespace DebugAccess

/-- Debug access to a locked device. -/
def isSecurityWarning (d : DebugAccess) : Bool := d.isOpen && d.isClosedDevice

def banner : List String :=
  ["***************************************************",
   "** NOTICE   NOTICE   NOTICE   NOTICE   NOTICE    **",
   "**                                               **",
   "** DEBUG ACCESS PORT IS OPEN!                    **",
   "** This boot image is only for debugging purpose **",
   "** and is unsafe for production use.             **",
   "**                                               **",
   "** If you see this message and you are not       **",
   "** debugging report this immediately to your     **",
   "** vendor!                                       **",
   "**                                               **",
   "***************************************************"]

/-- Log the banner, a notice per line. -/
def warn (log : Log.Ring) : Log.Ring :=
  log.recordAll Log.stageSource (banner.map fun line => (.notice, [line]))

end DebugAccess

end BootStage
