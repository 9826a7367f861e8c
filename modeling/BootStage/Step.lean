import BootStage.Error

/-!
# Steps of the bring-up

Eighteen steps in nominal order, in three phases.  A step may start only after the steps it builds
on, and those all stand before it in nominal order.
-/

namespace BootStage

inductive Step
  | fuseProbe
  | memoryProtection
  | configTree
  | powerDomain
  | clockTree
  | operatingPoint
  | console
  | watchdog
  | debugPolicy
  | bootInterface
  | securityPartition
  | resetReason
  | antiRollback
  | pmicRefresh
  | ioSetup
  | dramProbe
  | dramMapping
  | prepareExit
  deriving DecidableEq

namespace Step

/-- Steps of the architecture phase, in nominal order. -/
def architecture : List Step :=
  [fuseProbe, memoryProtection, configTree, powerDomain, clockTree, operatingPoint, console,
   watchdog, debugPolicy, bootInterface, securityPartition, resetReason, antiRollback, pmicRefresh,
   ioSetup]

/-- Steps of the platform phase, in nominal order. -/
def platform : List Step := [dramProbe, dramMapping]

/-- Every step in nominal order. -/
def all : List Step := architecture ++ platform ++ [prepareExit]

/-- Steps that must have completed before this one starts. -/
def prerequisites : Step → List Step
  | fuseProbe => []
  | memoryProtection => [fuseProbe]
  | configTree => [memoryProtection]
  | powerDomain => [configTree]
  | clockTree => [powerDomain]
  | operatingPoint => [clockTree, configTree]
  | console => [operatingPoint]
  | watchdog => [clockTree]
  | debugPolicy => [fuseProbe, watchdog]
  | bootInterface => [powerDomain]
  | securityPartition => [debugPolicy]
  | resetReason => [configTree]
  | antiRollback => [fuseProbe]
  | pmicRefresh => [operatingPoint]
  | ioSetup => [securityPartition, antiRollback]
  | dramProbe => [clockTree]
  | dramMapping => [dramProbe, memoryProtection]
  | prepareExit => [ioSetup, dramMapping]

def name : Step → String
  | fuseProbe => "fuse probe"
  | memoryProtection => "memory protection"
  | configTree => "config tree"
  | powerDomain => "power domain"
  | clockTree => "clock tree"
  | operatingPoint => "operating point"
  | console => "console"
  | watchdog => "watchdog"
  | debugPolicy => "debug policy"
  | bootInterface => "boot interface"
  | securityPartition => "security partition"
  | resetReason => "reset reason"
  | antiRollback => "anti-rollback"
  | pmicRefresh => "PMIC refresh"
  | ioSetup => "IO setup"
  | dramProbe => "DRAM probe"
  | dramMapping => "DRAM mapping"
  | prepareExit => "prepare exit"

theorem mem_all (s : Step) : s ∈ all := by cases s <;> decide

theorem nodup_all : all.Nodup := by decide

end Step

end BootStage
