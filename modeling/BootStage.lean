import BootStage.Text
import BootStage.Flags
import BootStage.Error
import BootStage.DriverFault
import BootStage.Region
import BootStage.Once
import BootStage.Version
import BootStage.BootContext
import BootStage.Log.Ring
import BootStage.Time
import BootStage.Registers
import BootStage.Config
import BootStage.Image.Table
import BootStage.Poll
import BootStage.MemoryMap
import BootStage.Counter
import BootStage.ResetReason
import BootStage.DebugAccess
import BootStage.Tee.Image
import BootStage.Ledger
import BootStage.Stage
import BootStage.Bringup.Run
import BootStage.Placement.Load
import BootStage.Proofs.Region
import BootStage.Proofs.Log.Pending
import BootStage.Proofs.Tee.Encoding
import BootStage.Proofs.Tee.Placement
import BootStage.Proofs.Tee.Parse
import BootStage.Proofs.Ensures
import BootStage.Proofs.TwoRuns
import BootStage.Proofs.Poll
import BootStage.Proofs.MemoryMap
import BootStage.Proofs.Boards
import BootStage.Proofs.Bringup.Logic
import BootStage.Proofs.Bringup.Contracts
import BootStage.Proofs.Bringup.Attempts
import BootStage.Proofs.Bringup.Sessions
import BootStage.Proofs.Bringup.Order
import BootStage.Proofs.Bringup.FailFast
import BootStage.Proofs.Bringup.AfterFailure
import BootStage.Proofs.Counter
import BootStage.Proofs.Fuse
import BootStage.Proofs.AntiRollback
import BootStage.Proofs.Placement.Origin
import BootStage.Proofs.Placement.Loads
import BootStage.Proofs.Placement.Reserved
import BootStage.Proofs.Ledger.Words
import BootStage.Proofs.Ledger.History
import BootStage.Proofs.Bringup.Authentication
import BootStage.Proofs.Bringup.MemoryIsolation
import BootStage.Proofs.Placement.Resume
import BootStage.Proofs.Placement.LoadOrder
import BootStage.Proofs.Bringup.Diagnostics
import BootStage.Proofs.Bringup.Printing
import BootStage.Proofs.Bringup.Recording
import BootStage.Proofs.Log.Recording
import BootStage.Proofs.Bringup.Lines
import BootStage.Proofs.Counter.Decision
import BootStage.Proofs.Counter.Retries
import BootStage.Proofs.Placement.TeeLoads
import BootStage.Proofs.Placement.SplitTee
import BootStage.Proofs.Placement.MonolithicTee
import BootStage.Proofs.Placement.RefusedTee
import BootStage.Proofs.Placement.Turns
import BootStage.Proofs.Placement.FirmwareConfig
import BootStage.Proofs.Placement.TeeFate
import BootStage.Proofs.Placement.Reload
import BootStage.Proofs.Bringup.OperatingPoint
import BootStage.Proofs.MemoryMap.Uses
import BootStage.Proofs.Placement.Frame
import BootStage.Proofs.Placement.LoaderCalls
import BootStage.Proofs.Registers
import BootStage.Proofs.Bringup.PowerDomain
import BootStage.Proofs.Bringup.ClockTree
import BootStage.Proofs.Bringup.Console
import BootStage.Proofs.Bringup.ConsoleChoice
import BootStage.Proofs.Bringup.ImageSource
import BootStage.Proofs.Bringup.Degraded
import BootStage.Proofs.Poll.Script
import BootStage.Proofs.Log.Chronicle
import BootStage.Proofs.Log.Pieces
import BootStage.Proofs.Region.Containment
import BootStage.Proofs.ResetReason
import BootStage.Proofs.Version.Filling
import BootStage.Proofs.Tee.Readers
import BootStage.Proofs.Log.Boundary
