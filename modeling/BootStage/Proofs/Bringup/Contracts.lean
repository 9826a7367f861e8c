import BootStage.Bringup.Actions
import BootStage.Proofs.Bringup.Logic
import BootStage.Proofs.Counter
import BootStage.Proofs.MemoryMap

/-!
# The contracts of the steps

What the action of a step asks of the board (`Step.Asks`), how it can stop early (`Step.Stops`) and
what of the bring-up it can change (`Step.Changes`).  The action of every step stays within these
bounds (`stays_action`).
-/

namespace BootStage

/-- Requests that the action of a step may make. -/
inductive Step.Asks : Step → Request → Prop
  | probeFuses : Asks .fuseProbe .probeFuses
  | mapStatic (region : Region) : Asks .memoryProtection (.mapStatic region)
  | enableMmu : Asks .memoryProtection .enableMmu
  | openConfig : Asks .configTree .openConfig
  | readPower (address : UInt32) : Asks .powerDomain (.readRegister address)
  | writePower (address value : UInt32) : Asks .powerDomain (.writeRegister address value)
  | now : Asks .powerDomain .now
  | programmerBase (index : UInt16) : Asks .clockTree (.uartBase index)
  | stopUart (base : UInt32) : Asks .clockTree (.stopUart base)
  | probeClocks : Asks .clockTree .probeClocks
  | suppliedByPmic : Asks .operatingPoint .pmicPresent
  | startSupply : Asks .operatingPoint .startPmic
  | wokeFromStandby : Asks .operatingPoint .wokeFromStandby
  | restorePll : Asks .operatingPoint .restorePll
  | pllPredefined : Asks .operatingPoint .pllPredefined
  | savedPoint : Asks .operatingPoint .savedOperatingPoint
  | configuredPoint : Asks .operatingPoint .configuredOperatingPoint
  | cpuSupply : Asks .operatingPoint .cpuSupply
  | railVoltage (rail : String) : Asks .operatingPoint (.railVoltage rail)
  | setRailVoltage (rail : String) (voltage : UInt16) :
      Asks .operatingPoint (.setRailVoltage rail voltage)
  | startClocks (frequency : UInt32) : Asks .operatingPoint (.startClocks frequency)
  | consoleNode : Asks .console .consoleNode
  | consoleBase (index : UInt16) : Asks .console (.uartBase index)
  | applyConsolePins : Asks .console .applyConsolePins
  | enableClock (clock : ClockId) : Asks .console (.enableClock clock)
  | assertReset (line : ResetLine) (timeout : UInt32) : Asks .console (.assertReset line timeout)
  | releaseReset (line : ResetLine) (timeout : UInt32) : Asks .console (.releaseReset line timeout)
  | delay (us : UInt32) : Asks .console (.delayMicros us)
  | clockRate (clock : ClockId) : Asks .console (.clockRate clock)
  | registerConsole (base rate baud : UInt32) : Asks .console (.registerConsole base rate baud)
  | boardModel : Asks .console .boardModel
  | mustAuthenticate : Asks .console .isClosedDevice
  | startWatchdog : Asks .watchdog .startWatchdog
  | refreshWatchdog : Asks .watchdog .refreshWatchdog
  | debugFeatures : Asks .debugPolicy .debugFeatures
  | closedToDebug : Asks .debugPolicy .isClosedDevice
  | freezeSecondWatchdog : Asks .debugPolicy .freezeSecondWatchdog
  | saveBootInterface (interface : BootInterface) (index : UInt16) :
      Asks .bootInterface (.saveBootInterface interface index)
  | partitionBuses : Asks .securityPartition .partitionBuses
  | readStatus (address : UInt32) : Asks .resetReason (.readRegister address)
  | counterIndex : Asks .antiRollback .counterIndex
  | counterWord : Asks .antiRollback .counterWord
  | programFuse (value index : UInt32) : Asks .antiRollback (.programFuse value index)
  | reportsPmic : Asks .pmicRefresh .pmicPresent
  | restartPmic : Asks .pmicRefresh .startPmic
  | pmicVersion : Asks .pmicRefresh .pmicVersion
  | resumesTee : Asks .ioSetup .isDramRestored
  | openImageSource (device : BootDevice) : Asks .ioSetup (.openImageSource device)
  | probeDram : Asks .dramProbe .probeDram
  | restored : Asks .dramProbe .isDramRestored
  | dropBackup (address value : UInt32) : Asks .dramProbe (.writeRegister address value)
  | eraseBackup : Asks .dramProbe .eraseBackup
  | setUpPmic : Asks .dramProbe .pmicPresent
  | configurePmic : Asks .dramProbe .configurePmic
  | dramSize : Asks .dramMapping .dramSize
  | mapDynamic (region : Region) : Asks .dramMapping (.mapDynamic region)
  | sealBuses : Asks .prepareExit .sealBuses

theorem Step.eq_prepareExit_of_asks_sealBuses {s : Step} (h : s.Asks .sealBuses) :
    s = .prepareExit := by
  cases h
  rfl

theorem Step.eq_console_of_asks_registerConsole {s : Step} {base rate baud : UInt32}
    (h : s.Asks (.registerConsole base rate baud)) : s = .console := by
  cases h
  rfl

/-- How the action of a step may stop before its end. -/
inductive Step.Stops : Step → Stop → Prop
  | fuseProbeFailed : Stops .fuseProbe (.failed .fuseProbeFailed)
  | defect (d : Defect) : Stops .memoryProtection (.defect d)
  | mmuConfigFailed : Stops .memoryProtection (.failed .mmuConfigFailed)
  | configTreeInvalid : Stops .configTree (.failed .configTreeInvalid)
  | timeout : Stops .powerDomain (.failed .timeout)
  | hung : Stops .powerDomain .hung
  | deviceKnown : Stops .clockTree (.failed .alreadyInitialized)
  | clocksNotProbed : Stops .clockTree (.failed .clockInitFailed)
  | supplyFailed : Stops .operatingPoint (.failed .pmicError)
  | operatingPointUnavailable : Stops .operatingPoint (.failed .operatingPointUnavailable)
  | clocksNotStarted : Stops .operatingPoint (.failed .clockInitFailed)
  | consoleUnavailable : Stops .console (.failed .consoleUnavailable)
  | resetLineTimeout : Stops .console (.failed .resetLineTimeout)
  | consoleRegistrationFailed : Stops .console (.failed .consoleRegistrationFailed)
  | consoleKnown : Stops .console (.failed .alreadyInitialized)
  | authenticationRequired : Stops .console (.failed .authenticationRequired)
  | watchdogInitFailed : Stops .watchdog (.failed .watchdogInitFailed)
  | contextSaveFailed : Stops .bootInterface (.failed .contextSaveFailed)
  | busesNotPartitioned : Stops .securityPartition (.failed .securityPartitionFailed)
  | fuseReadFailed : Stops .antiRollback (.failed .fuseReadFailed)
  | fuseProgramFailed : Stops .antiRollback (.failed .fuseProgramFailed)
  | rollbackAttempted : Stops .antiRollback (.failed .rollbackAttempted)
  | pmicStatusUnavailable : Stops .pmicRefresh (.failed .pmicStatusUnavailable)
  | ioSetupFailed : Stops .ioSetup (.failed .ioSetupFailed)
  | dramInitFailed : Stops .dramProbe (.failed .dramInitFailed)
  | pmicNotConfigured : Stops .dramProbe (.failed .pmicError)
  | dramMappingFailed : Stops .dramMapping (.failed .dramMappingFailed)
  | invalidRegion : Stops .dramMapping (.failed .invalidRegion)
  | regionOverlap : Stops .dramMapping (.failed .regionOverlap)
  | tableFull : Stops .dramMapping (.failed .tableFull)
  | busesNotSealed : Stops .prepareExit (.failed .securityPartitionFailed)

/-- What no action of a step touches. -/
structure Bringup.SameFrame (b c : Bringup) : Prop where
  config : c.config = b.config
  patience : c.patience = b.patience
  context : c.stage.context = b.stage.context
  ledger : c.ledger = b.ledger

/-- What the action of `s` leaves of `b`. -/
structure Step.Changes (s : Step) (b c : Bringup) : Prop extends b.SameFrame c where
  memoryMap : s ≠ .memoryProtection → s ≠ .dramMapping → c.memoryMap = b.memoryMap
  degraded : ∀ p ∈ c.report.degraded, p ∈ b.report.degraded ∨
    s = .debugPolicy ∧ p = (.debugPolicy, .debugFreezeFailed)
  degraded_eq : s ≠ .debugPolicy → c.report.degraded = b.report.degraded
  device : s ≠ .clockTree → c.stage.device = b.stage.device
  console : s ≠ .console → c.stage.console = b.stage.console

namespace Step.Changes

variable {s : Step} {b c d : Bringup}

theorem refl (s : Step) (b : Bringup) : s.Changes b b :=
  ⟨⟨rfl, rfl, rfl, rfl⟩, fun _ _ => rfl, fun _ hp => .inl hp, fun _ => rfl, fun _ => rfl,
    fun _ => rfl⟩

theorem trans (h : s.Changes b c) (h' : s.Changes c d) : s.Changes b d where
  config := h'.config.trans h.config
  patience := h'.patience.trans h.patience
  context := h'.context.trans h.context
  ledger := h'.ledger.trans h.ledger
  memoryMap hProtect hMap := (h'.memoryMap hProtect hMap).trans (h.memoryMap hProtect hMap)
  degraded p hp := (h'.degraded p hp).elim (h.degraded p) .inr
  degraded_eq hOther := (h'.degraded_eq hOther).trans (h.degraded_eq hOther)
  device hOther := (h'.device hOther).trans (h.device hOther)
  console hOther := (h'.console hOther).trans (h.console hOther)

/-- Another state of the stage under the same hand-off. -/
theorem stage (b : Bringup) {stage : Stage} (h : stage.context = b.stage.context)
    (hDevice : s ≠ .clockTree → stage.device = b.stage.device)
    (hConsole : s ≠ .console → stage.console = b.stage.console) :
    s.Changes b { b with stage } :=
  ⟨⟨rfl, rfl, h, rfl⟩, fun _ _ => rfl, fun _ hp => .inl hp, fun _ => rfl, hDevice, hConsole⟩

theorem withLog (b : Bringup) (log : Log.Ring) : s.Changes b (b.withLog log) :=
  .stage b rfl (fun _ => rfl) fun _ => rfl

theorem withMemoryMap (b : Bringup) (memoryMap : MemoryMap)
    (h : s = .memoryProtection ∨ s = .dramMapping) : s.Changes b { b with memoryMap } where
  config := rfl
  patience := rfl
  context := rfl
  ledger := rfl
  memoryMap hProtect hMap := (h.elim hProtect hMap).elim
  degraded _ hp := .inl hp
  degraded_eq _ := rfl
  device _ := rfl
  console _ := rfl

/-- Another report of the same survived failures. -/
theorem report (b : Bringup) {report : Report} (h : report.degraded = b.report.degraded) :
    s.Changes b { b with report } :=
  ⟨⟨rfl, rfl, rfl, rfl⟩, fun _ _ => rfl, fun _ hp => .inl (h ▸ hp), fun _ => h, fun _ => rfl,
    fun _ => rfl⟩

end Step.Changes

/-- The bounds that the action of a step stays within. -/
def Step.contract (s : Step) : Action.Contract where
  asks := s.Asks
  stops := s.Stops
  changes := s.Changes
  refl := Step.Changes.refl s
  trans := Step.Changes.trans
  log := Step.Changes.withLog

theorem Report.mem_addDegraded {r : Report} {s : Step} {e : Error} {p : Step × Error}
    (h : p ∈ (r.addDegraded s e).degraded) : p ∈ r.degraded ∨ p = (s, e) := by
  unfold addDegraded at h
  split at h
  · exact (List.mem_append.1 h).imp_right List.mem_singleton.1
  · exact .inl h

theorem Report.degraded_addDegraded (r : Report) (s : Step) (e : Error) :
    (r.addDegraded s e).degraded =
      if r.degraded.length < degradedCapacity then r.degraded ++ [(s, e)] else r.degraded := by
  unfold addDegraded
  split <;> rfl

open BootStage.Program BootStage.Action

/-! ## Memory protection and power domain -/

theorem stays_mapFixed (r : Region) :
    (Bringup.mapFixed r).Stays (Step.contract .memoryProtection) := by
  refine stays_read_bind fun b => ?_
  cases b.memoryMap.addFixed r with
  | ok memoryMap => exact staysAt_set (.withMemoryMap b memoryMap (.inl rfl))
  | error d =>
    have hThrow : (throw (.defect d) : Action Unit).Stays (Step.contract .memoryProtection) :=
      stays_throw (.defect d)
    exact hThrow b

theorem stays_protectMemory : Bringup.protectMemory.Stays (Step.contract .memoryProtection) := by
  refine stays_get_bind fun b => ?_
  refine stays_bind (stays_forM fun r _ => stays_mapFixed r) fun _ => ?_
  refine stays_get_bind fun b' => ?_
  exact stays_require (asksOnly_handOver .enableMmu fun r _ => .mapStatic r) .mmuConfigFailed

section PowerDomain

variable {S : Request → Prop} (hNow : S .now)
  (hRead : ∀ address, address ≠ Registers.Rcc.resetStatus → S (.readRegister address))
  (hWrite : ∀ address value, S (.writeRegister address value)) (patience : Nat) (timeout : UInt32)

include hNow hRead hWrite

theorem asksOnly_openBackupDomain : (PowerDomain.openBackupDomain patience timeout).AsksOnly S := by
  have hControl := hRead Registers.Pwr.control1 (by decide)
  refine asksOnly_bind (asksOnly_ask (hWrite _ _)) fun _ => ?_
  refine asksOnly_bind (asksOnly_setBits hControl fun _ => hWrite _ _) fun _ => ?_
  exact asksOnly_awaitBits hNow hControl

theorem asksOnly_resetBackupDomain :
    (PowerDomain.resetBackupDomain patience timeout).AsksOnly S := by
  have hDomain := hRead Registers.Rcc.backupDomain (by decide)
  refine asksOnly_bind (asksOnly_ask hDomain) fun domain => ?_
  split
  · refine asksOnly_bind (asksOnly_setBits hDomain fun _ => hWrite _ _) fun _ => ?_
    refine asksOnly_bind (asksOnly_awaitBits hNow hDomain) fun outcome => ?_
    cases outcome with
    | settled =>
      refine asksOnly_bind (asksOnly_clearBits hDomain fun _ => hWrite _ _) fun _ => ?_
      exact asksOnly_pure _
    | timedOut => exact asksOnly_pure _
    | hung => exact asksOnly_pure _
  · exact asksOnly_pure _

omit hNow in
theorem asksOnly_applySettings : PowerDomain.applySettings.AsksOnly S := by
  refine asksOnly_bind (asksOnly_clearSetBits (hRead _ (by decide)) fun _ => hWrite _ _)
    fun _ => ?_
  refine asksOnly_bind (asksOnly_clearBits (hRead _ (by decide)) fun _ => hWrite _ _) fun _ => ?_
  refine asksOnly_bind (asksOnly_clearBits (hRead _ (by decide)) fun _ => hWrite _ _) fun _ => ?_
  exact asksOnly_ask (hWrite _ _)

/-- Registers and the clock are all that is touched, and the reset status is not read. -/
theorem asksOnly_normalize : (PowerDomain.normalize patience timeout).AsksOnly S := by
  refine asksOnly_bind (asksOnly_openBackupDomain hNow hRead hWrite patience timeout)
    fun outcome => ?_
  cases outcome with
  | settled =>
    refine asksOnly_bind (asksOnly_setBits (hRead _ (by decide)) fun _ => hWrite _ _) fun _ => ?_
    refine asksOnly_bind (asksOnly_resetBackupDomain hNow hRead hWrite patience timeout)
      fun outcome' => ?_
    cases outcome' with
    | settled =>
      exact asksOnly_bind (asksOnly_applySettings hRead hWrite) fun _ => asksOnly_pure _
    | timedOut => exact asksOnly_pure _
    | hung => exact asksOnly_pure _
  | timedOut => exact asksOnly_pure _
  | hung => exact asksOnly_pure _

end PowerDomain

theorem stays_normalizePowerDomain :
    Bringup.normalizePowerDomain.Stays (Step.contract .powerDomain) := by
  refine stays_get_bind fun b => ?_
  have hAsks := asksOnly_normalize (S := Step.Asks .powerDomain) .now
    (fun address _ => .readPower address) .writePower b.patience b.config.powerTimeout
  exact stays_bind (stays_lift hAsks) fun _ => stays_settled _ .timeout .hung

/-! ## Clock tree and operating point -/

theorem OnceCell.eq_alreadyInitialized_of_fill_eq_error {α : Type} {c : OnceCell α} {a : α}
    {e : Error} (h : c.fill a = .error e) : e = .alreadyInitialized := by
  unfold OnceCell.fill at h
  split at h
  · cases h
  · cases h
    rfl

theorem setBootDevice_eq_ok_iff {s s' : Stage} {device : BootDevice} :
    s.setBootDevice device = .ok s' ↔
      ∃ cell, s.device.fill device = .ok cell ∧ s' = { s with device := cell } := by
  unfold Stage.setBootDevice
  cases s.device.fill device <;> simp [eq_comm]

theorem eq_alreadyInitialized_of_setBootDevice {s : Stage} {device : BootDevice} {e : Error}
    (h : s.setBootDevice device = .error e) : e = .alreadyInitialized := by
  unfold Stage.setBootDevice at h
  split at h
  · cases h
  · next hFill =>
    cases h
    exact OnceCell.eq_alreadyInitialized_of_fill_eq_error hFill

theorem setConsole_eq_ok_iff {s s' : Stage} {console : Console} :
    s.setConsole console = .ok s' ↔
      ∃ cell, s.console.fill console = .ok cell ∧ s' = { s with console := cell } := by
  unfold Stage.setConsole
  cases s.console.fill console <;> simp [eq_comm]

theorem eq_alreadyInitialized_of_setConsole {s : Stage} {console : Console} {e : Error}
    (h : s.setConsole console = .error e) : e = .alreadyInitialized := by
  unfold Stage.setConsole at h
  split at h
  · cases h
  · next hFill =>
    cases h
    exact OnceCell.eq_alreadyInitialized_of_fill_eq_error hFill

theorem stays_stopProgrammerUart : Bringup.stopProgrammerUart.Stays (Step.contract .clockTree) := by
  refine stays_get_bind fun b => ?_
  split
  · refine stays_bind (stays_lift (asksOnly_ask (.programmerBase _))) fun found => ?_
    cases found with
    | none => exact stays_pure ()
    | some base => exact stays_lift (asksOnly_ask (.stopUart base))
  · exact stays_pure ()

theorem stays_setUpClockTree : Bringup.setUpClockTree.Stays (Step.contract .clockTree) := by
  refine stays_bind stays_stopProgrammerUart fun _ => ?_
  refine stays_read_bind fun b => ?_
  refine staysAt_ofExcept_bind (fun e hError => ?_) fun stage hStage => ?_
  · rw [eq_alreadyInitialized_of_setBootDevice hError]
    exact .deviceKnown
  · obtain ⟨cell, -, rfl⟩ := setBootDevice_eq_ok_iff.1 hStage
    refine staysAt_set_bind (.stage b rfl (fun hOther => absurd rfl hOther) fun _ => rfl) ?_
    exact stays_require (asksOnly_ask .probeClocks) .clocksNotProbed

theorem stays_supplyVoltage (voltage : UInt16) :
    (Bringup.supplyVoltage voltage).Stays (Step.contract .operatingPoint) := by
  refine stays_bind (stays_lift (asksOnly_ask .cpuSupply)) fun found => ?_
  cases found with
  | none => exact stays_fail .supplyFailed
  | some rail =>
    refine stays_bind (stays_require (asksOnly_ask (.railVoltage rail)) .supplyFailed)
      fun current => ?_
    refine stays_when (stays_bind (stays_note _ _) fun _ => ?_)
    exact stays_require (asksOnly_ask (.setRailVoltage rail voltage)) .supplyFailed

theorem stays_supplyFrequency (pmic standby : Bool) :
    (Bringup.supplyFrequency pmic standby).Stays (Step.contract .operatingPoint) := by
  refine stays_bind (stays_lift (asksOnly_ask .pllPredefined)) fun predefined => ?_
  cases predefined with
  | true => exact stays_pure _
  | false =>
    have hPoint : (if standby then Board.savedOperatingPoint
        else Board.configuredOperatingPoint).AsksOnly (Step.Asks .operatingPoint) := by
      split
      · exact asksOnly_ask .savedPoint
      · exact asksOnly_ask .configuredPoint
    refine stays_bind (stays_require hPoint .operatingPointUnavailable) fun point => ?_
    cases pmic with
    | true => exact stays_bind (stays_supplyVoltage _) fun _ => stays_pure _
    | false => exact stays_pure _

theorem stays_selectOperatingPoint :
    Bringup.selectOperatingPoint.Stays (Step.contract .operatingPoint) := by
  refine stays_bind (stays_lift (asksOnly_ask .suppliedByPmic)) fun pmic => ?_
  refine stays_guard (stays_require (asksOnly_ask .startSupply) .supplyFailed) ?_
  refine stays_bind (stays_lift (asksOnly_ask .wokeFromStandby)) fun standby => ?_
  refine stays_guard
    (stays_require (asksOnly_ask .restorePll) .operatingPointUnavailable) ?_
  refine stays_bind (stays_supplyFrequency pmic standby) fun frequency => ?_
  exact stays_require (asksOnly_ask (.startClocks frequency)) .clocksNotStarted

/-! ## Console -/

theorem stays_isProgrammerUart (base : UInt32) :
    (Bringup.isProgrammerUart base).Stays (Step.contract .console) := by
  refine stays_get_bind fun b => ?_
  split
  · exact stays_bind (stays_lift (asksOnly_ask (.consoleBase _))) fun _ => stays_pure _
  · exact stays_pure _

theorem stays_resetUart (line : ResetLine) :
    (Bringup.resetUart line).Stays (Step.contract .console) := by
  refine stays_get_bind fun b => ?_
  refine stays_bind (stays_require (asksOnly_ask (.assertReset _ _)) .resetLineTimeout)
    fun _ => ?_
  refine stays_bind (stays_lift (asksOnly_ask (.delay _))) fun _ => ?_
  refine stays_bind (stays_require (asksOnly_ask (.releaseReset _ _)) .resetLineTimeout)
    fun _ => ?_
  exact stays_lift (asksOnly_ask (.delay _))

theorem stays_registerUart (base : UInt32) (clock : ClockId) (reset : ResetLine) :
    (Bringup.registerUart base clock reset).Stays (Step.contract .console) := by
  refine stays_bind (stays_lift (asksOnly_ask (.enableClock clock))) fun _ => ?_
  refine stays_bind (stays_resetUart reset) fun _ => ?_
  refine stays_bind (stays_lift (asksOnly_ask (.clockRate clock))) fun rate => ?_
  refine stays_get_bind fun b => ?_
  refine stays_bind
    (stays_require (asksOnly_ask (.registerConsole _ _ _)) .consoleRegistrationFailed) fun _ => ?_
  refine stays_read_bind fun b' => ?_
  refine staysAt_ofExcept_bind (fun e hError => ?_) fun stage hStage => ?_
  · rw [eq_alreadyInitialized_of_setConsole hError]
    exact .consoleKnown
  · obtain ⟨cell, -, rfl⟩ := setConsole_eq_ok_iff.1 hStage
    exact staysAt_set (.stage b' rfl (fun _ => rfl) fun hOther => absurd rfl hOther)

/-- What is said on the console once the board was asked for its model. -/
def Bringup.greeting (model : Option String) : Action Unit := do
  match model with
  | some model => Action.note .notice ["Model: ", model]
  | none => pure ()
  let b ← get
  if b.config.trustedBoardBoot then
    match b.stage.context.authentication with
    | .notDone => return
    | .failed => Action.note .notice ["Bootrom authentication ", "failed"]
    | .succeeded => Action.note .notice ["Bootrom authentication ", "succeeded"]

theorem Bringup.greet_eq : greet = liftM Board.boardModel >>= greeting := rfl

theorem stays_greeting (model : Option String) :
    (Bringup.greeting model).Stays (Step.contract .console) := by
  cases model
  case' some model => refine stays_bind (stays_note _ _) fun _ => ?_
  -- The rest is the same whether or not the board has a name.
  all_goals
    refine stays_get_bind fun b => stays_when ?_
    cases b.stage.context.authentication with
    | notDone => exact stays_pure ()
    | failed => exact stays_note _ _
    | succeeded => exact stays_note _ _

theorem stays_greet : Bringup.greet.Stays (Step.contract .console) := by
  rw [Bringup.greet_eq]
  exact stays_bind (stays_lift (asksOnly_ask .boardModel)) stays_greeting

theorem stays_openConsole : Bringup.openConsole.Stays (Step.contract .console) := by
  refine stays_bind (stays_require (asksOnly_ask .consoleNode) .consoleUnavailable)
    fun node => ?_
  refine stays_guard (stays_fail .consoleUnavailable) ?_
  refine stays_bind (stays_isProgrammerUart node.base) fun taken => ?_
  refine stays_guard (stays_fail .consoleUnavailable) ?_
  split
  · refine stays_bind (stays_require (asksOnly_ask .applyConsolePins) .consoleUnavailable)
      fun _ => ?_
    exact stays_bind (stays_registerUart _ _ _) fun _ => stays_greet
  · exact stays_fail .consoleUnavailable

theorem stays_requireAuthentication :
    Bringup.requireAuthentication.Stays (Step.contract .console) := by
  refine stays_get_bind fun b => stays_when ?_
  refine stays_bind (stays_lift (asksOnly_ask .mustAuthenticate)) fun closed => ?_
  exact stays_when (stays_bind (stays_note _ _) fun _ => stays_fail .authenticationRequired)

theorem stays_selectConsole : Bringup.selectConsole.Stays (Step.contract .console) := by
  refine stays_outcome_bind stays_openConsole fun outcome hOutcome => ?_
  refine stays_bind stays_requireAuthentication fun _ => ?_
  cases outcome with
  | ok _ => exact stays_pure ()
  | error stop => exact stays_throw (hOutcome stop rfl)

/-! ## The other steps -/

theorem stays_startWatchdog : Bringup.startWatchdog.Stays (Step.contract .watchdog) := by
  refine stays_bind (stays_require (asksOnly_ask .startWatchdog) .watchdogInitFailed)
    fun _ => ?_
  exact stays_lift (asksOnly_ask .refreshWatchdog)

/-- The freeze of the second watchdog is all that the step can fail in, and it is survived. -/
theorem stays_degradeFreeze :
    (modify (·.degrade .debugPolicy .debugFreezeFailed) : Action Unit).Stays
      (Step.contract .debugPolicy) :=
  stays_modify fun _ => ⟨⟨rfl, rfl, rfl, rfl⟩, fun _ _ => rfl, fun _ hp =>
    (Report.mem_addDegraded hp).imp_right fun h => ⟨rfl, h⟩, fun hOther => absurd rfl hOther,
    fun _ => rfl, fun _ => rfl⟩

theorem stays_applyDebugPolicy : Bringup.applyDebugPolicy.Stays (Step.contract .debugPolicy) := by
  refine stays_bind (stays_lift (asksOnly_ask .debugFeatures)) fun features => ?_
  refine stays_bind (stays_lift (asksOnly_ask .closedToDebug)) fun closed => ?_
  refine stays_bind (stays_modify fun b => .report b rfl) fun _ => ?_
  have hBanner : ∀ c : Bool, (if c then modify fun b => b.withLog (DebugAccess.warn b.stage.log)
      else pure () : Action Unit).Stays (Step.contract .debugPolicy) := fun _ =>
    stays_when (stays_modify fun b => .withLog b _)
  split
  · refine stays_bind (stays_lift (asksOnly_ask .freezeSecondWatchdog)) fun reply => ?_
    cases reply with
    | ok _ => exact hBanner closed
    | error fault =>
      refine stays_bind (stays_note _ _) fun _ => ?_
      exact stays_bind stays_degradeFreeze fun _ => hBanner closed
  · exact stays_pure ()

theorem stays_saveBootInterface :
    Bringup.saveBootInterface.Stays (Step.contract .bootInterface) :=
  stays_get_bind fun _ =>
    stays_require (asksOnly_ask (.saveBootInterface _ _)) .contextSaveFailed

theorem stays_reportResetReason :
    Bringup.reportResetReason.Stays (Step.contract .resetReason) :=
  stays_bind (stays_lift (asksOnly_ask (.readStatus _))) fun _ =>
    stays_modify fun b => (Step.Changes.withLog b _).trans (.report _ rfl)

theorem asksOnly_counterRead (version : FirmwareVersion) :
    (Counter.read version).AsksOnly (Step.Asks .antiRollback) := by
  refine asksOnly_bind (asksOnly_ask .counterIndex) fun index => ?_
  cases index with
  | error _ => exact asksOnly_pure _
  | ok index =>
    refine asksOnly_bind (asksOnly_ask .counterWord) fun stored => ?_
    cases stored with
    | error _ => exact asksOnly_pure _
    | ok stored => exact asksOnly_pure _

theorem asksOnly_counterRecord (r : Counter.Reading) (target : UInt32) (log : Log.Ring) :
    (Counter.record r target log).AsksOnly (Step.Asks .antiRollback) := by
  refine asksOnly_bind (asksOnly_ask (.programFuse target r.index)) fun reply => ?_
  cases reply with
  | error _ => exact asksOnly_pure _
  | ok _ =>
    refine asksOnly_bind (asksOnly_ask .counterWord) fun written => ?_
    cases written with
    | error _ => exact asksOnly_pure _
    | ok written =>
      show Program.AsksOnly _ (if bitCount written = r.version.number then _ else _)
      split
      · exact asksOnly_pure _
      · exact asksOnly_pure _

theorem asksOnly_enforce (version : FirmwareVersion) (log : Log.Ring) :
    (Counter.enforce version log).AsksOnly (Step.Asks .antiRollback) := by
  refine asksOnly_bind (asksOnly_counterRead version) fun reading => ?_
  cases reading with
  | error _ => exact asksOnly_pure _
  | ok r =>
    dsimp only
    cases r.check with
    | error _ => exact asksOnly_pure _
    | ok _ =>
      dsimp only
      cases r.target? with
      | none => exact asksOnly_pure _
      | some target => exact asksOnly_counterRecord r target log

/-- The errors that the check can stop with. -/
theorem stops_of_enforced {v : FirmwareVersion} {t : List Exchange} {e : Error}
    (h : Counter.Enforced v t (.error e)) : Step.Stops .antiRollback (.failed e) := by
  cases h with
  | noIndex _ => exact .fuseReadFailed
  | noWord _ _ => exact .fuseReadFailed
  | tooOld _ _ _ => exact .rollbackAttempted
  | notProgrammed _ _ _ _ => exact .fuseProgramFailed
  | notReadBack _ _ _ _ => exact .fuseReadFailed
  | miscounted _ _ _ _ _ => exact .fuseProgramFailed

theorem stays_enforceVersion : Bringup.enforceVersion.Stays (Step.contract .antiRollback) := by
  refine stays_read_bind fun b => ?_
  refine staysAt_lift_bind (asksOnly_enforce _ _) fun t answer hRuns => ?_
  obtain ⟨result, log⟩ := answer
  have hStops : ∀ e, result = .error e → Step.Stops .antiRollback (.failed e) := fun e hError =>
    stops_of_enforced (hError ▸ Counter.enforced_of_runs hRuns)
  have hLog : (modify (·.withLog log) : Action Unit).Stays (Step.contract .antiRollback) :=
    stays_modify fun b => .withLog b log
  refine (hLog b).bind fun _ => ?_
  refine stays_bind (stays_ofExcept hStops) fun counter => ?_
  exact stays_modify fun b => .report b rfl

theorem stays_refreshPmic : Bringup.refreshPmic.Stays (Step.contract .pmicRefresh) := by
  refine stays_bind (stays_lift (asksOnly_ask .reportsPmic)) fun present => stays_when ?_
  refine stays_bind (stays_require (asksOnly_ask .restartPmic) .pmicStatusUnavailable)
    fun _ => ?_
  refine stays_bind (stays_require (asksOnly_ask .pmicVersion) .pmicStatusUnavailable)
    fun version => ?_
  exact stays_note _ _

theorem stays_setUpIo : Bringup.setUpIo.Stays (Step.contract .ioSetup) := by
  refine stays_get_bind fun b => ?_
  have hOpen : ∀ resident : Bool, (if ¬ resident then
      Action.require (Board.openImageSource b.stage.bootDevice) .ioSetupFailed
      else pure () : Action Unit).Stays (Step.contract .ioSetup) := fun _ =>
    stays_when (stays_require (asksOnly_ask (.openImageSource _)) .ioSetupFailed)
  split
  · exact stays_bind (stays_lift (asksOnly_ask .resumesTee)) hOpen
  · exact stays_bind (stays_pure false) hOpen

theorem stays_probeDram : Bringup.probeDram.Stays (Step.contract .dramProbe) := by
  refine stays_bind (stays_require (asksOnly_ask .probeDram) .dramInitFailed) fun _ => ?_
  refine stays_bind (stays_lift (asksOnly_ask .restored)) fun restored => ?_
  split
  · exact stays_note _ _
  · refine stays_bind (stays_lift (asksOnly_ask (.dropBackup _ _))) fun _ => ?_
    refine stays_bind (stays_lift (asksOnly_ask (.dropBackup _ _))) fun _ => ?_
    refine stays_bind (stays_lift (asksOnly_ask .eraseBackup)) fun _ => ?_
    refine stays_bind (stays_lift (asksOnly_ask .setUpPmic)) fun _ => ?_
    exact stays_when (stays_require (asksOnly_ask .configurePmic) .pmicNotConfigured)

/-- The errors that adding a region can stop with. -/
theorem stops_of_addDynamic {m : MemoryMap} {r : Region} {t : List Exchange} {e : Error}
    {m' : MemoryMap} (h : Runs (m.addDynamic r) t (.error e, m')) :
    Step.Stops .dramMapping (.failed e) := by
  cases MemoryMap.addsDynamic_of_runs h with
  | refused hAdd =>
    rcases MemoryMap.causes_of_refused hAdd with rfl | rfl | rfl
    · exact .invalidRegion
    · exact .regionOverlap
    · exact .tableFull
  | rejected _ _ => exact .dramMappingFailed

theorem stays_mapDram : Bringup.mapDram.Stays (Step.contract .dramMapping) := by
  refine stays_bind (stays_lift (asksOnly_ask .dramSize)) fun size => ?_
  refine stays_guard (stays_fail .dramMappingFailed) ?_
  refine stays_read_bind fun b => ?_
  refine staysAt_lift_bind (asksOnly_addDynamic (.mapDynamic _)) fun t answer hRuns => ?_
  obtain ⟨result, memoryMap⟩ := answer
  refine staysAt_set_bind (.withMemoryMap b memoryMap (.inr rfl)) ?_
  refine stays_ofExcept fun e hError => ?_
  rw [hError] at hRuns
  exact stops_of_addDynamic hRuns

/-- The action of a step makes only the requests that belong to the step, stops only as the step
may stop, and changes only what the step may change. -/
theorem stays_action (s : Step) : s.action.Stays s.contract := by
  cases s with
  | fuseProbe => exact stays_require (asksOnly_ask .probeFuses) .fuseProbeFailed
  | memoryProtection => exact stays_protectMemory
  | configTree => exact stays_require (asksOnly_ask .openConfig) .configTreeInvalid
  | powerDomain => exact stays_normalizePowerDomain
  | clockTree => exact stays_setUpClockTree
  | operatingPoint => exact stays_selectOperatingPoint
  | console => exact stays_selectConsole
  | watchdog => exact stays_startWatchdog
  | debugPolicy => exact stays_applyDebugPolicy
  | bootInterface => exact stays_saveBootInterface
  | securityPartition => exact stays_require (asksOnly_ask .partitionBuses) .busesNotPartitioned
  | resetReason => exact stays_reportResetReason
  | antiRollback => exact stays_enforceVersion
  | pmicRefresh => exact stays_refreshPmic
  | ioSetup => exact stays_setUpIo
  | dramProbe => exact stays_probeDram
  | dramMapping => exact stays_mapDram
  | prepareExit => exact stays_require (asksOnly_ask .sealBuses) .busesNotSealed

end BootStage
