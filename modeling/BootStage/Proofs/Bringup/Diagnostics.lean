import BootStage.Proofs.Bringup.Sessions
import BootStage.Proofs.TwoRuns

/-!
# Diagnostics do not influence the bring-up

Some things are there to be told: how much of the log is recorded, how the ROM's authentication went,
what the board is called, which version the power management chip has and why the processor was
reset.  Two bring-ups that differ in nothing else go the same way.

`Bringup.SameCourse b b'` says that `b'` is `b` with other diagnostics, and `Indifferent a` that from
two such states the action `a` makes the same requests but for printing, ends the same, and leaves two
such states.  There is one lemma per function of the bring-up, and

    two sessions with other diagnostics make the same decisions   (diagnostics_never_influence)

is the end of the chain.
-/

namespace BootStage

/-! ## What is there to be told -/

/-- Requests that print, and requests that are made to be printed. -/
def Request.isDiagnostic : Request → Bool
  | emit _ | boardModel | pmicVersion => true
  | readRegister address => address = Registers.Rcc.resetStatus
  | _ => false

/-- Replies that are the same, or differ in what is printed of them. -/
inductive SameReply : (q : Request) → q.Reply → q.Reply → Prop
  | equal (q : Request) (r : q.Reply) : SameReply q r r
  | model (model model' : Option String) : SameReply .boardModel model model'
  | version (version version' : UInt8) : SameReply .pmicVersion (.ok version) (.ok version')
  | status (status status' : UInt32) :
      SameReply (.readRegister Registers.Rcc.resetStatus) status status'

/-- All but printing is in view. -/
def View.diagnostics : View := ⟨Request.isEmit, SameReply⟩

theorem View.diagnostics_exact {q : Request} (h : q.isDiagnostic = false) : diagnostics.Exact q := by
  constructor
  · show q.isEmit = false
    cases q <;> first | rfl | cases h
  · intro r r' hSame
    cases hSame with
    | equal _ _ => rfl
    | model _ _ => cases h
    | version _ _ => cases h
    | status _ _ => simp [Request.isDiagnostic] at h

/-- What a bring-up has for nothing but to tell it. -/
structure Diagnostics where
  threshold : Log.Level
  authentication : AuthStatus
  log : Log.Ring
  resetReason : Option ResetReason

namespace Bringup

/-- The bring-up with other diagnostics. -/
def withDiagnostics (b : Bringup) (d : Diagnostics) : Bringup where
  config := { b.config with logThreshold := d.threshold }
  patience := b.patience
  stage := ⟨{ b.stage.context with authentication := d.authentication }, b.stage.device,
    b.stage.console, d.log⟩
  ledger := b.ledger
  memoryMap := b.memoryMap
  report := { b.report with resetReason := d.resetReason }

/-- The second is the first with other diagnostics. -/
def SameCourse (b b' : Bringup) : Prop := ∃ d, b' = b.withDiagnostics d

/-- Whatever is logged of either, the one is the other with other diagnostics. -/
theorem SameCourse.withLog {b b' : Bringup} (h : SameCourse b b') (log log' : Log.Ring) :
    SameCourse (b.withLog log) (b'.withLog log') := by
  obtain ⟨d, rfl⟩ := h
  exact ⟨{ d with log := log' }, rfl⟩

/-- A survived failure is in the report of both. -/
theorem SameCourse.degrade {b b' : Bringup} (h : SameCourse b b') (step : Step) (e : Error) :
    SameCourse (b.degrade step e) (b'.degrade step e) := by
  obtain ⟨d, rfl⟩ := h
  have hReport : ∀ reason, ({ b.report with resetReason := reason }).addDegraded step e =
      { b.report.addDegraded step e with resetReason := reason } := by
    intro reason
    unfold Report.addDegraded
    split <;> rfl
  refine ⟨{ d with log := ((b.withDiagnostics d).degrade step e).stage.log }, ?_⟩
  dsimp only [Bringup.degrade, withDiagnostics, note, Bringup.withLog]
  rw [hReport]

end Bringup

open Bringup (SameCourse)

/-- Started from bring-ups that differ in diagnostics alone, the program makes the same requests but
for printing, ends the same, and leaves two such bring-ups. -/
abbrev Indifferent {ε α : Type} (a : ExceptT ε (StateT Bringup Program) α) : Prop :=
  Coupled View.diagnostics SameCourse a

section Rules

variable {ε α β : Type} {b b' : Bringup}

theorem asksExact {q : Request} (h : q.isDiagnostic = false) :
    (Program.ask q).AsksOnly View.diagnostics.Exact :=
  Program.asksOnly_ask (View.diagnostics_exact h)

theorem indifferent_ask {q : Request} (h : q.isDiagnostic = false) :
    Indifferent (liftM (Program.ask q) : Action q.Reply) :=
  coupled_lift (asksExact h)

theorem indifferent_require {p : Program (Except DriverFault α)}
    (hp : p.AsksOnly View.diagnostics.Exact) (e : Error) : Indifferent (Action.require p e) := by
  refine coupled_bind (coupled_lift hp) fun reply => ?_
  cases reply with
  | ok v => exact coupled_pure v
  | error _ => exact coupled_throw _

theorem indifferent_ofExcept (x : Except Error α) : Indifferent (Action.ofExcept x) := by
  cases x with
  | ok v => exact coupled_pure v
  | error e => exact coupled_throw _

theorem indifferent_note (level : Log.Level) (pieces : List String) :
    Indifferent (Action.note level pieces) :=
  coupled_modify fun _ _ hSame => hSame.withLog _ _

/-- What is read is the same but for diagnostics. -/
theorem indifferent_get_bind {f : Bringup → ExceptT ε (StateT Bringup Program) α}
    (hSame : ∀ b d, f (b.withDiagnostics d) = f b) (hf : ∀ b, Indifferent (f b)) :
    Indifferent (get >>= f) := by
  refine coupled_get_bind (fun b b' h => ?_) hf
  obtain ⟨d, rfl⟩ := h
  exact hSame b d

end Rules

/-! ## Memory protection and power domain -/

theorem indifferent_mapFixed (region : Region) : Indifferent (Bringup.mapFixed region) := by
  rintro b b' ⟨d, rfl⟩
  refine alikeFrom_get_bind ?_
  have hSame : (b.withDiagnostics d).memoryMap = b.memoryMap := rfl
  rw [hSame]
  cases b.memoryMap.addFixed region with
  | ok memoryMap => exact alikeFrom_set ⟨d, rfl⟩
  | error defect => exact alikeFrom_throw ⟨d, rfl⟩

theorem indifferent_protectMemory : Indifferent Bringup.protectMemory := by
  refine indifferent_get_bind (fun _ _ => rfl) fun b => ?_
  refine coupled_bind (coupled_forM indifferent_mapFixed) fun _ => ?_
  refine indifferent_get_bind (fun _ _ => rfl) fun b' => ?_
  exact indifferent_require (Program.asksOnly_handOver (View.diagnostics_exact rfl) fun _ _ =>
    View.diagnostics_exact rfl) .mmuConfigFailed

theorem indifferent_settled (outcome : Poll.Outcome) : Indifferent (Action.settled outcome) := by
  cases outcome with
  | settled => exact coupled_pure ()
  | timedOut => exact coupled_throw _
  | hung => exact coupled_throw _

theorem indifferent_normalizePowerDomain : Indifferent Bringup.normalizePowerDomain := by
  refine indifferent_get_bind (fun _ _ => rfl) fun b => ?_
  refine coupled_bind (coupled_lift ?_) indifferent_settled
  exact asksOnly_normalize (View.diagnostics_exact rfl)
    (fun _ hOther => View.diagnostics_exact (decide_eq_false hOther))
    (fun _ _ => View.diagnostics_exact rfl) _ _

/-! ## Clock tree and operating point -/

theorem indifferent_stopProgrammerUart : Indifferent Bringup.stopProgrammerUart := by
  refine indifferent_get_bind (fun _ _ => rfl) fun b => coupled_when ?_
  refine coupled_bind (indifferent_ask rfl) fun found => ?_
  cases found with
  | some base => exact indifferent_ask rfl
  | none => exact coupled_pure ()

theorem indifferent_setUpClockTree : Indifferent Bringup.setUpClockTree := by
  refine coupled_bind indifferent_stopProgrammerUart fun _ => ?_
  rintro b b' ⟨d, rfl⟩
  refine alikeFrom_get_bind ?_
  -- The device is set once on both sides, or was set before on both.
  rcases b with ⟨config, patience, ⟨context, ⟨_ | device⟩, console, log⟩, ledger, memoryMap, report⟩
  · exact (alikeFrom_set ⟨d, rfl⟩).coupled fun _ =>
      indifferent_require (asksExact rfl) .clockInitFailed
  · exact alikeFrom_throw ⟨d, rfl⟩

theorem indifferent_supplyVoltage (voltage : UInt16) :
    Indifferent (Bringup.supplyVoltage voltage) := by
  refine coupled_bind (indifferent_ask rfl) fun found => ?_
  cases found with
  | none => exact coupled_throw _
  | some rail =>
    refine coupled_bind (indifferent_require (asksExact rfl) .pmicError) fun current => ?_
    refine coupled_when (coupled_bind (indifferent_note _ _) fun _ => ?_)
    exact indifferent_require (asksExact rfl) .pmicError

theorem indifferent_supplyFrequency (pmic standby : Bool) :
    Indifferent (Bringup.supplyFrequency pmic standby) := by
  refine coupled_bind (indifferent_ask rfl) fun predefined => ?_
  cases predefined with
  | true => exact coupled_pure _
  | false =>
    have hPoint : (if standby then Board.savedOperatingPoint
        else Board.configuredOperatingPoint).AsksOnly View.diagnostics.Exact := by
      split <;> exact asksExact rfl
    refine coupled_bind (indifferent_require hPoint .operatingPointUnavailable) fun point => ?_
    cases pmic with
    | true => exact coupled_bind (indifferent_supplyVoltage _) fun _ => coupled_pure _
    | false => exact coupled_pure _

theorem indifferent_selectOperatingPoint : Indifferent Bringup.selectOperatingPoint := by
  refine coupled_bind (indifferent_ask rfl) fun pmic => ?_
  refine coupled_guard (indifferent_require (asksExact rfl) .pmicError) ?_
  refine coupled_bind (indifferent_ask rfl) fun standby => ?_
  refine coupled_guard (indifferent_require (asksExact rfl) .operatingPointUnavailable) ?_
  refine coupled_bind (indifferent_supplyFrequency pmic standby) fun frequency => ?_
  exact indifferent_require (asksExact rfl) .clockInitFailed

/-! ## Console -/

theorem indifferent_isProgrammerUart (base : UInt32) :
    Indifferent (Bringup.isProgrammerUart base) := by
  refine indifferent_get_bind (fun _ _ => rfl) fun b => ?_
  split
  · exact coupled_bind (indifferent_ask rfl) fun _ => coupled_pure _
  · exact coupled_pure _

theorem indifferent_resetUart (line : ResetLine) : Indifferent (Bringup.resetUart line) := by
  refine indifferent_get_bind (fun _ _ => rfl) fun b => ?_
  refine coupled_bind (indifferent_require (asksExact rfl) .resetLineTimeout) fun _ => ?_
  refine coupled_bind (indifferent_ask rfl) fun _ => ?_
  refine coupled_bind (indifferent_require (asksExact rfl) .resetLineTimeout) fun _ => ?_
  exact indifferent_ask rfl

theorem indifferent_registerUart (base : UInt32) (clock : ClockId) (reset : ResetLine) :
    Indifferent (Bringup.registerUart base clock reset) := by
  refine coupled_bind (indifferent_ask rfl) fun _ => ?_
  refine coupled_bind (indifferent_resetUart reset) fun _ => ?_
  refine coupled_bind (indifferent_ask rfl) fun rate => ?_
  refine indifferent_get_bind (fun _ _ => rfl) fun b => ?_
  refine coupled_bind (indifferent_require (asksExact rfl) .consoleRegistrationFailed) fun _ => ?_
  rintro b b' ⟨d, rfl⟩
  refine alikeFrom_get_bind ?_
  rcases b with ⟨config, patience, ⟨context, device, ⟨_ | console⟩, log⟩, ledger, memoryMap, report⟩
  · exact alikeFrom_set ⟨d, rfl⟩
  · exact alikeFrom_throw ⟨d, rfl⟩

/-- The action does nothing but log. -/
def Quiet (a : Action Unit) : Prop := ∀ b, ∃ log, a.run.run b = pure (.ok (), b.withLog log)

theorem quiet_pure : Quiet (pure ()) := fun b => ⟨b.stage.log, rfl⟩

theorem quiet_note (level : Log.Level) (pieces : List String) : Quiet (Action.note level pieces) :=
  fun _ => ⟨_, rfl⟩

theorem quiet_note_bind {level : Log.Level} {pieces : List String} {f : Unit → Action Unit}
    (hf : Quiet (f ())) : Quiet (Action.note level pieces >>= f) :=
  fun b => hf (b.note level pieces)

theorem quiet_get_bind {f : Bringup → Action Unit} (hf : ∀ b, Quiet (f b)) : Quiet (get >>= f) :=
  fun b => hf b b

theorem quiet_greeting (model : Option String) : Quiet (Bringup.greeting model) := by
  cases model
  case' some model => refine quiet_note_bind ?_
  -- The rest is the same whether or not the board has a name.
  all_goals
    refine quiet_get_bind fun b => ?_
    split
    · cases b.stage.context.authentication with
      | notDone => exact quiet_pure
      | failed => exact quiet_note _ _
      | succeeded => exact quiet_note _ _
    · exact quiet_pure

/-- Actions that do nothing but log need not be the same. -/
theorem alikeFrom_of_quiet {a a' : Action Unit} {b b' : Bringup} (ha : Quiet a) (ha' : Quiet a')
    (h : SameCourse b b') : AlikeFrom View.diagnostics SameCourse Eq b b' a a' := by
  obtain ⟨log, hLog⟩ := ha b
  obtain ⟨log', hLog'⟩ := ha' b'
  unfold AlikeFrom
  rw [hLog, hLog']
  exact Program.alike_pure ⟨.ok rfl, h.withLog log log'⟩

/-- The model may be another one, and so may the outcome of the ROM's authentication. -/
theorem indifferent_greet : Indifferent Bringup.greet := by
  intro b b' h
  rw [Bringup.greet_eq]
  refine (alikeFrom_lift (Program.alike_ask rfl) h).bind fun model model' c c' _ hSame => ?_
  exact alikeFrom_of_quiet (quiet_greeting model) (quiet_greeting model') hSame

theorem indifferent_openConsole : Indifferent Bringup.openConsole := by
  refine coupled_bind (indifferent_require (asksExact rfl) .consoleUnavailable) fun node => ?_
  refine coupled_guard (coupled_throw _) ?_
  refine coupled_bind (indifferent_isProgrammerUart node.base) fun taken => ?_
  refine coupled_guard (coupled_throw _) ?_
  split
  · refine coupled_bind (indifferent_require (asksExact rfl) .consoleUnavailable) fun _ => ?_
    exact coupled_bind (indifferent_registerUart _ _ _) fun _ => indifferent_greet
  · exact coupled_throw _

theorem indifferent_requireAuthentication : Indifferent Bringup.requireAuthentication := by
  refine indifferent_get_bind (fun _ _ => rfl) fun b => coupled_when ?_
  refine coupled_bind (indifferent_ask rfl) fun closed => coupled_when ?_
  exact coupled_bind (indifferent_note _ _) fun _ => coupled_throw _

theorem indifferent_outcome {α : Type} {a : Action α} (ha : Indifferent a) :
    Indifferent (Action.outcome a) := by
  intro b b' h
  refine Program.Alike.bind (ha b b' h) fun ⟨x, c⟩ ⟨x', c'⟩ ⟨hEnd, hSame⟩ => ?_
  exact Program.alike_pure ⟨.ok hEnd.eq.symm, hSame⟩

theorem indifferent_selectConsole : Indifferent Bringup.selectConsole := by
  refine coupled_bind (indifferent_outcome indifferent_openConsole) fun outcome => ?_
  refine coupled_bind indifferent_requireAuthentication fun _ => ?_
  cases outcome with
  | ok _ => exact coupled_pure ()
  | error stop => exact coupled_throw stop

/-! ## The other steps -/

theorem indifferent_startWatchdog : Indifferent Bringup.startWatchdog := by
  refine coupled_bind (indifferent_require (asksExact rfl) .watchdogInitFailed) fun _ => ?_
  exact indifferent_ask rfl

theorem indifferent_applyDebugPolicy : Indifferent Bringup.applyDebugPolicy := by
  refine coupled_bind (indifferent_ask rfl) fun features => ?_
  refine coupled_bind (indifferent_ask rfl) fun closed => ?_
  refine coupled_bind (coupled_modify ?_) fun _ => ?_
  · rintro b b' ⟨d, rfl⟩
    exact ⟨d, rfl⟩
  have hBanner : ∀ c : Bool, Indifferent (if c then
      modify fun b => b.withLog (DebugAccess.warn b.stage.log) else pure () : Action Unit) :=
    fun _ => coupled_when (coupled_modify fun _ _ hSame => hSame.withLog _ _)
  split
  · refine coupled_bind (indifferent_ask rfl) fun reply => ?_
    cases reply with
    | ok _ => exact hBanner closed
    | error fault =>
      refine coupled_bind (indifferent_note _ _) fun _ => ?_
      refine coupled_bind (coupled_modify ?_) fun _ => hBanner closed
      exact fun _ _ hSame => hSame.degrade _ _
  · exact coupled_pure ()

theorem indifferent_saveBootInterface : Indifferent Bringup.saveBootInterface :=
  indifferent_get_bind (fun _ _ => rfl) fun _ =>
    indifferent_require (asksExact rfl) .contextSaveFailed

theorem indifferent_reportResetReason : Indifferent Bringup.reportResetReason := by
  intro b b' h
  refine (alikeFrom_lift (Program.alike_ask rfl) h).bind fun status status' c c' _ hSame => ?_
  obtain ⟨d, rfl⟩ := hSame
  let told := ResetReason.report ⟨status'⟩ d.log
  exact alikeFrom_modify ⟨⟨d.threshold, d.authentication, told.2, some told.1⟩, rfl⟩

theorem Step.Asks.not_diagnostic {q : Request} (h : Step.Asks .antiRollback q) :
    q.isDiagnostic = false := by
  cases h <;> rfl

theorem alike_record (r : Counter.Reading) (target : UInt32) (log log' : Log.Ring) :
    Program.Alike View.diagnostics (fun x x' => x'.1 = x.1) (Counter.record r target log)
      (Counter.record r target log') := by
  refine (Program.alike_self (asksExact rfl)).bind fun reply _ hReply => ?_
  subst hReply
  cases reply with
  | error _ => exact Program.alike_pure rfl
  | ok _ =>
    refine (Program.alike_self (asksExact rfl)).bind fun written _ hWritten => ?_
    subst hWritten
    cases written with
    | error _ => exact Program.alike_pure rfl
    | ok written =>
      dsimp only
      split <;> exact Program.alike_pure rfl

/-- The check goes the same way whatever is in the log. -/
theorem alike_enforce (version : FirmwareVersion) (log log' : Log.Ring) :
    Program.Alike View.diagnostics (fun x x' => x'.1 = x.1) (Counter.enforce version log)
      (Counter.enforce version log') := by
  have hRead := (asksOnly_counterRead version).mono fun q hAsks =>
    View.diagnostics_exact hAsks.not_diagnostic
  refine (Program.alike_self hRead).bind fun reading _ hReading => ?_
  subst hReading
  cases reading with
  | error _ => exact Program.alike_pure rfl
  | ok r =>
    dsimp only
    cases r.check with
    | error _ => exact Program.alike_pure rfl
    | ok _ =>
      dsimp only
      cases r.target? with
      | none => exact Program.alike_pure rfl
      | some target => exact alike_record r target log log'

theorem indifferent_enforceVersion : Indifferent Bringup.enforceVersion := by
  rintro b b' ⟨d, rfl⟩
  refine alikeFrom_get_bind ?_
  refine (alikeFrom_lift (alike_enforce _ _ _) ⟨d, rfl⟩).bind fun x x' c c' hResult hSame => ?_
  obtain ⟨_, log⟩ := x
  obtain ⟨result, log'⟩ := x'
  obtain rfl := hResult
  refine (alikeFrom_modify (hSame.withLog log log')).coupled fun _ => ?_
  refine coupled_bind (indifferent_ofExcept result) fun counter => coupled_modify ?_
  rintro c c' ⟨d, rfl⟩
  exact ⟨d, rfl⟩

theorem indifferent_refreshPmic : Indifferent Bringup.refreshPmic := by
  refine coupled_bind (indifferent_ask rfl) fun present => coupled_when ?_
  refine coupled_bind (indifferent_require (asksExact rfl) .pmicStatusUnavailable) fun _ => ?_
  intro b b' h
  -- Whatever the version is, it is only told.
  have hVersion : AlikeFrom View.diagnostics SameCourse (fun _ _ => True) b b'
      (Action.require Board.pmicVersion .pmicStatusUnavailable)
      (Action.require Board.pmicVersion .pmicStatusUnavailable) := by
    refine (alikeFrom_lift (Program.alike_ask rfl) h).bind fun reply reply' c c' hReply hSame => ?_
    cases hReply with
    | equal _ _ =>
      cases reply with
      | ok _ => exact alikeFrom_pure trivial hSame
      | error _ => exact alikeFrom_throw hSame
    | version _ _ => exact alikeFrom_pure trivial hSame
  refine hVersion.bind fun version version' c c' _ hSame => ?_
  exact alikeFrom_of_quiet (quiet_note _ _) (quiet_note _ _) hSame

theorem indifferent_setUpIo : Indifferent Bringup.setUpIo := by
  refine indifferent_get_bind (fun _ _ => rfl) fun b => ?_
  have hOpen : ∀ resident : Bool, Indifferent (if ¬ resident then
      Action.require (Board.openImageSource b.stage.bootDevice) .ioSetupFailed
      else pure () : Action Unit) := fun _ =>
    coupled_when (indifferent_require (asksExact rfl) .ioSetupFailed)
  split
  · exact coupled_bind (indifferent_ask rfl) hOpen
  · exact coupled_bind (coupled_pure false) hOpen

theorem indifferent_probeDram : Indifferent Bringup.probeDram := by
  refine coupled_bind (indifferent_require (asksExact rfl) .dramInitFailed) fun _ => ?_
  refine coupled_bind (indifferent_ask rfl) fun restored => ?_
  split
  · exact indifferent_note _ _
  · refine coupled_bind (indifferent_ask rfl) fun _ => ?_
    refine coupled_bind (indifferent_ask rfl) fun _ => ?_
    refine coupled_bind (indifferent_ask rfl) fun _ => ?_
    refine coupled_bind (indifferent_ask rfl) fun _ => ?_
    exact coupled_when (indifferent_require (asksExact rfl) .pmicError)

theorem indifferent_mapDram : Indifferent Bringup.mapDram := by
  refine coupled_bind (indifferent_ask rfl) fun size => ?_
  refine coupled_guard (coupled_throw _) ?_
  rintro b b' ⟨d, rfl⟩
  refine alikeFrom_get_bind ?_
  have hAdd : (b.memoryMap.addDynamic (b.config.layout.dram size)).AsksOnly
      View.diagnostics.Exact := Program.asksOnly_addDynamic (View.diagnostics_exact rfl)
  refine (alikeFrom_lift (Program.alike_self hAdd) ⟨d, rfl⟩).bind fun x _ c c' hValue hSame => ?_
  subst hValue
  exact (alikeFrom_set ⟨d, rfl⟩).coupled fun _ => indifferent_ofExcept x.1

theorem indifferent_action (step : Step) : Indifferent step.action := by
  cases step with
  | fuseProbe => exact indifferent_require (asksExact rfl) .fuseProbeFailed
  | memoryProtection => exact indifferent_protectMemory
  | configTree => exact indifferent_require (asksExact rfl) .configTreeInvalid
  | powerDomain => exact indifferent_normalizePowerDomain
  | clockTree => exact indifferent_setUpClockTree
  | operatingPoint => exact indifferent_selectOperatingPoint
  | console => exact indifferent_selectConsole
  | watchdog => exact indifferent_startWatchdog
  | debugPolicy => exact indifferent_applyDebugPolicy
  | bootInterface => exact indifferent_saveBootInterface
  | securityPartition => exact indifferent_require (asksExact rfl) .securityPartitionFailed
  | resetReason => exact indifferent_reportResetReason
  | antiRollback => exact indifferent_enforceVersion
  | pmicRefresh => exact indifferent_refreshPmic
  | ioSetup => exact indifferent_setUpIo
  | dramProbe => exact indifferent_probeDram
  | dramMapping => exact indifferent_mapDram
  | prepareExit => exact indifferent_require (asksExact rfl) .securityPartitionFailed

/-! ## Steps, phases and calls -/

section Calls

variable {b b' : Bringup}

/-- What is printed differs, and nothing else does. -/
theorem alike_flushConsole (h : SameCourse b b') :
    Program.Alike View.diagnostics SameCourse b.flushConsole b'.flushConsole := by
  refine Program.alike_of_hidden (fun t c hRuns => (Bringup.flushes_of_runs hRuns).changes_log.1)
    (fun t c hRuns => (Bringup.flushes_of_runs hRuns).changes_log.1) fun t t' c c' hRuns hRuns' => ?_
  obtain ⟨-, log, rfl⟩ := (Bringup.flushes_of_runs hRuns).changes_log
  obtain ⟨-, log', rfl⟩ := (Bringup.flushes_of_runs hRuns').changes_log
  exact h.withLog log log'

/-- Ends of two bring-ups that differ in diagnostics alone. -/
def SameEnding (x x' : Except Abort Unit × Bringup) : Prop :=
  SameEnd Eq x.1 x'.1 ∧ SameCourse x.2 x'.2

theorem alike_abandon (h : SameCourse b b') (step : Step) (e : Error) (pieces : List String) :
    Program.Alike View.diagnostics SameEnding (b.abandon step e pieces)
      (b'.abandon step e pieces) :=
  (alike_flushConsole (h.withLog _ _)).bind fun _ _ hSame => Program.alike_pure ⟨.error _, hSame⟩

theorem alike_finish (h : SameCourse b b') (step : Step) :
    Program.Alike View.diagnostics SameEnding (b.finish step) (b'.finish step) := by
  have hCompleted : SameCourse { b with ledger := b.ledger.complete step }
      { b' with ledger := b'.ledger.complete step } := by
    obtain ⟨d, rfl⟩ := h
    exact ⟨d, rfl⟩
  exact (alike_flushConsole hCompleted).bind fun _ _ hSame => Program.alike_pure ⟨.ok rfl, hSame⟩

theorem alike_conclude (h : SameCourse b b') (step : Step) (x : Except Stop Unit) :
    Program.Alike View.diagnostics SameEnding (Bringup.conclude step (x, b))
      (Bringup.conclude step (x, b')) := by
  rcases x with (e | defect | _) | _
  · by_cases hFatal : e.isFatal = true
    · have hRun : ∀ c, Bringup.conclude step (.error (.failed e), c) =
          c.abandon step e [step.name, ": ", e.message] := fun _ => if_pos hFatal
      rw [hRun, hRun]
      exact alike_abandon h step e _
    · have hRun : ∀ c, Bringup.conclude step (.error (.failed e), c) =
          (c.degrade step e).finish step := fun _ => if_neg hFatal
      rw [hRun, hRun]
      exact alike_finish (h.degrade step e) step
  · exact Program.alike_pure ⟨.error _, h⟩
  · exact Program.alike_pure ⟨.error _, h⟩
  · exact alike_finish h step

theorem indifferent_perform (step : Step) : Indifferent (Bringup.perform step) := by
  intro b b' h
  have hLedger : b'.ledger = b.ledger := by
    obtain ⟨d, rfl⟩ := h
    rfl
  unfold AlikeFrom
  cases hStart : b.ledger.start step with
  | error e =>
    rw [Bringup.run_perform_of_error hStart, Bringup.run_perform_of_error (hLedger ▸ hStart)]
    exact alike_abandon h step e _
  | ok started =>
    rw [Bringup.run_perform_of_ok hStart, Bringup.run_perform_of_ok (hLedger ▸ hStart)]
    have hStarted : SameCourse { b with ledger := started } { b' with ledger := started } := by
      obtain ⟨d, rfl⟩ := h
      exact ⟨d, rfl⟩
    refine Program.Alike.bind (indifferent_action step _ _ hStarted)
      fun ⟨x, c⟩ ⟨x', c'⟩ ⟨hEnd, hSame⟩ => ?_
    obtain rfl : x' = x := hEnd.eq
    exact alike_conclude hSame step x'

theorem indifferent_performAll (steps : List Step) : Indifferent (Bringup.performAll steps) := by
  induction steps with
  | nil => exact coupled_pure ()
  | cons step steps ih => exact coupled_bind (indifferent_perform step) fun _ => ih

theorem indifferent_call (call : Call) : Indifferent call.run := by
  rw [call.run_eq_performAll]
  exact indifferent_performAll call.steps

/-- Make calls one after the other and keep what each of them returns. -/
def callEach : List Call → StateT Bringup Program (List (Except Abort Unit))
  | [] => pure []
  | call :: calls => do
    let result ← call.run.run
    let results ← callEach calls
    return result :: results

theorem alike_callEach (h : SameCourse b b') (calls : List Call) :
    Program.Alike View.diagnostics (fun x x' => x'.1 = x.1 ∧ SameCourse x.2 x'.2)
      ((callEach calls).run b) ((callEach calls).run b') := by
  induction calls generalizing b b' with
  | nil => exact Program.alike_pure ⟨rfl, h⟩
  | cons call calls ih =>
    refine Program.Alike.bind (indifferent_call call b b' h) fun ⟨x, c⟩ ⟨x', c'⟩ ⟨hEnd, hSame⟩ => ?_
    obtain rfl : x' = x := hEnd.eq
    refine Program.Alike.bind (ih hSame) fun ⟨xs, d⟩ ⟨xs', d'⟩ ⟨hEnds, hSame'⟩ => ?_
    obtain rfl : xs' = xs := hEnds
    exact Program.alike_pure ⟨rfl, hSame'⟩

end Calls

/-- Two bring-ups are configured alike but for the threshold of the log, are handed over alike but
for the outcome of the ROM's authentication, and run on boards that answer alike but for the board's
model, the version of the power management chip and the reset status.  Then the same calls return the
same, leave the same ledger, memory map, survived failures and outcome of the counter, and make the
same requests but for what they print. -/
theorem diagnostics_never_influence {config : Config} {context : BootContext} {patience : Nat}
    {threshold : Log.Level} {authentication : AuthStatus} {calls : List Call}
    {t t' : List Exchange} {results results' : List (Except Abort Unit)} {b b' : Bringup}
    (h : Runs ((callEach calls).run (.fresh config context patience)) t (results, b))
    (h' : Runs ((callEach calls).run (.fresh { config with logThreshold := threshold }
      { context with authentication } patience)) t' (results', b'))
    (hAnswered : View.diagnostics.Answered t t') :
    results' = results ∧ b'.ledger = b.ledger ∧ b'.memoryMap = b.memoryMap ∧
      b'.report.degraded = b.report.degraded ∧ b'.report.counter = b.report.counter ∧
      View.diagnostics.asked t' = View.diagnostics.asked t := by
  have hFresh : SameCourse (.fresh config context patience)
      (.fresh { config with logThreshold := threshold } { context with authentication } patience) :=
    ⟨⟨threshold, authentication, .empty threshold, none⟩, rfl⟩
  obtain ⟨hAsked, hResults, d, rfl⟩ := alike_callEach hFresh calls t t' _ _ h h' hAnswered
  exact ⟨hResults, rfl, rfl, rfl, rfl, hAsked⟩

theorem sameReply_talkativeReply (model model' : String) (version version' : UInt8)
    (status status' : UInt32) (q : Request) :
    SameReply q (talkativeReply model version status q)
      (talkativeReply model' version' status' q) := by
  cases q with
  | boardModel => exact .model _ _
  | pmicVersion => exact .version _ _
  | readRegister address =>
    by_cases hStatus : address = Registers.Rcc.resetStatus
    · subst hStatus
      exact .status _ _
    · have hOther : ∀ model version status,
          talkativeReply model version status (.readRegister address) = 0xFFFFFFFF :=
        fun _ _ _ => if_neg hStatus
      rw [hOther, hOther]
      exact .equal _ _
  | _ => exact .equal _ _

/-- A board with another name, another chip and another reason for its reset, whose ROM could not
authenticate the stage and whose log is kept to errors: less is printed, and nothing else is done
differently. -/
theorem talkativeBoard_unmoved : ∃ t t' results' b b',
    Runs ((callEach [.bringUp, .prepareExit]).run (.fresh .standard usualContext 1)) t
      ([.ok (), .ok ()], b) ∧
    Runs ((callEach [.bringUp, .prepareExit]).run
      (.fresh { Config.standard with logThreshold := .error }
        { usualContext with authentication := .failed } 1)) t' (results', b') ∧
    t'.length < t.length ∧ b'.report.resetReason ≠ b.report.resetReason ∧
    results' = [.ok (), .ok ()] ∧ View.diagnostics.asked t' = View.diagnostics.asked t := by
  obtain ⟨t, ⟨results, b⟩, h, rfl, hLength, hReason, hSteady⟩ := Program.exists_runs
    (steadyBoard (talkativeReply "STM32MP157C-DK2" 0x21 0x1))
    ((callEach [.bringUp, .prepareExit]).run (.fresh .standard usualContext 1)) ()
    (P := fun t ended => ended.1 = [.ok (), .ok ()] ∧ 60 < t.length ∧
      ended.2.report.resetReason = some .powerOn ∧
      Steady (talkativeReply "STM32MP157C-DK2" 0x21 0x1) t)
    ⟨by decide +kernel, by decide +kernel, by decide +kernel, steady_transcript _ _⟩
  obtain ⟨t', ⟨results', b'⟩, h', hLength', hReason', hSteady'⟩ := Program.exists_runs
    (steadyBoard (talkativeReply "STM32MP157F-EV1" 0x10 0x40))
    ((callEach [.bringUp, .prepareExit]).run (.fresh { Config.standard with logThreshold := .error }
      { usualContext with authentication := .failed } 1)) ()
    (P := fun t ended => t.length ≤ 60 ∧ ended.2.report.resetReason = some .mpuSystem ∧
      Steady (talkativeReply "STM32MP157F-EV1" 0x10 0x40) t)
    ⟨by decide +kernel, by decide +kernel, steady_transcript _ _⟩
  have hAnswered : View.diagnostics.Answered t t' := by
    refine View.answered_of_mem fun q r r' hMem hMem' => ?_
    have hReply : r = talkativeReply "STM32MP157C-DK2" 0x21 0x1 q := hSteady _ hMem
    have hReply' : r' = talkativeReply "STM32MP157F-EV1" 0x10 0x40 q := hSteady' _ hMem'
    rw [hReply, hReply']
    exact sameReply_talkativeReply _ _ _ _ _ _ q
  obtain ⟨hResults, -, -, -, -, hAsked⟩ := diagnostics_never_influence h h' hAnswered
  refine ⟨t, t', results', b, b', h, h', Nat.lt_of_le_of_lt hLength' hLength, ?_, hResults, hAsked⟩
  rw [hReason, hReason']
  decide

end BootStage
