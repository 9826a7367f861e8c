import BootStage.Proofs.Bringup.Contracts
import BootStage.Proofs.Log.Recording

/-!
# What the steps tell the log

The action of a step tells the log a bounded number of lines (`Step.lines`) and leaves a console where
there was one or where the board accepts one (`Step.informs`).  `a.TellsAtMost n` says so of an action,
wherever it is started and however the board answers, and there is one rule per way of building an
action, which adds up the lines.  The lines of the debug policy end with the banner if debug access is
open to a locked device.
-/

namespace BootStage

open Log (Line)

/-- The board accepts a console. -/
def Exchange.registersConsole : Exchange → Bool
  | ⟨.registerConsole _ _ _, .ok _⟩ => true
  | _ => false

def Request.asksForConsole : Request → Bool
  | registerConsole _ _ _ => true
  | _ => false

/-- The request is not for a console. -/
def Request.Plain (q : Request) : Prop := q.asksForConsole = false

theorem asksPlain {q : Request} (h : q.asksForConsole = false) :
    (Program.ask q).AsksOnly Request.Plain :=
  Program.asksOnly_ask h

theorem Exchange.not_registersConsole {e : Exchange} (h : e.request.Plain) :
    e.registersConsole = false := by
  obtain ⟨q, r⟩ := e
  cases q <;> first | rfl | cases h

/-- What is left of `b` by an action that tells at most `n` lines. -/
structure Tells (n : Nat) (b : Bringup) (t : List Exchange) (c : Bringup) : Prop where
  lines : ∃ lines, lines.length ≤ n ∧ c.stage.log = b.stage.log.tell lines
  console : c.stage.console.isFilled = (b.stage.console.isFilled || t.any (·.registersConsole))

namespace Tells

variable {n m : Nat} {b c d : Bringup} {t t' : List Exchange}

theorem of_same (hLog : c.stage.log = b.stage.log) (hConsole : c.stage.console = b.stage.console)
    (hSilent : ∀ e ∈ t, e.request.Plain) : Tells n b t c := by
  refine ⟨⟨[], Nat.zero_le n, hLog⟩, ?_⟩
  have hNone : t.any (·.registersConsole) = false :=
    List.any_eq_false.2 fun e he => by simp [Exchange.not_registersConsole (hSilent e he)]
  rw [hNone, hConsole, Bool.or_false]

theorem append (h : Tells n b t c) (h' : Tells m c t' d) : Tells (n + m) b (t ++ t') d := by
  obtain ⟨⟨lines, hLength, hLog⟩, hConsole⟩ := h
  obtain ⟨⟨lines', hLength', hLog'⟩, hConsole'⟩ := h'
  refine ⟨⟨lines ++ lines', ?_, ?_⟩, ?_⟩
  · rw [List.length_append]
    omega
  · rw [hLog', hLog, Log.Ring.tell_append]
  · rw [hConsole', hConsole, List.any_append, Bool.or_assoc]

theorem mono (h : Tells n b t c) (hLe : n ≤ m) : Tells m b t c := by
  obtain ⟨⟨lines, hLength, hLog⟩, hConsole⟩ := h
  exact ⟨⟨lines, Nat.le_trans hLength hLe, hLog⟩, hConsole⟩

end Tells

/-! ## Rules -/

/-- The action tells at most `n` lines, wherever it is started and however the board answers. -/
def Action.TellsAtMost {α : Type} (n : Nat) (a : Action α) : Prop :=
  ∀ b, Ensures a b fun t _ c => Tells n b t c

namespace Action

variable {α β : Type} {n m : Nat}

theorem tells_pure (v : α) : (pure v : Action α).TellsAtMost n := fun _ =>
  ensures_pure.2 (.of_same rfl rfl not_mem_nil)

theorem tells_throw (s : Stop) : (throw s : Action α).TellsAtMost n := fun _ =>
  ensures_throw.2 (.of_same rfl rfl not_mem_nil)

theorem tells_ofExcept (x : Except Error α) : (Action.ofExcept x).TellsAtMost n := by
  cases x with
  | ok v => exact tells_pure v
  | error e => exact tells_throw _

theorem tells_lift {p : Program α} (hp : p.AsksOnly Request.Plain) :
    (liftM p : Action α).TellsAtMost n := fun _ =>
  ensures_lift.2 fun t v hRuns => .of_same rfl rfl (hp t v hRuns)

theorem tells_ask {q : Request} (h : q.asksForConsole = false) :
    (liftM (Program.ask q) : Action q.Reply).TellsAtMost n :=
  tells_lift (asksPlain h)

/-- A change of the bring-up that leaves the log and the console alone. -/
theorem tells_modify {f : Bringup → Bringup} (hLog : ∀ b, (f b).stage.log = b.stage.log)
    (hConsole : ∀ b, (f b).stage.console = b.stage.console) :
    (modify f : Action Unit).TellsAtMost n := fun b =>
  ensures_modify.2 (.of_same (hLog b) (hConsole b) not_mem_nil)

theorem tells_note (level : Log.Level) (pieces : List String) :
    (Action.note level pieces).TellsAtMost (n + 1) := fun _ =>
  ensures_modify.2 ⟨⟨[⟨level, Log.stageSource, pieces⟩], Nat.le_add_left 1 n, rfl⟩,
    (Bool.or_false _).symm⟩

theorem TellsAtMost.mono {a : Action α} (ha : a.TellsAtMost n) (h : n ≤ m) : a.TellsAtMost m :=
  fun b => Ensures.mono (ha b) fun _ _ _ hTells => hTells.mono h

theorem TellsAtMost.bind {a : Action α} {f : α → Action β} (ha : a.TellsAtMost n)
    (hf : ∀ v, (f v).TellsAtMost m) : (a >>= f).TellsAtMost (n + m) := by
  intro b
  refine ensures_bind.2 (Ensures.mono (ha b) fun t x c hFirst => ?_)
  cases x with
  | ok v => exact Ensures.mono (hf v c) fun t' y d hRest => hFirst.append hRest
  | error s => exact hFirst.mono (Nat.le_add_right n m)

/-- The first part tells nothing. -/
theorem TellsAtMost.seq {a : Action α} {f : α → Action β} (ha : a.TellsAtMost 0)
    (hf : ∀ v, (f v).TellsAtMost n) : (a >>= f).TellsAtMost n := by
  rw [← Nat.zero_add n]
  exact ha.bind hf

theorem tells_note_bind {level : Log.Level} {pieces : List String} {f : Unit → Action β}
    (hf : (f ()).TellsAtMost n) : (Action.note level pieces >>= f).TellsAtMost (n + 1) := by
  rw [Nat.add_comm]
  exact (tells_note level pieces).bind fun _ => hf

theorem tells_get_bind {f : Bringup → Action α} (hf : ∀ b, (f b).TellsAtMost n) :
    (get >>= f).TellsAtMost n := fun b =>
  ensures_get_bind.2 (hf b b)

theorem tells_require {p : Program (Except DriverFault α)} (e : Error)
    (hp : p.AsksOnly Request.Plain) : (Action.require p e).TellsAtMost n := by
  refine TellsAtMost.seq (tells_lift hp) fun reply => ?_
  cases reply with
  | ok v => exact tells_pure v
  | error _ => exact tells_throw _

theorem tells_when {c : Prop} [Decidable c] {a : Action Unit} (ha : a.TellsAtMost n) :
    (if c then a else pure () : Action Unit).TellsAtMost n := by
  split
  · exact ha
  · exact tells_pure ()

theorem tells_guard {c : Prop} [Decidable c] {a : Action Unit} {f : Unit → Action β}
    (ha : a.TellsAtMost 0) (hf : (f ()).TellsAtMost n) :
    (if c then a >>= f else f ()).TellsAtMost n := by
  split
  · exact ha.seq fun _ => hf
  · exact hf

theorem tells_forM {f : α → Action Unit} {l : List α} (hf : ∀ a, (f a).TellsAtMost 0) :
    (l.forM f).TellsAtMost 0 := by
  induction l with
  | nil => exact tells_pure ()
  | cons a l ih => exact (hf a).seq fun _ => ih

theorem tells_outcome_bind {a : Action α} {f : Except Stop α → Action β} (ha : a.TellsAtMost n)
    (hf : ∀ x, (f x).TellsAtMost m) : (Action.outcome a >>= f).TellsAtMost (n + m) := by
  intro b
  refine ensures_outcome_bind.2 (Ensures.mono (ha b) fun t x c hFirst => ?_)
  exact Ensures.mono (hf x c) fun t' y d hRest => hFirst.append hRest

/-- What is set in place of the state just read has its log and its console. -/
theorem ensures_set_bind {b c : Bringup} {f : Unit → Action β} (hLog : c.stage.log = b.stage.log)
    (hConsole : c.stage.console = b.stage.console) (hf : (f ()).TellsAtMost n) :
    Ensures ((set c : Action Unit) >>= f) b fun t _ d => Tells n b t d := by
  refine ensures_bind.2 (ensures_set.2 (Ensures.mono (hf c) fun t _ d hRest => ?_))
  have hSame : Tells 0 b [] c := .of_same hLog hConsole not_mem_nil
  rw [← Nat.zero_add n]
  exact hSame.append hRest

end Action

open BootStage.Action

/-! ## Steps -/

theorem tells_mapFixed (region : Region) : (Bringup.mapFixed region).TellsAtMost 0 := by
  intro b
  refine ensures_get_bind.2 ?_
  cases b.memoryMap.addFixed region with
  | ok memoryMap => exact ensures_set.2 (.of_same rfl rfl not_mem_nil)
  | error d => exact ensures_throw.2 (.of_same rfl rfl not_mem_nil)

theorem tells_protectMemory : Bringup.protectMemory.TellsAtMost 0 := by
  refine tells_get_bind fun b => (tells_forM tells_mapFixed).seq fun _ => ?_
  refine tells_get_bind fun b' => tells_require .mmuConfigFailed ?_
  exact Program.asksOnly_handOver rfl fun _ _ => rfl

theorem tells_normalizePowerDomain : Bringup.normalizePowerDomain.TellsAtMost 0 := by
  refine tells_get_bind fun b => ?_
  have hAsks := asksOnly_normalize (S := Request.Plain) rfl (fun _ _ => rfl) (fun _ _ => rfl)
    b.patience b.config.powerTimeout
  refine (tells_lift hAsks).seq fun outcome => ?_
  cases outcome with
  | settled => exact tells_pure ()
  | timedOut => exact tells_throw _
  | hung => exact tells_throw _

theorem tells_stopProgrammerUart : Bringup.stopProgrammerUart.TellsAtMost 0 := by
  refine tells_get_bind fun b => tells_when ((tells_ask rfl).seq fun found => ?_)
  cases found with
  | some base => exact tells_ask rfl
  | none => exact tells_pure ()

theorem tells_setUpClockTree : Bringup.setUpClockTree.TellsAtMost 0 := by
  refine tells_stopProgrammerUart.seq fun _ b => ensures_get_bind.2 ?_
  -- The device was set before, or it is set now.
  rcases b with ⟨config, patience, ⟨context, ⟨_ | device⟩, console, log⟩, ledger, memoryMap, report⟩
  · refine ensures_bind.2 (ensures_pure.2 (ensures_set_bind rfl rfl ?_))
    exact tells_require .clockInitFailed (asksPlain rfl)
  · exact ensures_bind.2 (ensures_throw.2 (.of_same rfl rfl not_mem_nil))

theorem tells_supplyVoltage (voltage : UInt16) :
    (Bringup.supplyVoltage voltage).TellsAtMost 1 := by
  refine (tells_ask rfl).seq fun found => ?_
  cases found with
  | none => exact tells_throw _
  | some rail =>
    refine (tells_require .pmicError (asksPlain rfl)).seq fun current => ?_
    refine tells_when (tells_note_bind ?_)
    exact tells_require .pmicError (asksPlain rfl)

theorem tells_supplyFrequency (pmic standby : Bool) :
    (Bringup.supplyFrequency pmic standby).TellsAtMost 1 := by
  refine (tells_ask rfl).seq fun predefined => ?_
  cases predefined with
  | true => exact tells_pure _
  | false =>
    have hPoint : (if standby then Board.savedOperatingPoint
        else Board.configuredOperatingPoint).AsksOnly Request.Plain := by
      split <;> exact asksPlain rfl
    refine (tells_require .operatingPointUnavailable hPoint).seq fun point => ?_
    cases pmic with
    | true => exact (tells_supplyVoltage _).bind (m := 0) fun _ => tells_pure _
    | false => exact tells_pure _

theorem tells_selectOperatingPoint : Bringup.selectOperatingPoint.TellsAtMost 1 := by
  refine (tells_ask rfl).seq fun pmic => ?_
  refine tells_guard (tells_require .pmicError (asksPlain rfl)) ?_
  refine (tells_ask rfl).seq fun standby => ?_
  refine tells_guard (tells_require .operatingPointUnavailable (asksPlain rfl)) ?_
  refine (tells_supplyFrequency pmic standby).bind (m := 0) fun frequency => ?_
  exact tells_require .clockInitFailed (asksPlain rfl)

theorem tells_isProgrammerUart (base : UInt32) : (Bringup.isProgrammerUart base).TellsAtMost 0 := by
  refine tells_get_bind fun b => ?_
  split
  · exact (tells_ask rfl).seq fun _ => tells_pure _
  · exact tells_pure _

theorem tells_resetUart (line : ResetLine) : (Bringup.resetUart line).TellsAtMost 0 := by
  refine tells_get_bind fun b => ?_
  refine (tells_require .resetLineTimeout (asksPlain rfl)).seq fun _ => ?_
  refine (tells_ask rfl).seq fun _ => ?_
  refine (tells_require .resetLineTimeout (asksPlain rfl)).seq fun _ => ?_
  exact tells_ask rfl

/-- There is a console afterwards if there was one, or if the board accepts it. -/
theorem tells_registerUart (base : UInt32) (clock : ClockId) (reset : ResetLine) :
    (Bringup.registerUart base clock reset).TellsAtMost 0 := by
  refine (tells_ask rfl).seq fun _ => ?_
  refine (tells_resetUart reset).seq fun _ => ?_
  refine (tells_ask rfl).seq fun rate => tells_get_bind fun b => ?_
  intro b
  refine ensures_bind.2 (ensures_lift_bind.2 fun t reply hRuns => ?_)
  obtain rfl := runs_ask_iff.1 hRuns
  cases reply with
  | error _ => exact ensures_throw.2 ⟨⟨[], Nat.le_refl 0, rfl⟩, (Bool.or_false _).symm⟩
  | ok _ =>
    refine ensures_pure.2 (ensures_get_bind.2 ?_)
    rcases b with ⟨config, patience, ⟨context, device, ⟨_ | console⟩, log⟩, ledger, memoryMap, report⟩
    · refine ensures_bind.2 (ensures_pure.2 (ensures_set.2 ⟨⟨[], Nat.le_refl 0, rfl⟩, rfl⟩))
    · exact ensures_bind.2 (ensures_throw.2 ⟨⟨[], Nat.le_refl 0, rfl⟩, rfl⟩)

theorem tells_greeting (model : Option String) : (Bringup.greeting model).TellsAtMost 2 := by
  have hNoModel : (Bringup.greeting none).TellsAtMost 1 := by
    refine tells_get_bind fun b => tells_when ?_
    cases b.stage.context.authentication with
    | notDone => exact tells_pure ()
    | failed => exact tells_note _ _
    | succeeded => exact tells_note _ _
  cases model with
  | some model => exact tells_note_bind hNoModel
  | none => exact hNoModel.mono (by decide)

theorem tells_openConsole : Bringup.openConsole.TellsAtMost 2 := by
  refine (tells_require .consoleUnavailable (asksPlain rfl)).seq fun node => ?_
  refine tells_guard (tells_throw _) ?_
  refine (tells_isProgrammerUart node.base).seq fun taken => tells_guard (tells_throw _) ?_
  split
  · refine (tells_require .consoleUnavailable (asksPlain rfl)).seq fun _ => ?_
    refine (tells_registerUart _ _ _).seq fun _ => ?_
    rw [Bringup.greet_eq]
    exact (tells_ask rfl).seq tells_greeting
  · exact tells_throw _

theorem tells_requireAuthentication : Bringup.requireAuthentication.TellsAtMost 1 := by
  refine tells_get_bind fun b => tells_when ((tells_ask rfl).seq fun closed => ?_)
  exact tells_when (tells_note_bind (tells_throw _))

theorem tells_selectConsole : Bringup.selectConsole.TellsAtMost 3 := by
  refine tells_outcome_bind (m := 1) tells_openConsole fun outcome => ?_
  refine tells_requireAuthentication.bind (m := 0) fun _ => ?_
  cases outcome with
  | ok _ => exact tells_pure ()
  | error stop => exact tells_throw stop

theorem tells_startWatchdog : Bringup.startWatchdog.TellsAtMost 0 :=
  (tells_require .watchdogInitFailed (asksPlain rfl)).seq fun _ => tells_ask rfl

theorem tells_saveBootInterface : Bringup.saveBootInterface.TellsAtMost 0 :=
  tells_get_bind fun _ => tells_require .contextSaveFailed (asksPlain rfl)

theorem ResetReason.length_lines_le (status : Flags ResetFlag) (reason : ResetReason) :
    (ResetReason.lines status reason).length ≤ 2 := by
  unfold lines
  split <;> simp

theorem tells_reportResetReason : Bringup.reportResetReason.TellsAtMost 2 := by
  refine (tells_ask rfl).seq fun status b => ensures_modify.2 ⟨?_, (Bool.or_false _).symm⟩
  have hLines := ResetReason.length_lines_le ⟨status⟩ (.ofStatus ⟨status⟩)
  exact ⟨_, Nat.le_trans (Nat.le_of_eq (List.length_map _)) hLines,
    Log.Ring.recordAll_eq_tell _ _ _⟩

/-- The second log is the first with at most one line more. -/
def AddsLine (log log' : Log.Ring) : Prop :=
  ∃ lines : List Line, lines.length ≤ 1 ∧ log' = log.tell lines

theorem AddsLine.none (log : Log.Ring) : AddsLine log log := ⟨[], Nat.zero_le 1, rfl⟩

theorem AddsLine.one (log : Log.Ring) (level : Log.Level) (source : String)
    (pieces : List String) : AddsLine log (log.record level source pieces) :=
  ⟨[⟨level, source, pieces⟩], Nat.le_refl 1, rfl⟩

theorem addsLine_of_runs_record {r : Counter.Reading} {target : UInt32} {log log' : Log.Ring}
    {t : List Exchange} {result : Except Error Counter.Outcome}
    (h : Runs (Counter.record r target log) t (result, log')) : AddsLine log log' := by
  obtain ⟨reply, _, _, -, hRest, -⟩ := runs_seq_iff.1 h
  cases reply with
  | error fault =>
    obtain ⟨-, hEq⟩ := runs_pure_iff.1 hRest
    cases hEq
    exact .one _ _ _ _
  | ok _ =>
    obtain ⟨word, _, _, -, hLast, -⟩ := runs_seq_iff.1 hRest
    cases word with
    | error fault =>
      obtain ⟨-, hEq⟩ := runs_pure_iff.1 hLast
      cases hEq
      exact .none log
    | ok written =>
      dsimp only at hLast
      split at hLast
      all_goals
        obtain ⟨-, hEq⟩ := runs_pure_iff.1 hLast
        cases hEq
        exact .one _ _ _ _

theorem addsLine_of_runs_enforce {version : FirmwareVersion} {log log' : Log.Ring}
    {t : List Exchange} {result : Except Error Counter.Outcome}
    (h : Runs (Counter.enforce version log) t (result, log')) : AddsLine log log' := by
  obtain ⟨reading, _, _, -, hRest, -⟩ := runs_seq_iff.1 h
  cases reading with
  | error e =>
    obtain ⟨-, hEq⟩ := runs_pure_iff.1 hRest
    cases hEq
    exact .none log
  | ok r =>
    dsimp only at hRest
    split at hRest
    · obtain ⟨-, hEq⟩ := runs_pure_iff.1 hRest
      cases hEq
      exact .one _ _ _ _
    · split at hRest
      · obtain ⟨-, hEq⟩ := runs_pure_iff.1 hRest
        cases hEq
        exact .none log
      · exact addsLine_of_runs_record hRest

theorem Step.Asks.plain {s : Step} {q : Request} (h : s.Asks q) (hOther : s ≠ .console) :
    q.Plain := by
  cases h <;> first | rfl | exact absurd rfl hOther

theorem tells_enforceVersion : Bringup.enforceVersion.TellsAtMost 1 := by
  intro b
  refine ensures_get_bind.2 (ensures_lift_bind.2 fun t ⟨result, log⟩ hRuns => ?_)
  have hAsks : ∀ e ∈ t, e.request.Plain := fun e he =>
    (asksOnly_enforce _ _ t _ hRuns e he).plain (by decide)
  obtain ⟨lines, hLength, hLog⟩ := addsLine_of_runs_enforce hRuns
  have hTold : Tells 1 b t (b.withLog log) :=
    ⟨⟨lines, hLength, hLog⟩, (Tells.of_same (n := 0) rfl rfl hAsks).console⟩
  refine ensures_modify_bind.2 ?_
  have hRest : (Action.ofExcept result >>= fun counter => modify fun b =>
      { b with report := { b.report with counter := some counter } } : Action Unit).TellsAtMost 0 :=
    (tells_ofExcept result).seq fun _ => tells_modify (fun _ => rfl) (fun _ => rfl)
  exact Ensures.mono (hRest _) fun t' _ d hTells => hTold.append hTells

theorem tells_refreshPmic : Bringup.refreshPmic.TellsAtMost 1 := by
  refine (tells_ask rfl).seq fun present => tells_when ?_
  refine (tells_require .pmicStatusUnavailable (asksPlain rfl)).seq fun _ => ?_
  exact (tells_require .pmicStatusUnavailable (asksPlain rfl)).seq fun _ => tells_note _ _

theorem tells_setUpIo : Bringup.setUpIo.TellsAtMost 0 := by
  refine tells_get_bind fun b => ?_
  have hOpen : ∀ resident : Bool, (if ¬ resident then
      Action.require (Board.openImageSource b.stage.bootDevice) .ioSetupFailed
      else pure () : Action Unit).TellsAtMost 0 := fun _ =>
    tells_when (tells_require .ioSetupFailed (asksPlain rfl))
  split
  · exact (tells_ask rfl).seq hOpen
  · exact (tells_pure false).seq hOpen

theorem tells_probeDram : Bringup.probeDram.TellsAtMost 1 := by
  refine (tells_require .dramInitFailed (asksPlain rfl)).seq fun _ => ?_
  refine (tells_ask rfl).seq fun restored => ?_
  split
  · exact tells_note _ _
  · refine (tells_ask rfl).seq fun _ => (tells_ask rfl).seq fun _ => ?_
    refine (tells_ask rfl).seq fun _ => (tells_ask rfl).seq fun _ => ?_
    exact tells_when (tells_require .pmicError (asksPlain rfl))

theorem tells_mapDram : Bringup.mapDram.TellsAtMost 0 := by
  refine (tells_ask rfl).seq fun size => tells_guard (tells_throw _) fun b => ?_
  refine ensures_get_bind.2 (ensures_lift_bind.2 fun t ⟨result, memoryMap⟩ hRuns => ?_)
  have hAsks := Program.asksOnly_addDynamic (S := Request.Plain) rfl t _ hRuns
  have hAsked : Tells 0 b t b := .of_same rfl rfl hAsks
  exact Ensures.mono (ensures_set_bind (n := 0) rfl rfl (tells_ofExcept result))
    fun t' _ d hTells => hAsked.append hTells

/-- The banner as lines. -/
def DebugAccess.bannerLines : List Line :=
  banner.map fun line => ⟨.notice, Log.stageSource, [line]⟩

theorem DebugAccess.warn_eq_tell (log : Log.Ring) : warn log = log.tell bannerLines := by
  unfold warn bannerLines
  rw [Log.Ring.recordAll_eq_tell, List.map_map]
  rfl

theorem log_withLog (b : Bringup) (log : Log.Ring) : (b.withLog log).stage.log = log := rfl

theorem log_note (b : Bringup) (level : Log.Level) (pieces : List String) :
    (b.note level pieces).stage.log = b.stage.log.tell [⟨level, Log.stageSource, pieces⟩] := rfl

theorem log_degrade (b : Bringup) (step : Step) (e : Error) : (b.degrade step e).stage.log =
    b.stage.log.tell [⟨.warning, Log.stageSource, [step.name, ": ", e.message]⟩] := rfl

/-- The exchanges show debug access to a device that is locked for production. -/
def LockedButOpen (t : List Exchange) : Prop :=
  (∃ features, ⟨.debugFeatures, features⟩ ∈ t ∧ features.isEmpty = false) ∧
    ∀ closed, ⟨.isClosedDevice, closed⟩ ∈ t → closed = true

/-- At most fourteen lines are told, and the banner is among them if debug access is open to a locked
device. -/
theorem ensures_applyDebugPolicy (b : Bringup) :
    Ensures Bringup.applyDebugPolicy b fun t _ c => ∃ lines : List Line, lines.length ≤ 14 ∧
      c.stage.log = b.stage.log.tell lines ∧ c.stage.console = b.stage.console ∧
      (LockedButOpen t → DebugAccess.bannerLines <:+: lines) := by
  refine ensures_lift_bind.2 fun t₁ features h₁ => ensures_lift_bind.2 fun t₂ closed h₂ => ?_
  obtain rfl := runs_ask_iff.1 h₁
  obtain rfl := runs_ask_iff.1 h₂
  refine ensures_modify_bind.2 ?_
  dsimp only
  -- Whatever came of the freeze, the banner comes last.
  have hWarn : ∀ (c : Bringup) (t : List Exchange) (lines : List Line), lines.length ≤ 2 →
      c.stage.log = b.stage.log.tell lines → c.stage.console = b.stage.console →
      Ensures (if closed = true then modify fun b => b.withLog (DebugAccess.warn b.stage.log)
        else pure () : Action Unit) c fun t' _ d => ∃ lines : List Line, lines.length ≤ 14 ∧
          d.stage.log = b.stage.log.tell lines ∧ d.stage.console = b.stage.console ∧
          (LockedButOpen ([⟨.debugFeatures, features⟩] ++ ([⟨.isClosedDevice, closed⟩] ++
            (t ++ t'))) → DebugAccess.bannerLines <:+: lines) := by
    intro c t lines hLength hLog hConsole
    split
    · refine ensures_modify.2 ⟨lines ++ DebugAccess.bannerLines, ?_, ?_, hConsole, fun _ => ?_⟩
      · rw [List.length_append]
        show lines.length + 12 ≤ 14
        omega
      · rw [Log.Ring.tell_append, ← hLog, ← DebugAccess.warn_eq_tell, log_withLog]
      · exact (List.suffix_append lines _).isInfix
    · next hOpen =>
      refine ensures_pure.2 ⟨lines, Nat.le_trans hLength (by decide), hLog, hConsole, ?_⟩
      intro hLocked
      exact absurd (hLocked.2 closed (by simp)) hOpen
  split
  · refine ensures_lift_bind.2 fun t₃ reply h₃ => ?_
    cases reply with
    | ok _ => exact hWarn _ t₃ [] (Nat.zero_le 2) rfl rfl
    | error fault =>
      let told : List Line := [⟨.info, Log.stageSource, ["IWDG2 freeze error : ", fault.message]⟩,
        ⟨.warning, Log.stageSource, [Step.debugPolicy.name, ": ", Error.debugFreezeFailed.message]⟩]
      refine ensures_modify_bind.2 (ensures_modify_bind.2 (hWarn _ t₃ told (Nat.le_refl 2) ?_ rfl))
      rw [log_degrade, log_note]
      rfl
  · next hClosed =>
    refine ensures_pure.2 ⟨[], Nat.zero_le 14, rfl, rfl, ?_⟩
    rintro ⟨⟨features', hMem, hFeatures⟩, -⟩
    rcases List.mem_cons.1 hMem with hEq | hMem
    · cases hEq
      rw [hFeatures] at hClosed
      exact absurd rfl hClosed
    · rcases List.mem_cons.1 hMem with hEq | hMem
      · cases hEq
      · cases hMem

/-- Lines that the action of a step can tell. -/
def Step.lines : Step → Nat
  | .console => 3
  | .debugPolicy => 14
  | .resetReason => 2
  | .operatingPoint | .antiRollback | .pmicRefresh | .dramProbe => 1
  | _ => 0

theorem tells_action {s : Step} (hOther : s ≠ .debugPolicy) : s.action.TellsAtMost s.lines := by
  cases s with
  | fuseProbe => exact tells_require .fuseProbeFailed (asksPlain rfl)
  | memoryProtection => exact tells_protectMemory
  | configTree => exact tells_require .configTreeInvalid (asksPlain rfl)
  | powerDomain => exact tells_normalizePowerDomain
  | clockTree => exact tells_setUpClockTree
  | operatingPoint => exact tells_selectOperatingPoint
  | console => exact tells_selectConsole
  | watchdog => exact tells_startWatchdog
  | debugPolicy => exact absurd rfl hOther
  | bootInterface => exact tells_saveBootInterface
  | securityPartition => exact tells_require .securityPartitionFailed (asksPlain rfl)
  | resetReason => exact tells_reportResetReason
  | antiRollback => exact tells_enforceVersion
  | pmicRefresh => exact tells_refreshPmic
  | ioSetup => exact tells_setUpIo
  | dramProbe => exact tells_probeDram
  | dramMapping => exact tells_mapDram
  | prepareExit => exact tells_require .securityPartitionFailed (asksPlain rfl)

/-- What is left of `b` by the action of a step. -/
structure Step.Informs (s : Step) (b : Bringup) (t : List Exchange) (c : Bringup) : Prop where
  lines : ∃ lines : List Line, lines.length ≤ s.lines ∧ c.stage.log = b.stage.log.tell lines ∧
    (LockedButOpen t → DebugAccess.bannerLines <:+: lines)
  console : c.stage.console.isFilled = (b.stage.console.isFilled || t.any (·.registersConsole))

theorem Step.eq_debugPolicy_of_asks_debugFeatures {s : Step} (h : s.Asks .debugFeatures) :
    s = .debugPolicy := by
  cases h
  rfl

theorem Step.informs {s : Step} {b c : Bringup} {t : List Exchange} {x : Except Stop Unit}
    (h : Runs (s.action.run.run b) t (x, c)) : s.Informs b t c := by
  have hAsks := (stays_action s b t x c h).asks
  by_cases hPolicy : s = .debugPolicy
  · subst hPolicy
    obtain ⟨lines, hLength, hLog, hConsole, hBanner⟩ := ensures_applyDebugPolicy b t x c h
    have hPlain : ∀ e ∈ t, e.request.Plain := fun e he => (hAsks e he).plain (by decide)
    refine ⟨⟨lines, hLength, hLog, hBanner⟩, ?_⟩
    have hSame : Tells 0 c t c := .of_same rfl rfl hPlain
    rw [← hConsole]
    exact hSame.console
  · obtain ⟨⟨lines, hLength, hLog⟩, hConsole⟩ := tells_action hPolicy b t x c h
    refine ⟨⟨lines, hLength, hLog, ?_⟩, hConsole⟩
    rintro ⟨⟨features, hMem, -⟩, -⟩
    exact absurd (Step.eq_debugPolicy_of_asks_debugFeatures (hAsks _ hMem)) hPolicy

end BootStage
