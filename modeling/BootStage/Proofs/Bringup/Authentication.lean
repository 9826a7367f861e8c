import BootStage.Proofs.Bringup.Sessions

/-!
# Locked devices and stages that do not authenticate

Whether a device is locked is asked in the step of the console, after the console was tried and
whatever came of that (`ensures_selectConsole`).  No step builds on the console, so that a locked
device goes no further rests on the order of the architecture phase: a step is attempted there only
after all steps before it have succeeded (`Course.succeeded_before`).

    closed device, no authentication →
      the console never completes, and no step of the architecture phase after it is attempted
                                                          (locked_device_stops_at_console)
-/

namespace BootStage

/-! ## The check in the console step -/

namespace Bringup

variable {b : Bringup}

/-- A stage that does not authenticate images asks once, and a locked device is refused. -/
theorem ensures_requireAuthentication (hUntrusted : b.config.trustedBoardBoot = false) :
    Ensures requireAuthentication b fun t x _ => ∃ closed : Bool,
      t = [⟨.isClosedDevice, closed⟩] ∧
        x = if closed then .error (.failed .authenticationRequired) else .ok () := by
  have hAsks : ¬ b.config.trustedBoardBoot = true := by
    rw [hUntrusted]
    exact Bool.false_ne_true
  refine ensures_get_bind.2 ?_
  rw [if_pos hAsks]
  refine ensures_lift_bind.2 fun t closed hRuns => ?_
  rw [runs_ask_iff.1 hRuns]
  cases closed with
  | true => exact ensures_modify_bind.2 (ensures_throw.2 ⟨true, rfl, rfl⟩)
  | false => exact ensures_pure.2 ⟨false, rfl, rfl⟩

/-- The device is asked about after the console was tried, whatever came of that.  What came of it
counts only if the device is open. -/
theorem ensures_selectConsole (hUntrusted : b.config.trustedBoardBoot = false) :
    Ensures selectConsole b fun t x _ => ∃ opening ended c, ∃ closed : Bool,
      Runs (openConsole.run.run b) opening (ended, c) ∧
        t = opening ++ [⟨.isClosedDevice, closed⟩] ∧
          x = if closed then .error (.failed .authenticationRequired) else ended := by
  refine Action.ensures_outcome_bind.2 fun opening ended c hOpening => ?_
  have hConfig : c.config = b.config :=
    (stays_openConsole b opening ended c hOpening).changes.config
  refine ensures_bind.2 ?_
  refine (ensures_requireAuthentication (hConfig ▸ hUntrusted)).mono ?_
  rintro t x d ⟨closed, rfl, rfl⟩
  cases closed with
  | true => exact ⟨opening, ended, c, true, hOpening, rfl, rfl⟩
  | false =>
    cases ended with
    | ok _ => exact ensures_pure.2 ⟨opening, .ok (), c, false, hOpening, rfl, rfl⟩
    | error stop => exact ensures_throw.2 ⟨opening, .error stop, c, false, hOpening, rfl, rfl⟩

end Bringup

/-! ## Attempts at the console -/

namespace Attempt

variable {a : Attempt}

/-- The console was tried, then the device was asked about and found locked, and the step failed for
that, whatever had come of the console. -/
def FailsLocked (a : Attempt) : Prop :=
  ∃ started opening ended c printed,
    Runs (Bringup.openConsole.run.run { a.before with ledger := started }) opening (ended, c) ∧
      a.exchanges = opening ++ ⟨.isClosedDevice, true⟩ :: printed ∧
        (∀ e ∈ printed, e.request.isEmit = true) ∧
          a.result = .error (.fatal ⟨.console, .authenticationRequired⟩)

/-- No exchange of the attempt tells of an open device. -/
def FindsClosed (a : Attempt) : Prop :=
  ∀ closed : Bool, (⟨.isClosedDevice, closed⟩ : Exchange) ∈ a.exchanges → closed = true

theorem Genuine.failsLocked (h : a.Genuine) (hStep : a.step = .console)
    (hExecutes : a.executes = true) (hUntrusted : a.before.config.trustedBoardBoot = false)
    (hClosed : a.FindsClosed) : a.FailsLocked := by
  obtain ⟨started, acted, printed, x, d, hActed⟩ := h.acted_of_executes hExecutes
  have hRuns := hActed.runs
  have hConcludes := hActed.concludes
  rw [hStep] at hRuns hConcludes
  obtain ⟨opening, ended, c, closed, hOpening, rfl, rfl⟩ :=
    Bringup.ensures_selectConsole (b := { a.before with ledger := started }) hUntrusted
      acted x d hRuns
  have hAsked : a.exchanges = opening ++ ⟨.isClosedDevice, closed⟩ :: printed := by
    rw [hActed.exchanges, List.append_assoc]
    rfl
  have hLocked : closed = true := by
    apply hClosed
    rw [hAsked]
    exact List.mem_append_right _ List.mem_cons_self
  subst hLocked
  obtain ⟨hResult, -⟩ := hConcludes.of_fatal rfl
  exact ⟨started, opening, ended, c, printed, hOpening, hAsked, hActed.prints, hResult⟩

/-- No attempt at the console succeeds: the ledger refuses it, or it fails on the locked device. -/
theorem Genuine.console_fails (h : a.Genuine) (hStep : a.step = .console)
    (hUntrusted : a.before.config.trustedBoardBoot = false) (hClosed : a.FindsClosed) :
    a.result ≠ .ok () := by
  intro hOk
  have hExecutes : a.executes = true := by
    have hAttempted := h.ledger
    rw [hOk] at hAttempted
    exact hAttempted.isOk_start
  obtain ⟨_, _, _, _, _, _, _, _, hResult⟩ := h.failsLocked hStep hExecutes hUntrusted hClosed
  rw [hOk] at hResult
  cases hResult

end Attempt

/-! ## What comes after the console -/

/-- The steps of the architecture phase after the console. -/
def Step.afterConsole : List Step := (Step.architecture.dropWhile (· ≠ .console)).tail

/-- What a locked device must not be asked to do for a stage that does not authenticate images:
start the watchdog, partition or seal the buses, burn a fuse, open the source of later images. -/
inductive Request.Guarded : Request → Prop
  | startWatchdog : Guarded .startWatchdog
  | partitionBuses : Guarded .partitionBuses
  | programFuse (value index : UInt32) : Guarded (.programFuse value index)
  | openImageSource (device : BootDevice) : Guarded (.openImageSource device)
  | sealBuses : Guarded .sealBuses

theorem Request.Guarded.isEmit {q : Request} (h : q.Guarded) : q.isEmit = false := by
  cases h <;> rfl

/-- What is guarded is asked for after the console only. -/
theorem Step.Asks.after_console {s : Step} {q : Request} (h : s.Asks q) (hGuarded : q.Guarded) :
    s ∈ Step.afterConsole ∨ s = .prepareExit := by
  cases hGuarded <;> cases h <;> decide

/-- A call that attempts a step after the console attempts the console before that. -/
theorem Call.console_mem_before {call : Call} {before after : List Step} {s : Step}
    (hSteps : call.steps = before ++ s :: after) (hs : s ∈ Step.afterConsole) :
    .console ∈ before := by
  have hNodup : call.steps.Nodup := by cases call <;> decide
  have hEarly : ∀ q ∈ Step.afterConsole, q ∈ call.steps →
      .console ∈ call.steps.takeWhile (· ≠ q) := by cases call <;> decide
  rw [eq_takeWhile_of_eq_append hNodup hSteps]
  apply hEarly s hs
  rw [hSteps]
  exact List.mem_append_right _ List.mem_cons_self

section Locked

variable {b c : Bringup} {calls : List Call} {attempts : List Attempt}

/-- If no attempt at the console succeeds, no step after it is attempted. -/
theorem Session.not_after_console (h : Session b calls attempts c)
    (hFails : ∀ x ∈ attempts, x.step = .console → x.result ≠ .ok ()) :
    ∀ x ∈ attempts, x.step ∉ Step.afterConsole := by
  intro x hx hAfter
  obtain ⟨call, before, after, hSteps, hBefore⟩ := h.succeeded_before hx
  obtain ⟨y, hy, hStep, hOk⟩ := hBefore .console (Call.console_mem_before hSteps hAfter)
  exact hFails y hy hStep hOk

/-- If no attempt at the console succeeds, neither the console nor a step after it completes. -/
theorem Session.console_incomplete (h : Session b calls attempts c)
    (hFails : ∀ x ∈ attempts, x.step = .console → x.result ≠ .ok ())
    (hFresh : b.ledger.completed = []) {s : Step} (hs : s ∈ .console :: Step.afterConsole) :
    s ∉ c.ledger.completed := by
  intro hCompleted
  rcases h.path.completed_by hCompleted with hOld | ⟨x, hx, rfl, hOk⟩
  · rw [hFresh] at hOld
    cases hOld
  · rcases List.mem_cons.1 hs with hConsole | hAfter
    · exact hFails x hx hConsole hOk
    · exact h.not_after_console hFails x hx hAfter

/-- If no attempt at the console succeeds, the exit is not executed. -/
theorem Session.exit_not_executed (h : Session b calls attempts c)
    (hFails : ∀ x ∈ attempts, x.step = .console → x.result ≠ .ok ())
    (hFresh : b.ledger.completed = []) {x : Attempt} (hx : x ∈ attempts)
    (hStep : x.step = .prepareExit) : x.executes = false := by
  refine eq_false_of_ne_true fun hExecutes => ?_
  obtain ⟨earlier, later, rfl, hEarlier, hGenuine, -⟩ := h.path.split_at_mem hx
  obtain ⟨-, -, hPrerequisites⟩ := hGenuine.ledger.starts hExecutes
  rw [hStep] at hPrerequisites
  -- The exit builds on the IO setup, which is never attempted.
  have hIo : .ioSetup ∈ x.before.ledger.completed := hPrerequisites .ioSetup (by decide)
  rcases hEarlier.completed_by hIo with hOld | ⟨y, hy, hIoStep, -⟩
  · rw [hFresh] at hOld
    cases hOld
  · refine h.not_after_console hFails y (List.mem_append_left _ hy) ?_
    rw [hIoStep]
    decide

/-- If no attempt at the console succeeds, nothing guarded is asked for. -/
theorem Session.not_guarded (h : Session b calls attempts c)
    (hFails : ∀ x ∈ attempts, x.step = .console → x.result ≠ .ok ())
    (hFresh : b.ledger.completed = []) :
    ∀ x ∈ attempts, ∀ e ∈ x.exchanges, ¬ e.request.Guarded := by
  intro x hx e he hGuarded
  obtain ⟨hExecutes, hAsks⟩ := (h.path.genuine_of_mem hx).asks_of_mem he hGuarded.isEmit
  rcases hAsks.after_console hGuarded with hAfter | hExit
  · exact h.not_after_console hFails x hx hAfter
  · rw [h.exit_not_executed hFails hFresh hx hExit] at hExecutes
    cases hExecutes

end Locked

/-- If the stage does not authenticate images and the fuses always tell of a locked device, then
whatever calls are made on a fresh bring-up, and however the board answers otherwise: the console
and the steps of the architecture phase after it never complete, and the latter are not even
attempted; nothing guarded is asked of the board; and whenever the console step runs, it fails on
the locked device, whatever had come of the console. -/
theorem locked_device_stops_at_console {config : Config} {context : BootContext} {patience : Nat}
    {calls : List Call} {attempts : List Attempt} {b : Bringup}
    (h : Session (.fresh config context patience) calls attempts b)
    (hUntrusted : config.trustedBoardBoot = false)
    (hClosed : ∀ x ∈ attempts, x.FindsClosed) :
    (∀ s ∈ .console :: Step.afterConsole, s ∉ b.ledger.completed) ∧
    (∀ x ∈ attempts, x.step ∉ Step.afterConsole) ∧
    (∀ x ∈ attempts, ∀ e ∈ x.exchanges, ¬ e.request.Guarded) ∧
    ∀ x ∈ attempts, x.step = .console → x.executes = true → x.FailsLocked := by
  have hUntrustedAt : ∀ x ∈ attempts, x.before.config.trustedBoardBoot = false := by
    intro x hx
    obtain ⟨earlier, later, -, hEarlier, -, -⟩ := h.path.split_at_mem hx
    rw [hEarlier.config]
    exact hUntrusted
  have hFails : ∀ x ∈ attempts, x.step = .console → x.result ≠ .ok () := by
    intro x hx hStep
    exact (h.path.genuine_of_mem hx).console_fails hStep (hUntrustedAt x hx) (hClosed x hx)
  refine ⟨fun s hs => ?_, ?_, ?_, fun x hx hStep hExecutes => ?_⟩
  · exact h.console_incomplete hFails rfl hs
  · exact h.not_after_console hFails
  · exact h.not_guarded hFails rfl
  · exact (h.path.genuine_of_mem hx).failsLocked hStep hExecutes (hUntrustedAt x hx)
      (hClosed x hx)

/-- A stage that does not authenticate images. -/
def Config.unauthenticated : Config := { Config.standard with trustedBoardBoot := false }

/-- The calls of a boot that goes on after a failure. -/
def stubbornCalls : List Call := [.bringUp, .setUpPlatform, .prepareExit, .setUpArchitecture]

/-- On a locked board with a console, a stage that does not authenticate images registers the
console and fails on the locked device all the same. -/
theorem lockedBoard_stops_at_console :
    ∃ attempts b, Session (.fresh .unauthenticated usualContext 4) stubbornCalls attempts b ∧
      .operatingPoint ∈ b.ledger.completed ∧ .console ∉ b.ledger.completed ∧
      ∃ x ∈ attempts, x.FailsLocked ∧
        ∃ e ∈ x.exchanges, e.request = .registerConsole 0x40010000 0 115200 := by
  obtain ⟨attempts, hSession, hExchanges⟩ := exists_session lockedBoard () stubbornCalls
    (.fresh .unauthenticated usualContext 4)
  have hSupplied : .operatingPoint ∈ (((callAll stubbornCalls).run
      (.fresh .unauthenticated usualContext 4)).exec lockedBoard ()).1.2.ledger.completed := by
    decide +kernel
  have hRegistered : Request.registerConsole 0x40010000 0 115200 ∈ (((callAll stubbornCalls).run
      (.fresh .unauthenticated usualContext 4)).transcript lockedBoard ()).map (·.request) := by
    decide +kernel
  have hReplies : ∀ closed : Bool, (⟨.isClosedDevice, closed⟩ : Exchange) ∈
      attempts.flatMap (·.exchanges) → closed = true := by
    intro closed hMem
    rw [← hExchanges] at hMem
    obtain ⟨_, hReply⟩ := Program.reply_of_mem_transcript lockedBoard _ () hMem
    exact hReply
  rw [hExchanges] at hRegistered
  -- Only the ledger of the state that is left may be computed.
  generalize (((callAll stubbornCalls).run
      (.fresh .unauthenticated usualContext 4)).exec lockedBoard ()).1.2 = b at hSession hSupplied
  obtain ⟨hIncomplete, -, -, hLocked⟩ := locked_device_stops_at_console hSession rfl
    fun x hx closed hMem => hReplies closed (List.mem_flatMap.2 ⟨x, hx, hMem⟩)
  obtain ⟨e, he, hRequest⟩ := List.mem_map.1 hRegistered
  obtain ⟨x, hx, hMem⟩ := List.mem_flatMap.1 he
  obtain ⟨hExecutes, hAsks⟩ :=
    (hSession.path.genuine_of_mem hx).asks_of_mem hMem (by rw [hRequest]; rfl)
  rw [hRequest] at hAsks
  have hStep : x.step = .console := Step.eq_console_of_asks_registerConsole hAsks
  exact ⟨attempts, b, hSession, hSupplied, hIncomplete .console List.mem_cons_self, x, hx,
    hLocked x hx hStep hExecutes, e, hMem, hRequest⟩

end BootStage
