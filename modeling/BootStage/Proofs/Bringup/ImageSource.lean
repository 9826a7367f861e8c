import BootStage.Proofs.AntiRollback
import BootStage.Proofs.Bringup.ClockTree
import BootStage.Proofs.Bringup.Order

/-!
# The source of later images

The image source is opened by the last step of the architecture phase, which builds on the
partitioned buses and on the anti-rollback check, and through these on the clock tree.  So by then
the boot device was classified, and as its cell is filled once, by nobody else: had it been filled
from outside before, then the clock tree would have failed.

    clock tree completed → the boot device is the classified one     (Bringup.KnowsDevice)
    IO setup executed    → clock tree, buses and anti-rollback check completed
-/

namespace BootStage

def Request.opensImageSource : Request → Bool
  | .openImageSource _ => true
  | _ => false

theorem Step.eq_ioSetup_of_asks_openImageSource {s : Step} {q : Request} (h : s.Asks q)
    (hOpens : q.opensImageSource = true) : s = .ioSetup := by
  cases h <;> first | rfl | cases hOpens

namespace Bringup

/-- What is asked to open the image source on `device`. -/
inductive OpensSource (config : Config) (device : BootDevice) : List Exchange → Prop
  | resident : config.teeWindows = .dramTop →
      OpensSource config device [⟨.isDramRestored, true⟩]
  | lost (reply : Except DriverFault Unit) : config.teeWindows = .dramTop →
      OpensSource config device [⟨.isDramRestored, false⟩, ⟨.openImageSource device, reply⟩]
  | fixed (reply : Except DriverFault Unit) : config.teeWindows ≠ .dramTop →
      OpensSource config device [⟨.openImageSource device, reply⟩]

theorem ensures_partitionBuses {b : Bringup} :
    Ensures partitionBuses b fun t x _ => ∃ reply, t = [⟨.partitionBuses, reply⟩] ∧
      x = reply.mapError fun _ => .failed .securityPartitionFailed :=
  Action.ensures_require.2 fun _ reply hRuns => ⟨reply, runs_ask_iff.1 hRuns, rfl⟩

theorem ensures_setUpIo {b : Bringup} :
    Ensures setUpIo b fun t _ _ => OpensSource b.config b.stage.bootDevice t := by
  refine ensures_get_bind.2 ?_
  split
  · next hTop =>
    refine ensures_lift_bind.2 fun t restored hRuns => ?_
    obtain rfl := runs_ask_iff.1 hRuns
    cases restored with
    | true => exact ensures_pure.2 (.resident hTop)
    | false =>
      refine Action.ensures_require.2 fun t reply hOpen => ?_
      obtain rfl := runs_ask_iff.1 hOpen
      exact .lost reply hTop
  · next hFixed =>
    refine ensures_bind.2 (ensures_pure.2 (Action.ensures_require.2 fun t reply hOpen => ?_))
    obtain rfl := runs_ask_iff.1 hOpen
    exact .fixed reply hFixed

end Bringup

/-! ## The attempts that count -/

namespace Attempt

variable {a : Attempt}

theorem Genuine.opensSource (h : a.Genuine) (hStep : a.step = .ioSetup)
    (hExecutes : a.executes = true) :
    ∃ t printed, a.exchanges = t ++ printed ∧ (∀ e ∈ printed, e.request.isEmit = true) ∧
      Bringup.OpensSource a.before.config a.before.stage.bootDevice t := by
  obtain ⟨started, acted, printed, x, c, hActed⟩ := h.acted_of_executes hExecutes
  exact ⟨acted, printed, hActed.exchanges, hActed.prints,
    (hActed.ensured hStep fun _ => Bringup.ensures_setUpIo).1⟩

theorem countP_opensImageSource_of_prints {t : List Exchange}
    (h : ∀ e ∈ t, e.request.isEmit = true) :
    t.countP (·.request.opensImageSource) = 0 := by
  rw [List.countP_eq_zero]
  rintro ⟨q, reply⟩ he
  have hEmit := h _ he
  cases q <;> first | exact Bool.false_ne_true | cases hEmit

/-- One attempt opens the image source at most once. -/
theorem Genuine.countP_opensImageSource (h : a.Genuine) :
    a.exchanges.countP (·.request.opensImageSource) ≤
      if a.step = .ioSetup ∧ a.executes = true then 1 else 0 := by
  split
  · next hOpens =>
    obtain ⟨t, printed, hExchanges, hPrints, hSource⟩ := h.opensSource hOpens.1 hOpens.2
    rw [hExchanges, List.countP_append, countP_opensImageSource_of_prints hPrints]
    cases hSource <;> simp [Request.opensImageSource]
  · next hNot =>
    rw [Nat.le_zero, List.countP_eq_zero]
    intro e he hOpens
    have hSilent : e.request.isEmit = false := by
      obtain ⟨q, reply⟩ := e
      cases q <;> first | rfl | cases hOpens
    obtain ⟨hExecutes, hAsks⟩ := h.asks_of_mem he hSilent
    exact hNot ⟨Step.eq_ioSetup_of_asks_openImageSource hAsks hOpens, hExecutes⟩

/-- The source is opened on the boot device, and if it depends on what is left in DRAM, then nothing
is. -/
theorem Genuine.of_openImageSource (h : a.Genuine) {device : BootDevice}
    {reply : Except DriverFault Unit} (he : ⟨.openImageSource device, reply⟩ ∈ a.exchanges) :
    a.step = .ioSetup ∧ a.executes = true ∧ device = a.before.stage.bootDevice ∧
      (a.before.config.teeWindows = .dramTop → ∃ after, a.exchanges =
        ⟨.isDramRestored, false⟩ :: ⟨.openImageSource device, reply⟩ :: after) := by
  obtain ⟨hExecutes, hAsks⟩ := h.asks_of_mem he rfl
  have hStep := Step.eq_ioSetup_of_asks_openImageSource hAsks rfl
  obtain ⟨t, printed, hExchanges, hPrints, hSource⟩ := h.opensSource hStep hExecutes
  refine ⟨hStep, hExecutes, ?_⟩
  rw [hExchanges] at he ⊢
  have hMem := (List.mem_append.1 he).resolve_right fun hMem => by cases hPrints _ hMem
  cases hSource with
  | resident _ => simp at hMem
  | lost reply' _ =>
    obtain ⟨rfl, rfl⟩ : _ ∧ _ := by simpa using hMem
    exact ⟨rfl, fun _ => ⟨printed, rfl⟩⟩
  | fixed reply' hFixed =>
    obtain ⟨rfl, rfl⟩ : _ ∧ _ := by simpa using hMem
    exact ⟨rfl, fun hTop => absurd hTop hFixed⟩

/-- The step succeeds only if the buses were partitioned. -/
theorem Genuine.partitionBuses_of_ok (h : a.Genuine) (hStep : a.step = .securityPartition)
    (hOk : a.result = .ok ()) : ⟨.partitionBuses, .ok ()⟩ ∈ a.exchanges := by
  have hLedger := h.ledger
  rw [hOk] at hLedger
  obtain ⟨started, acted, printed, x, c, hActed⟩ := h.acted_of_executes hLedger.isOk_start
  obtain ⟨⟨reply, rfl, rfl⟩, hConcludes⟩ :=
    hActed.ensured hStep fun _ => Bringup.ensures_partitionBuses
  cases reply with
  | ok _ => exact hActed.exchanges ▸ List.mem_cons_self
  | error fault =>
    rw [(hConcludes.of_fatal rfl).1] at hOk
    cases hOk

end Attempt

/-! ## The boot device -/

/-- Between calls, the hand-off stays what it is, and so does a boot device that was set. -/
def Stage.KeepsDevice (s s' : Stage) : Prop :=
  s'.context = s.context ∧ ∀ device, s.device.value? = some device → s'.device.value? = some device

theorem Stage.keepsDevice_of_setBootDevice {s s' : Stage} {device : BootDevice}
    (h : s.setBootDevice device = .ok s') : s.KeepsDevice s' := by
  obtain ⟨cell, hFill, rfl⟩ := setBootDevice_eq_ok_iff.1 h
  refine ⟨rfl, fun device' hSet => ?_⟩
  rw [(OnceCell.fill_eq_ok_iff.1 hFill).1] at hSet
  cases hSet

namespace Bringup

/-- Once the clock tree has completed, the boot device is the one that the hand-off is classified
to. -/
def KnowsDevice (b : Bringup) : Prop :=
  .clockTree ∈ b.ledger.completed →
    b.stage.device.value? = some (classifiedDevice b.config b.stage.context)

theorem KnowsDevice.revised {b : Bringup} {stage : Stage} (h : b.KnowsDevice)
    (hKeeps : b.stage.KeepsDevice stage) : KnowsDevice { b with stage } := by
  intro hCompleted
  show stage.device.value? = some (classifiedDevice b.config stage.context)
  rw [hKeeps.1]
  exact hKeeps.2 _ (h hCompleted)

end Bringup

theorem Attempt.Genuine.knowsDevice {a : Attempt} (h : a.Genuine)
    (hBacked : a.before.ledger.Backed) (hKnows : a.before.KnowsDevice) : a.after.KnowsDevice := by
  intro hCompleted
  rw [h.config, h.stage_kept.1]
  rcases h.ledger.completed_by hCompleted with hEarlier | ⟨hStep, hOk⟩
  · -- A step that has completed has started, so it is not executed again.
    rw [h.device_kept fun hStep => eq_false_of_ne_true fun hExecutes => ?_]
    · exact hKnows hEarlier
    · have hNew := (h.ledger.starts hExecutes).1
      rw [hStep] at hNew
      exact hNew (hBacked _ hEarlier)
  · exact h.device_of_ok hStep.symm hOk

namespace Path

variable {b c : Bringup} {attempts : List Attempt}

theorem knowsDevice (h : Path Stage.KeepsDevice b attempts c) (hBacked : b.ledger.Backed)
    (hKnows : b.KnowsDevice) : c.KnowsDevice :=
  (h.preserves (I := fun b => b.ledger.Backed ∧ b.KnowsDevice)
    (fun _ _ hKeeps hb => ⟨hb.1, hb.2.revised hKeeps⟩)
    (fun _ ha hBefore => ⟨ha.ledger.backed hBefore.1, ha.knowsDevice hBefore.1 hBefore.2⟩)
    ⟨hBacked, hKnows⟩).2

theorem context_of_keepsDevice (h : Path Stage.KeepsDevice b attempts c) :
    c.stage.context = b.stage.context :=
  h.preserves (I := fun d => d.stage.context = b.stage.context)
    (fun _ _ hKeeps hd => hKeeps.1.trans hd) (fun _ ha hBefore => ha.stage_kept.1.trans hBefore) rfl

end Path

/-- The image source is opened by executed attempts at its step only, and by each of them once. -/
theorem countP_opensImageSource_le {attempts : List Attempt}
    (h : ∀ x ∈ attempts, x.Genuine) :
    (attempts.flatMap (·.exchanges)).countP (·.request.opensImageSource) ≤
      (executed attempts).count .ioSetup := by
  induction attempts with
  | nil => exact Nat.le_refl 0
  | cons a attempts ih =>
    have hFirst := (h a List.mem_cons_self).countP_opensImageSource
    have hRest := ih fun x hx => h x (List.mem_cons_of_mem a hx)
    have hCount : (executed (a :: attempts)).count .ioSetup =
        (if a.step = .ioSetup ∧ a.executes = true then 1 else 0) +
          (executed attempts).count .ioSetup := by
      cases hExecutes : a.executes <;> simp [executed, hExecutes, List.count_cons, Nat.add_comm]
    rw [List.flatMap_cons, List.countP_append, hCount]
    exact Nat.add_le_add hFirst hRest

/-- The image source is opened once, and for the right device.  Whatever calls are made on a fresh
bring-up, whatever boot device is set in between, and however the board answers: it is opened at
most once, after the buses were partitioned and the anti-rollback check succeeded; if the TEE lives
at the top of DRAM, right after the board told that DRAM was lost; and on the USB programmer if that
is supported and the ROM was talked to over it, on the board's own storage otherwise. -/
theorem imageSource_opened_once {config : Config} {context : BootContext} {patience : Nat}
    {calls : List Call} {attempts : List Attempt} {b : Bringup}
    (h : Course Stage.KeepsDevice (.fresh config context patience) calls attempts b) :
    (attempts.flatMap (·.exchanges)).countP (·.request.opensImageSource) ≤ 1 ∧
    ∀ earlier x later, attempts = earlier ++ x :: later →
      ∀ device reply, ⟨.openImageSource device, reply⟩ ∈ x.exchanges →
        (∃ y ∈ earlier, ⟨.partitionBuses, .ok ()⟩ ∈ y.exchanges) ∧
        (∃ y ∈ earlier, ∃ checked log outcome log', checked <+: y.exchanges ∧
          Runs (Counter.enforce config.firmwareVersion log) checked (.ok outcome, log')) ∧
        (config.teeWindows = .dramTop → ∃ after, x.exchanges =
          ⟨.isDramRestored, false⟩ :: ⟨.openImageSource device, reply⟩ :: after) ∧
        device = if config.usbProgrammer ∧ context.isSerialUsb then .usb else .board := by
  refine ⟨?_, ?_⟩
  · have hCount := countP_opensImageSource_le fun x hx => h.path.genuine_of_mem hx
    exact Nat.le_trans hCount
      (List.nodup_iff_count_le_one.1 h.path.executed_nodup.1 _)
  · rintro earlier x later rfl device reply he
    obtain ⟨hEarlier, hGenuine, -⟩ := h.path.split
    obtain ⟨hStep, hExecutes, hDevice, hSource⟩ := hGenuine.of_openImageSource he
    obtain ⟨-, -, hPrerequisites⟩ := hGenuine.ledger.starts hExecutes
    rw [hStep] at hPrerequisites
    have hConfig : x.before.config = config := hEarlier.config
    -- Every step that has completed did so in an earlier attempt.
    have hCompletes : ∀ s ∈ x.before.ledger.completed,
        ∃ y ∈ earlier, y.step = s ∧ y.result = .ok () := fun s hs =>
      (hEarlier.completed_by hs).resolve_left List.not_mem_nil
    have hFounded := hEarlier.founded Ledger.backed_empty Ledger.founded_empty
    refine ⟨?_, ?_, ?_, ?_⟩
    · obtain ⟨y, hy, hyStep, hOk⟩ := hCompletes .securityPartition (hPrerequisites _ (by decide))
      exact ⟨y, hy, (hEarlier.genuine_of_mem hy).partitionBuses_of_ok hyStep hOk⟩
    · obtain ⟨y, hy, hyStep, hOk⟩ := hCompletes .antiRollback (hPrerequisites _ (by decide))
      obtain ⟨_, _, -, hBefore, hyGenuine, -⟩ := hEarlier.split_at_mem hy
      obtain ⟨checked, log, outcome, log', hPrefix, hCheck⟩ := hyGenuine.checks_of_ok hyStep hOk
      rw [hBefore.config] at hCheck
      exact ⟨y, hy, checked, log, outcome, log', hPrefix, hCheck⟩
    · rw [← hConfig]
      exact hSource
    · -- The buses build on the debug policy, that on the watchdog, and that on the clock tree.
      have hBuses : .securityPartition ∈ x.before.ledger.completed := hPrerequisites _ (by decide)
      have hDebug : .debugPolicy ∈ x.before.ledger.completed := hFounded _ hBuses _ (by decide)
      have hWatchdog : .watchdog ∈ x.before.ledger.completed := hFounded _ hDebug _ (by decide)
      have hClocks : .clockTree ∈ x.before.ledger.completed := hFounded _ hWatchdog _ (by decide)
      have hKnown := hEarlier.knowsDevice Ledger.backed_empty nofun hClocks
      rw [hDevice, Stage.bootDevice, hKnown, hConfig, hEarlier.context_of_keepsDevice]
      rfl

/-- A TEE that lives at the top of DRAM. -/
def Config.topOfDram : Config := { Config.standard with teeWindows := .dramTop }

/-- Hand-off after the USB programmer was talked to. -/
def usbContext : BootContext := ⟨.serialUsb, 0, .succeeded⟩

/-- After a boot over USB the image source is opened on the USB programmer, once, although the
phases are called for again.  If somebody else has set the boot device before, then it is never
opened. -/
theorem imageSource_opened_on_usb_or_never :
    (∃ attempts b, Course Stage.KeepsDevice (.fresh .topOfDram usbContext 4)
        [.bringUp, .setUpArchitecture] attempts b ∧
      (attempts.flatMap (·.exchanges)).countP (·.request.opensImageSource) ≤ 1 ∧
      ∃ earlier x later, attempts = earlier ++ x :: later ∧
        (∃ y ∈ earlier, ⟨.partitionBuses, .ok ()⟩ ∈ y.exchanges) ∧
        ∃ after, x.exchanges =
          ⟨.isDramRestored, false⟩ :: ⟨.openImageSource .usb, .ok ()⟩ :: after) ∧
    ∃ attempts b, Course Stage.KeepsDevice (.fresh .topOfDram usbContext 4)
        [.bringUp, .setUpArchitecture] attempts b ∧
      ∀ e ∈ attempts.flatMap (·.exchanges), e.request.opensImageSource = false := by
  constructor
  · obtain ⟨attempts, hCourse, hExchanges⟩ := exists_course Stage.KeepsDevice
      (steadyBoard (usualReply 0)) () [.bringUp, .setUpArchitecture]
      (.fresh .topOfDram usbContext 4)
    obtain ⟨hOnce, hOpened⟩ := imageSource_opened_once hCourse
    have hMem : ⟨.openImageSource .usb, .ok ()⟩ ∈ attempts.flatMap (·.exchanges) := by
      rw [← hExchanges]
      exact (steady_transcript _ _).mem (q := .openImageSource .usb) (by decide +kernel)
    obtain ⟨x, hx, he⟩ := List.mem_flatMap.1 hMem
    obtain ⟨earlier, later, hSplit⟩ := List.append_of_mem hx
    obtain ⟨hBuses, -, hLost, -⟩ := hOpened earlier x later hSplit _ _ he
    exact ⟨attempts, _, hCourse, hOnce, earlier, x, later, hSplit, hBuses, hLost rfl⟩
  · obtain ⟨attempts, hCourse, hExchanges⟩ := exists_course Stage.KeepsDevice
      usualBoard 0 [.bringUp, .setUpArchitecture]
      { Bringup.fresh .topOfDram usbContext 4 with
        stage := { Stage.fresh usbContext .info with device := ⟨some .usb⟩ } }
    refine ⟨attempts, _, .revised _ ?_ hCourse, ?_⟩
    · have hSet : (Stage.fresh usbContext .info).setBootDevice .usb =
          .ok { Stage.fresh usbContext .info with device := ⟨some .usb⟩ } := rfl
      exact Stage.keepsDevice_of_setBootDevice hSet
    · rw [← hExchanges]
      decide +kernel

end BootStage
