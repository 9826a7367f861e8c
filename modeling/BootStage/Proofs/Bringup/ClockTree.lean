import BootStage.Proofs.Bringup.Attempts

/-!
# The step of the clock tree

Before the clock tree is probed, the UART that a serial programmer talks on is stopped, if its base
is known (`Bringup.StopsUart`), and the boot device is classified.  The classification fills a cell
that was empty, or the step fails (`Attempt.Classifies`); no other step fills it.
-/

namespace BootStage

namespace Bringup

/-- What is asked to stop the UART that a serial programmer talks on. -/
inductive StopsUart (config : Config) (stage : Stage) : List Exchange → Prop
  | alone : ¬ (config.uartProgrammer = true ∧ stage.context.isSerialUart = true) →
      StopsUart config stage []
  | unknown : config.uartProgrammer = true ∧ stage.context.isSerialUart = true →
      StopsUart config stage [⟨.uartBase stage.context.instanceIndex, none⟩]
  | stopped (base : UInt32) : config.uartProgrammer = true ∧ stage.context.isSerialUart = true →
      StopsUart config stage
        [⟨.uartBase stage.context.instanceIndex, some base⟩, ⟨.stopUart base, ()⟩]

variable {b : Bringup}

theorem ensures_stopProgrammerUart :
    Ensures stopProgrammerUart b fun t x c =>
      c = b ∧ x = .ok () ∧ StopsUart b.config b.stage t := by
  refine ensures_get_bind.2 ?_
  split
  · next hSerial =>
    refine ensures_lift_bind.2 fun t reply hRuns => ?_
    obtain rfl := runs_ask_iff.1 hRuns
    cases reply with
    | none => exact ensures_pure.2 ⟨rfl, rfl, .unknown hSerial⟩
    | some base =>
      refine ensures_lift.2 fun t _ hStop => ?_
      obtain rfl := runs_ask_iff.1 hStop
      exact ⟨rfl, rfl, .stopped base hSerial⟩
  · next hAlone => exact ensures_pure.2 ⟨rfl, rfl, .alone hAlone⟩

/-- The device is classified into an empty cell and the clock tree is probed, or the step fails. -/
inductive Classifies (config : Config) (stage : Stage) :
    List Exchange → Except Stop Unit → OnceCell BootDevice → Prop
  | classified {t : List Exchange} (reply : Except DriverFault Unit) :
      StopsUart config stage t → stage.device.value? = none →
      Classifies config stage (t ++ [⟨.probeClocks, reply⟩])
        (reply.mapError fun _ => .failed .clockInitFailed)
        ⟨some (classifiedDevice config stage.context)⟩
  | known {t : List Exchange} : StopsUart config stage t → stage.device.value? ≠ none →
      Classifies config stage t (.error (.failed .alreadyInitialized)) stage.device

theorem ensures_setUpClockTree :
    Ensures setUpClockTree b fun t x c => Classifies b.config b.stage t x c.stage.device := by
  refine ensures_bind.2 (ensures_stopProgrammerUart.mono ?_)
  rintro t _ b ⟨rfl, rfl, hStops⟩
  refine ensures_get_bind.2 ?_
  cases hValue : b.stage.device.value? with
  | none =>
    have hCell : b.stage.setBootDevice (classifiedDevice b.config b.stage.context) =
        .ok { b.stage with device := ⟨some (classifiedDevice b.config b.stage.context)⟩ } := by
      simp [Stage.setBootDevice, OnceCell.fill, hValue]
    rw [hCell]
    refine ensures_bind.2 (ensures_pure.2 (ensures_bind.2 (ensures_set.2 ?_)))
    refine Action.ensures_require.2 fun t' reply hRuns => ?_
    obtain rfl := runs_ask_iff.1 hRuns
    exact .classified reply hStops hValue
  | some device =>
    have hCell : b.stage.setBootDevice (classifiedDevice b.config b.stage.context) =
        .error .alreadyInitialized := by
      simp [Stage.setBootDevice, OnceCell.fill, hValue]
    have hFilled : b.stage.device.value? ≠ none := by
      rw [hValue]
      exact Option.some_ne_none _
    rw [hCell]
    refine ensures_bind.2 (ensures_throw.2 ?_)
    rw [List.append_nil]
    exact .known hStops hFilled

end Bringup

theorem Step.eq_clockTree_of_asks_stopUart {s : Step} {base : UInt32}
    (h : s.Asks (.stopUart base)) : s = .clockTree := by
  cases h
  rfl

namespace Attempt

variable {a : Attempt}

/-- An attempt that executes the step goes as the classification does. -/
theorem Genuine.classifies (h : a.Genuine) (hStep : a.step = .clockTree)
    (hExecutes : a.executes = true) :
    ∃ t printed x c, Bringup.Classifies a.before.config a.before.stage t x a.after.stage.device ∧
      a.exchanges = t ++ printed ∧ (∀ e ∈ printed, e.request.isEmit = true) ∧
      Bringup.Concludes .clockTree x c a.result a.after := by
  obtain ⟨started, acted, printed, x, c, hActed⟩ := h.acted_of_executes hExecutes
  obtain ⟨hClassifies, hConcludes⟩ := hActed.ensured hStep fun _ => Bringup.ensures_setUpClockTree
  rw [← hConcludes.stage_kept.2.1] at hClassifies
  exact ⟨acted, printed, x, c, hClassifies, hActed.exchanges, hActed.prints, hConcludes⟩

/-- The UART that is stopped is the one that a serial programmer talks on. -/
theorem Genuine.programmer_of_stopUart (h : a.Genuine) {base : UInt32}
    (he : ⟨.stopUart base, ()⟩ ∈ a.exchanges) :
    (a.before.config.uartProgrammer = true ∧ a.before.stage.context.isSerialUart = true) ∧
      ⟨.uartBase a.before.stage.context.instanceIndex, some base⟩ ∈ a.exchanges := by
  obtain ⟨hExecutes, hAsks⟩ := h.asks_of_mem he rfl
  obtain ⟨t, printed, x, c, hClassifies, hExchanges, hPrints, -⟩ :=
    h.classifies (Step.eq_clockTree_of_asks_stopUart hAsks) hExecutes
  have hStops : ∃ t', Bringup.StopsUart a.before.config a.before.stage t' ∧ t' ⊆ a.exchanges ∧
      ⟨.stopUart base, ()⟩ ∈ t' := by
    rw [hExchanges] at he ⊢
    have hMem := (List.mem_append.1 he).resolve_right fun hMem => by cases hPrints _ hMem
    generalize a.after.stage.device = cell at hClassifies
    cases hClassifies with
    | classified reply hStops _ =>
      refine ⟨_, hStops, by simp, ?_⟩
      exact (List.mem_append.1 hMem).resolve_right (by simp)
    | known hStops _ => exact ⟨_, hStops, by simp, hMem⟩
  obtain ⟨t', hStops, hSubset, hMem⟩ := hStops
  cases hStops with
  | alone _ => cases hMem
  | unknown _ => simp at hMem
  | stopped base' hSerial =>
    obtain rfl : base = base' := by simpa using hMem
    exact ⟨hSerial, hSubset List.mem_cons_self⟩

/-- The step succeeds only if it classified the device. -/
theorem Genuine.device_of_ok (h : a.Genuine) (hStep : a.step = .clockTree)
    (hOk : a.result = .ok ()) :
    a.after.stage.device.value? =
      some (Bringup.classifiedDevice a.before.config a.before.stage.context) := by
  have hLedger := h.ledger
  rw [hOk] at hLedger
  obtain ⟨t, printed, x, c, hClassifies, -, -, hConcludes⟩ :=
    h.classifies hStep hLedger.isOk_start
  generalize a.after.stage.device = cell at hClassifies
  cases hClassifies with
  | classified _ _ _ => rfl
  | known _ _ =>
    rw [(hConcludes.of_fatal rfl).1] at hOk
    cases hOk

/-- The device is classified only by an attempt that executes the step of the clock tree. -/
theorem Genuine.device_kept (h : a.Genuine)
    (hOther : a.step = .clockTree → a.executes = false) :
    a.after.stage.device = a.before.stage.device := by
  by_cases hStep : a.step = .clockTree
  · rcases h.refused_or_acted with hRefused | ⟨_, _, _, _, _, hActed⟩
    · obtain ⟨log, hAfter⟩ := hRefused.after
      rw [hAfter]
      rfl
    · rw [hActed.executes] at hOther
      cases hOther hStep
  · exact h.stage_kept.2.1 hStep

end Attempt

end BootStage
