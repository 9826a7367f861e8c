import BootStage.Proofs.Bringup.Order

/-!
# Calls after a fatal failure

Once a call has failed in the action of a step, the architecture phase and the exit are closed for
good.  The platform phase is not, if the step that failed stands after the clock tree: its first
step builds on the clock tree alone, so a later call still brings DRAM up (`after_fatal_failure`).

What stays closed stays closed because a step starts once (`Ledger.Bars`), and because nothing but
the two platform steps can still complete (`Ledger.Failed`).
-/

namespace BootStage

/-! ## Closed phases -/

namespace Ledger

/-- The ledger refuses the step: it has started, or a step that it builds on has not completed. -/
def Bars (l : Ledger) (s : Step) : Prop := s ∈ l.started ∨ ∃ p ∈ s.prerequisites, p ∉ l.completed

/-- The architecture phase and the exit are closed. -/
structure Failed (l : Ledger) : Prop where
  architecture : .fuseProbe ∈ l.started
  exit : .prepareExit ∈ l.started ∨ .ioSetup ∉ l.completed ∨
    .dramProbe ∈ l.started ∧ .dramMapping ∉ l.completed

variable {l m : Ledger} {s : Step} {result : Except Abort Unit}

theorem isOk_start_iff : (l.start s).isOk = true ↔ ¬ l.Bars s := by
  rw [isOk_start_iff_new, missing?_eq_none_iff]
  simp [Bars]

/-- An attempt at a barred step changes nothing. -/
theorem Attempted.eq_of_bars (h : Attempted s l result m) (hBars : l.Bars s) :
    m = l ∧ result ≠ .ok () := by
  have hRefused : (l.start s).isOk ≠ true := fun hOk => isOk_start_iff.1 hOk hBars
  cases h with
  | refused _ => exact ⟨rfl, nofun⟩
  | stopped _ hStart =>
    rw [hStart] at hRefused
    exact absurd rfl hRefused
  | completed hStart =>
    rw [hStart] at hRefused
    exact absurd rfl hRefused

/-- An attempt starts at most its own step. -/
theorem Attempted.started_subset_cons (h : Attempted s l result m) :
    m.started ⊆ s :: l.started := by
  intro q hq
  rcases h.mem_started hq with hOld | ⟨rfl, -⟩
  · exact List.mem_cons_of_mem s hOld
  · exact List.mem_cons_self

theorem Attempted.completed_subset (h : Attempted s l result m) (hl : l.Backed) :
    l.completed ⊆ m.completed := by
  rw [h.completed_eq hl]
  split
  · exact List.subset_append_left _ _
  · exact List.Subset.refl _

theorem Attempted.grounded (h : Attempted s l result m) (hl : l.Backed) (hGrounded : l.Grounded) :
    m.Grounded := by
  intro q hq p hp
  refine h.completed_subset hl ?_
  rcases List.mem_cons.1 (h.started_subset_cons hq) with rfl | hq'
  · by_cases hOld : q ∈ l.started
    · exact hGrounded q hOld p hp
    · -- The step is new, so the attempt at it was admitted.
      refine (h.starts (isOk_start_iff.2 fun hBars => ?_)).2.2 p hp
      rw [(h.eq_of_bars hBars).1] at hq
      exact hOld hq
  · exact hGrounded q hq' p hp

end Ledger

theorem Path.grounded {allowed : Stage → Stage → Prop} {b c : Bringup} {attempts : List Attempt}
    (h : Path allowed b attempts c) (hb : b.ledger.Backed) (hGrounded : b.ledger.Grounded) :
    c.ledger.Grounded :=
  (h.preserves (I := fun b => b.ledger.Backed ∧ b.ledger.Grounded) (fun _ _ _ hb => hb)
    (fun _ ha hBefore => ⟨ha.ledger.backed hBefore.1, ha.ledger.grounded hBefore.1 hBefore.2⟩)
    ⟨hb, hGrounded⟩).2

section Phases

variable {b c : Bringup} {attempts : List Attempt} {result : Except Abort Unit}

/-- A phase whose first step is barred changes nothing. -/
theorem Attempts.of_bars {s : Step} {steps : List Step}
    (h : Attempts (s :: steps) b attempts result c) (hBars : b.ledger.Bars s) :
    c.ledger = b.ledger ∧ ∀ a ∈ attempts, a.executes = false := by
  have hRefused : (b.ledger.start s).isOk = false :=
    eq_false_of_ne_true fun hOk => Ledger.isOk_start_iff.1 hOk hBars
  cases h with
  | stopped ha _ =>
    refine ⟨(ha.ledger.eq_of_bars hBars).1, fun a' ha' => ?_⟩
    rw [List.mem_singleton.1 ha']
    exact hRefused
  | next ha hOk _ => exact absurd hOk (ha.ledger.eq_of_bars hBars).2

/-- A phase starts at most the steps that it attempts. -/
theorem Attempts.started_subset_append {steps : List Step}
    (h : Attempts steps b attempts result c) :
    c.ledger.started ⊆ attempts.map (·.step) ++ b.ledger.started := by
  induction h with
  | done b => exact List.Subset.refl _
  | stopped ha _ => exact ha.ledger.started_subset_cons
  | next ha _ _ ih =>
    intro s hs
    rcases List.mem_append.1 (ih hs) with hs | hs
    · exact List.mem_cons_of_mem _ (List.mem_append_left _ hs)
    · rcases List.mem_cons.1 (ha.ledger.started_subset_cons hs) with rfl | hs
      · exact List.mem_cons_self
      · exact List.mem_cons_of_mem _ (List.mem_append_right _ hs)

/-- A phase that succeeds attempts only steps that had not started. -/
theorem Attempts.new {steps : List Step} (h : Attempts steps b attempts (.ok ()) c) :
    ∀ s ∈ steps, s ∉ b.ledger.started := by
  generalize hResult : Except.ok () = result at h
  induction h with
  | done b => exact fun s hs => nomatch hs
  | stopped _ _ => cases hResult
  | next ha hOk _ ih =>
    have hAttempted := ha.ledger
    rw [hOk] at hAttempted
    intro s hs hStarted
    rcases List.mem_cons.1 hs with rfl | hs
    · exact (hAttempted.starts hAttempted.isOk_start).1 hStarted
    · exact ih hResult s hs (ha.ledger.started_subset hStarted)

end Phases

/-! ## What later calls can do -/

section Later

variable {b c : Bringup} {calls : List Call} {attempts : List Attempt} {result : Except Abort Unit}

theorem Ledger.Failed.bars_prepareExit {l : Ledger} (h : l.Failed) : l.Bars .prepareExit := by
  rcases h.exit with hStarted | hIo | ⟨-, hDram⟩
  · exact .inl hStarted
  · exact .inr ⟨.ioSetup, by decide, hIo⟩
  · exact .inr ⟨.dramMapping, by decide, hDram⟩

/-- After a failure, a call changes nothing unless it is the platform phase and DRAM was not probed
yet. -/
theorem Attempts.of_failed {call : Call} (h : Attempts call.steps b attempts result c)
    (hb : b.ledger.Failed) (hClosed : call = .setUpPlatform → b.ledger.Bars .dramProbe) :
    c.ledger = b.ledger ∧ ∀ a ∈ attempts, a.executes = false := by
  cases call with
  | setUpArchitecture => exact h.of_bars (.inl hb.architecture)
  | setUpPlatform => exact h.of_bars (hClosed rfl)
  | bringUp => exact h.of_bars (.inl hb.architecture)
  | prepareExit => exact h.of_bars hb.bars_prepareExit

/-- The platform phase leaves the other phases closed. -/
theorem Attempts.failed_of_platform (h : Attempts Step.platform b attempts result c)
    (hBacked : b.ledger.Backed) (hb : b.ledger.Failed) (hOpen : ¬ b.ledger.Bars .dramProbe) :
    c.ledger.Failed where
  architecture := h.trail.started_subset hb.architecture
  exit := by
    obtain ⟨done, hDone, hCompleted⟩ := h.completed_eq hBacked
    rcases hb.exit with hStarted | hIo | ⟨hProbed, -⟩
    · exact .inl (h.trail.started_subset hStarted)
    · refine .inr (.inl fun hMem => ?_)
      rw [hCompleted] at hMem
      rcases List.mem_append.1 hMem with hMem | hMem
      · exact hIo hMem
      · exact absurd (hDone.subset hMem) (by decide)
    · exact absurd (.inl hProbed) hOpen

/-- If DRAM cannot be probed either, nothing happens any more. -/
theorem Session.of_bars (h : Session b calls attempts c) (hb : b.ledger.Failed)
    (hBars : b.ledger.Bars .dramProbe) : ∀ a ∈ attempts, a.executes = false := by
  induction h with
  | nil b => exact fun a ha => nomatch ha
  | revised stage _ _ ih => exact ih hb hBars
  | @cons call b c d attempts attempts' calls result hCall _ ih =>
    obtain ⟨hSame, hNone⟩ := hCall.of_failed hb fun _ => hBars
    intro a ha
    rcases List.mem_append.1 ha with ha | ha
    · exact hNone a ha
    · exact ih (hSame ▸ hb) (hSame ▸ hBars) a ha

/-- After a failure, only steps of the platform phase are still executed. -/
theorem Session.of_failed (h : Session b calls attempts c) (hBacked : b.ledger.Backed)
    (hb : b.ledger.Failed) : ∀ a ∈ attempts, a.executes = true → a.step ∈ Step.platform := by
  induction h with
  | nil b => exact fun a ha => nomatch ha
  | revised stage _ _ ih => exact ih hBacked hb
  | @cons call b c d attempts attempts' calls result hCall _ ih =>
    intro a ha hExecutes
    by_cases hPlatform : call = .setUpPlatform ∧ ¬ b.ledger.Bars .dramProbe
    · obtain ⟨rfl, hOpen⟩ := hPlatform
      have hc : c.ledger.Failed :=
        Attempts.failed_of_platform hCall hBacked hb hOpen
      rcases List.mem_append.1 ha with ha | ha
      · exact hCall.step_mem ha
      · exact ih (hCall.trail.backed hBacked) hc a ha hExecutes
    · obtain ⟨hSame, hNone⟩ := hCall.of_failed hb fun hCallEq =>
        Classical.byContradiction fun hOpen => hPlatform ⟨hCallEq, hOpen⟩
      rcases List.mem_append.1 ha with ha | ha
      · rw [hNone a ha] at hExecutes
        cases hExecutes
      · exact ih (hSame ▸ hBacked) (hSame ▸ hb) a ha hExecutes

end Later

/-! ## The call that failed -/

/-- Steps of the architecture phase after the clock tree. -/
def Step.afterClockTree : List Step :=
  [.operatingPoint, .console, .watchdog, .debugPolicy, .bootInterface, .securityPartition,
   .resetReason, .antiRollback, .pmicRefresh, .ioSetup]

/-- What stands before a step after the clock tree in a call. -/
theorem Call.before_afterClockTree {call : Call} {before after : List Step} {s : Step}
    (h : call.steps = before ++ s :: after) (hs : s ∈ Step.afterClockTree) :
    .fuseProbe ∈ before ∧ .clockTree ∈ before ∧ .dramProbe ∉ before ++ [s] := by
  have hMem : s ∈ call.steps := by rw [h]; simp
  have hNodup : call.steps.Nodup := by cases call <;> decide
  rw [eq_takeWhile_of_eq_append hNodup h]
  clear h hNodup
  revert s
  cases call with
  | setUpArchitecture => decide
  | setUpPlatform => decide
  | bringUp => decide
  | prepareExit => decide

theorem Step.eq_fuseProbe_of_prerequisites {s : Step} (h : ∀ p ∈ s.prerequisites, False) :
    s = .fuseProbe := by
  cases s <;> first | rfl | exact (h _ List.mem_cons_self).elim

/-- An attempt that failed in the action of its step has started the step, with its prerequisites
complete, and has not completed it. -/
theorem Attempt.Genuine.start_of_failed {a : Attempt} {f : FatalError} (h : a.Genuine)
    (hResult : a.result = .error (.fatal f)) (hAction : f.error ≠ .stepOrderViolation) :
    a.before.ledger.start a.step = .ok a.after.ledger := by
  have hLedger := h.ledger
  rw [hResult] at hLedger
  generalize a.before.ledger = l, a.after.ledger = m at hLedger ⊢
  cases hLedger with
  | refused _ => exact absurd rfl hAction
  | stopped _ hStart => exact hStart

/-- What a call that failed in the action of `s` leaves: the step has started but not completed, and
of what it builds on everything has. -/
structure Ledger.FailedAt (l : Ledger) (s : Step) : Prop where
  started : s ∈ l.started
  incomplete : s ∉ l.completed
  prerequisites : ∀ p ∈ s.prerequisites, p ∈ l.completed

namespace Ledger.FailedAt

variable {l : Ledger} {s : Step} {a p e : List Step}

theorem failed (h : l.FailedAt s) (hl : l.Parts a p e) : l.Failed where
  architecture := by
    refine Decidable.byContradiction fun hNew => ?_
    have hNone := hl.not_entered hNew
    have hFirst : s = .fuseProbe := Step.eq_fuseProbe_of_prerequisites fun q hq => by
      have hDone := h.prerequisites q hq
      rw [hNone] at hDone
      cases hDone
    exact hNew (hFirst ▸ h.started)
  exit := by
    rcases List.mem_append.1 (Step.mem_all s) with hs | hs
    · rcases List.mem_append.1 hs with hs | hs
      · refine .inr (.inl fun hIo => h.incomplete ?_)
        rw [hl.completed, hl.architecture_eq hIo]
        exact List.mem_append_left _ (List.mem_append_left _ hs)
      · refine .inr (.inr ⟨?_, fun hDram => h.incomplete ?_⟩)
        · -- The platform phase starts with the DRAM probe, and the mapping builds on it.
          rcases List.mem_cons.1 hs with rfl | hs
          · exact h.started
          · obtain rfl := List.mem_singleton.1 hs
            exact hl.backed _ (h.prerequisites .dramProbe (by decide))
        · rw [hl.completed, hl.platform_eq hDram]
          exact List.mem_append_left _ (List.mem_append_right _ hs)
    · obtain rfl := List.mem_singleton.1 hs
      exact .inl h.started

/-- Unless the step stands after the clock tree, DRAM cannot be probed any more. -/
theorem bars_dramProbe (h : l.FailedAt s) (hl : l.Parts a p e) (hFounded : l.Founded)
    (hs : s ∉ Step.afterClockTree) : l.Bars .dramProbe := by
  refine Classical.byContradiction fun hOpen => ?_
  simp only [Bars, not_or, not_exists, not_and, Decidable.not_not] at hOpen
  obtain ⟨hNew, hComplete⟩ := hOpen
  have hClock := hComplete .clockTree (by decide)
  have hPower := hFounded _ hClock .powerDomain (by decide)
  have hConfig := hFounded _ hPower .configTree (by decide)
  have hMemory := hFounded _ hConfig .memoryProtection (by decide)
  have hFuses := hFounded _ hMemory .fuseProbe (by decide)
  cases s with
  | fuseProbe => exact h.incomplete hFuses
  | memoryProtection => exact h.incomplete hMemory
  | configTree => exact h.incomplete hConfig
  | powerDomain => exact h.incomplete hPower
  | clockTree => exact h.incomplete hClock
  | dramProbe => exact hNew h.started
  | dramMapping => exact hNew (hl.backed _ (h.prerequisites .dramProbe (by decide)))
  | prepareExit =>
    have hMapped := h.prerequisites .dramMapping (by decide)
    exact hNew (hl.backed _ (hFounded _ hMapped .dramProbe (by decide)))
  | _ => exact hs (by decide)

end Ledger.FailedAt

section Failure

variable {call : Call} {b c : Bringup} {attempts : List Attempt} {f : FatalError}

theorem Attempts.failedAt (h : Attempts call.steps b attempts (.error (.fatal f)) c)
    (hAction : f.error ≠ .stepOrderViolation) (hb : b.ledger.Backed) :
    c.ledger.FailedAt f.step := by
  obtain ⟨x, earlier, after, -, -, hEarlier, hx, hResult, rfl⟩ := h.stops_at
  obtain ⟨hNew, hPrerequisites, hLedger⟩ :=
    Ledger.start_eq_ok_iff.1 (hx.start_of_failed hResult hAction)
  rw [(hx.isFatal hResult).1, hLedger]
  exact ⟨List.mem_cons_self, fun hDone => hNew (hEarlier.trail.backed hb _ hDone), hPrerequisites⟩

/-- After a failure behind the clock tree, DRAM can be probed. -/
theorem Attempts.not_bars_dramProbe {p e a : List Step}
    (h : Attempts call.steps b attempts (.error (.fatal f)) c)
    (hAction : f.error ≠ .stepOrderViolation) (hb : b.ledger.Parts a p e)
    (hGrounded : b.ledger.Grounded) (hStep : f.step ∈ Step.afterClockTree) :
    ¬ c.ledger.Bars .dramProbe := by
  have hStarted := h.started_subset_append
  obtain ⟨x, earlier, after, hSteps, rfl, hEarlier, hx, hResult, rfl⟩ := h.stops_at
  rw [(hx.isFatal hResult).1] at hStep
  obtain ⟨hFirst, hClock, hProbe⟩ := Call.before_afterClockTree hSteps hStep
  obtain ⟨-, -, hLedger⟩ := Ledger.start_eq_ok_iff.1 (hx.start_of_failed hResult hAction)
  have hCompleted : x.after.ledger.completed = b.ledger.completed ++ earlier.map (·.step) := by
    rw [hLedger]
    exact hEarlier.completed hb.backed
  rintro (hMem | ⟨q, hq, hMissing⟩)
  · -- Whoever started the probe before found the clock tree complete, so this call was not the
    -- first to start the fuse probe.
    rcases List.mem_append.1 (hStarted hMem) with hMem | hMem
    · rw [List.map_append] at hMem
      exact hProbe hMem
    · have hOld := hGrounded _ hMem .clockTree (by decide)
      rw [hb.not_entered (hEarlier.new _ hFirst)] at hOld
      cases hOld
  · obtain rfl : q = .clockTree := List.mem_singleton.1 hq
    refine hMissing ?_
    rw [hCompleted]
    exact List.mem_append_right _ hClock

end Failure

/-- Once a call on a bring-up has failed in the action of a step, whatever is called then: only steps
of the platform phase are still executed, and only if the step that failed stands after the clock
tree; every other attempt changes nothing in the ledger and only prints.  If it does stand there,
the next platform phase does bring DRAM up. -/
theorem after_fatal_failure {config : Config} {context : BootContext} {patience : Nat}
    {earlier later : List Call} {call : Call} {before tried after : List Attempt} {f : FatalError}
    {b c d : Bringup}
    (hEarlier : Session (.fresh config context patience) earlier before b)
    (hCall : Attempts call.steps b tried (.error (.fatal f)) c)
    (hAction : f.error ≠ .stepOrderViolation) (hLater : Session c later after d) :
    (∀ a ∈ after, a.executes = true → a.step ∈ Step.platform ∧ f.step ∈ Step.afterClockTree) ∧
    (∀ a ∈ after, a.executes = false →
      a.after.ledger = a.before.ledger ∧ ∀ e ∈ a.exchanges, e.request.isEmit = true) ∧
    ((c.ledger.start .dramProbe).isOk = true ↔ f.step ∈ Step.afterClockTree) := by
  obtain ⟨a, p, e, hParts⟩ := hEarlier.parts Ledger.Parts.empty
  obtain ⟨a', p', e', hParts'⟩ := hCall.parts hParts
  have hGrounded : b.ledger.Grounded := hEarlier.path.grounded Ledger.backed_empty (by nofun)
  have hFounded : c.ledger.Founded := hCall.trail.founded hParts.backed
    (hEarlier.path.founded Ledger.backed_empty Ledger.founded_empty)
  have hFailedAt := hCall.failedAt hAction hParts.backed
  have hFailed := hFailedAt.failed hParts'
  refine ⟨fun x hx hExecutes => ⟨hLater.of_failed hParts'.backed hFailed x hx hExecutes, ?_⟩,
    fun x hx hNot => ⟨?_, ?_⟩, fun hOk => ?_, fun hStep => ?_⟩
  · refine Decidable.byContradiction fun hStep => ?_
    have hBars := hFailedAt.bars_dramProbe hParts' hFounded hStep
    rw [hLater.of_bars hFailed hBars x hx] at hExecutes
    cases hExecutes
  · have hGenuine := hLater.path.genuine_of_mem hx
    refine (hGenuine.ledger.eq_of_bars ?_).1
    exact Classical.byContradiction fun hOpen => by
      rw [Attempt.executes, Ledger.isOk_start_iff.2 hOpen] at hNot
      cases hNot
  · exact (hLater.path.genuine_of_mem hx).prints_of_not_executes hNot
  · exact Decidable.byContradiction fun hStep =>
      Ledger.isOk_start_iff.1 hOk (hFailedAt.bars_dramProbe hParts' hFounded hStep)
  · exact Ledger.isOk_start_iff.2 (hCall.not_bars_dramProbe hAction hParts hGrounded hStep)

/-- On the board whose watchdog does not start, the architecture phase fails there, and the platform
phase that is called next succeeds. -/
theorem runs_deadWatchdog :
    ∃ t b t' c, Runs (Call.setUpArchitecture.run.run.run (.fresh .standard usualContext 4)) t
        (.error (.fatal ⟨.watchdog, .watchdogInitFailed⟩), b) ∧
      Runs (Call.setUpPlatform.run.run.run b) t' (.ok (), c) ∧
      Request.probeDram ∈ t'.map (·.request) := by
  obtain ⟨t, ⟨result, b⟩, hFirst, hStopped, hOk, hProbed⟩ := Program.exists_runs deadWatchdogBoard
    (Call.setUpArchitecture.run.run.run (.fresh .standard usualContext 4)) () (P := fun _ stopped =>
      stopped.1 = .error (.fatal ⟨.watchdog, .watchdogInitFailed⟩) ∧
        ((Call.setUpPlatform.run.run.run stopped.2).exec deadWatchdogBoard ()).1.1 = .ok () ∧
        Request.probeDram ∈ ((Call.setUpPlatform.run.run.run stopped.2).transcript
          deadWatchdogBoard ()).map (·.request)) (by decide +kernel)
  obtain rfl : result = _ := hStopped
  obtain ⟨t', ⟨result', c⟩, hSecond, hEnded, hAsked⟩ := Program.exists_runs deadWatchdogBoard
    (Call.setUpPlatform.run.run.run b) () (P := fun t ended =>
      ended.1 = .ok () ∧ Request.probeDram ∈ t.map (·.request)) ⟨hOk, hProbed⟩
  obtain rfl : result' = _ := hEnded
  exact ⟨t, b, t', c, hFirst, hSecond, hAsked⟩

/-- After a failure at the watchdog, a call of the platform phase executes its steps. -/
theorem dramProbe_open_after_deadWatchdog :
    ∃ tried b, Attempts Step.architecture (.fresh .standard usualContext 4) tried
        (.error (.fatal ⟨.watchdog, .watchdogInitFailed⟩)) b ∧
      (b.ledger.start .dramProbe).isOk = true := by
  obtain ⟨t, b, t', c, hFirst, hSecond, -⟩ := runs_deadWatchdog
  obtain ⟨tried, hTried, -⟩ := Call.runs_iff.1 hFirst
  obtain ⟨after, hAfter, -⟩ := Call.runs_iff.1 hSecond
  obtain ⟨-, -, hOpen⟩ := after_fatal_failure (.nil _) hTried nofun (.cons hAfter (.nil _))
  exact ⟨tried, b, hTried, hOpen.2 (by decide)⟩

/-- A fatal failure does not end it: after the watchdog failed to start, a call of the platform phase
probes DRAM and completes both of its steps. -/
theorem dram_probed_after_failure :
    ∃ t b t' c, Runs (Call.setUpArchitecture.run.run.run (.fresh .standard usualContext 4)) t
        (.error (.fatal ⟨.watchdog, .watchdogInitFailed⟩), b) ∧
      Runs (Call.setUpPlatform.run.run.run b) t' (.ok (), c) ∧
      (∃ e ∈ t', e.request = .probeDram) ∧
      c.ledger.completed = b.ledger.completed ++ [.dramProbe, .dramMapping] := by
  obtain ⟨t, b, t', c, hFirst, hSecond, hProbed⟩ := runs_deadWatchdog
  obtain ⟨tried, hTried, -⟩ := Call.runs_iff.1 hFirst
  obtain ⟨after, hAfter, -⟩ := Call.runs_iff.1 hSecond
  obtain ⟨e, he, hRequest⟩ := List.mem_map.1 hProbed
  exact ⟨t, b, t', c, hFirst, hSecond, ⟨e, he, hRequest⟩,
    hAfter.completed (hTried.trail.backed Ledger.backed_empty)⟩

end BootStage
