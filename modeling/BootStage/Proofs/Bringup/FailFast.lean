import BootStage.Proofs.Bringup.Sessions
import BootStage.Proofs.MemoryMap
import BootStage.Proofs.Poll

/-!
# The bring-up stops at the first fatal failure

On a fresh bring-up, both phases in a row either complete their seventeen steps, or stop at a step
with a fatal error, all steps before it complete and none after it attempted
(`bringUp_fails_fast`).  That takes a layout whose regions can be mapped; without one the build is
at fault, and memory protection ends in a defect.

The third way to end is not to: a wait in the power domain goes on for as long as neither the
register nor the clock moves.
-/

namespace BootStage

/-! ## Waits in the power domain -/

section PowerDomain

open Poll PowerDomain

variable {patience : Nat} {timeout : UInt32}

theorem hangsInWait_openBackupDomain :
    HangsInWait patience timeout (openBackupDomain patience timeout) :=
  hangsInWait_bind fun _ => hangsInWait_bind fun _ => hangsInWait_awaitBits

theorem hangsInWait_resetBackupDomain :
    HangsInWait patience timeout (resetBackupDomain patience timeout) := by
  refine hangsInWait_bind fun domain => ?_
  split
  · refine hangsInWait_bind fun _ => ?_
    refine hangsInWait_after hangsInWait_awaitBits fun outcome hEnded => ?_
    cases outcome with
    | settled => exact hangsInWait_bind fun _ => hangsInWait_pure nofun
    | timedOut => exact hangsInWait_pure nofun
    | hung => exact absurd rfl hEnded
  · exact hangsInWait_pure nofun

theorem hangsInWait_normalize : HangsInWait patience timeout (normalize patience timeout) := by
  refine hangsInWait_after hangsInWait_openBackupDomain fun outcome hEnded => ?_
  cases outcome with
  | settled =>
    refine hangsInWait_bind fun _ => ?_
    refine hangsInWait_after hangsInWait_resetBackupDomain fun outcome' hEnded' => ?_
    cases outcome' with
    | settled => exact hangsInWait_bind fun _ => hangsInWait_pure nofun
    | timedOut => exact hangsInWait_pure nofun
    | hung => exact absurd rfl hEnded'
  | timedOut => exact hangsInWait_pure nofun
  | hung => exact absurd rfl hEnded

theorem ensures_normalizePowerDomain (b : Bringup) :
    Ensures Bringup.normalizePowerDomain b fun t x _ =>
      x = .error .hung → GivesUp b.patience b.config.powerTimeout t := by
  refine ensures_get_bind.2 (ensures_lift_bind.2 fun t outcome hRuns => ?_)
  cases outcome with
  | settled => exact ensures_pure.2 nofun
  | timedOut => exact ensures_throw.2 nofun
  | hung =>
    refine ensures_throw.2 fun _ => ?_
    rw [List.append_nil]
    exact hangsInWait_normalize t hRuns

end PowerDomain

/-! ## How an attempt stops a phase -/

namespace Attempt

variable {a : Attempt}

/-- Only memory protection ends in a defect, and not with a mappable layout and an empty map. -/
theorem Genuine.not_defect (h : a.Genuine) (hMappable : a.before.config.layout.Mappable)
    (hEmpty : a.step = .memoryProtection → a.before.memoryMap = .empty) (d : Defect) :
    a.result ≠ .error (.defect d) := by
  intro hResult
  rcases h.refused_or_acted with hRefused | ⟨started, acted, printed, x, c, hActed⟩
  · rw [hRefused.result] at hResult
    cases hResult
  · have hConcludes := hActed.concludes
    have hRuns := hActed.runs
    have hStops := hActed.stays.stops
    rw [hResult] at hConcludes
    generalize a.step = step, a.after = after at *
    cases hConcludes with
    | defect _ _ =>
      cases hStops _ rfl with
      | defect _ =>
        have hProtect := Bringup.ensures_protectMemory (b := { a.before with ledger := started })
          (hEmpty rfl)
        rcases hProtect acted _ c hRuns with ⟨-, -, reply, -, hEnd⟩ | ⟨hNot, -⟩
        · cases reply <;> cases hEnd
        · exact hNot hMappable

/-- Only the power domain is hung, and then in a wait. -/
theorem Genuine.givesUp (h : a.Genuine) (hResult : a.result = .error .hung) :
    a.step = .powerDomain ∧
      Poll.GivesUp a.before.patience a.before.config.powerTimeout a.exchanges := by
  rcases h.refused_or_acted with hRefused | ⟨started, acted, printed, x, c, hActed⟩
  · rw [hRefused.result] at hResult
    cases hResult
  · have hConcludes := hActed.concludes
    have hRuns := hActed.runs
    have hStops := hActed.stays.stops
    rw [hResult] at hConcludes
    rw [hActed.exchanges]
    generalize a.step = step, a.after = after at *
    cases hConcludes with
    | hung _ =>
      cases hStops _ rfl with
      | hung =>
        have hWait := ensures_normalizePowerDomain { a.before with ledger := started } acted _ c
          hRuns rfl
        exact ⟨rfl, hWait.of_isInfix (List.prefix_append acted printed).isInfix⟩

end Attempt

/-! ## Survived failures -/

/-- The report lists failures that can be survived, of steps that completed. -/
def Bringup.ReportsSurvivors (b : Bringup) : Prop :=
  ∀ p ∈ b.report.degraded, p.2.isFatal = false ∧ p.1 ∈ b.ledger.completed

theorem Attempt.Genuine.reportsSurvivors {a : Attempt} (h : a.Genuine)
    (hBacked : a.before.ledger.Backed) (hBefore : a.before.ReportsSurvivors) :
    a.after.ReportsSurvivors := by
  have hCompleted := h.ledger.completed_eq hBacked
  rcases h.refused_or_acted with hRefused | ⟨started, acted, printed, x, c, hActed⟩
  · obtain ⟨log, hAfter⟩ := hRefused.after
    rw [hAfter]
    exact hBefore
  · have hStops := hActed.stays.stops
    have hDegraded := hActed.stays.changes.degraded
    have hConcludes := hActed.concludes
    -- A failure that the action itself survived belongs to a step that cannot stop early.
    have hOfStop : ∀ stop, x = .error stop → ∀ p ∈ c.report.degraded,
        p.2.isFatal = false ∧ p.1 ∈ a.before.ledger.completed := by
      intro stop hx p hp
      rcases hDegraded p hp with hp | ⟨hStep, -⟩
      · exact hBefore p hp
      · have hStop := hStops stop hx
        rw [hStep] at hStop
        cases hStop
    intro p hp
    rw [hCompleted]
    generalize a.result = result, a.after = after at *
    cases hConcludes with
    | completed _ log =>
      rcases hDegraded p hp with hp | ⟨hStep, rfl⟩
      · obtain ⟨hSurvived, hMem⟩ := hBefore p hp
        exact ⟨hSurvived, List.mem_append_left _ hMem⟩
      · exact ⟨rfl, List.mem_append_right _ (by rw [hStep]; exact List.mem_singleton_self _)⟩
    | degraded _ e log hSurvived =>
      rcases Report.mem_addDegraded hp with hp | rfl
      · obtain ⟨hSurvived, hMem⟩ := hOfStop _ rfl p hp
        exact ⟨hSurvived, List.mem_append_left _ hMem⟩
      · exact ⟨hSurvived, List.mem_append_right _ (List.mem_singleton_self _)⟩
    | fatal _ e log _ => exact hOfStop _ rfl p hp
    | defect _ d => exact hOfStop _ rfl p hp
    | hung _ => exact hOfStop _ rfl p hp

theorem Path.reportsSurvivors {allowed : Stage → Stage → Prop} {b c : Bringup}
    {attempts : List Attempt} (h : Path allowed b attempts c) (hBacked : b.ledger.Backed)
    (hb : b.ReportsSurvivors) : c.ReportsSurvivors :=
  (h.preserves (I := fun b => b.ledger.Backed ∧ b.ReportsSurvivors) (fun _ _ _ hb => hb)
    (fun _ ha hBefore => ⟨ha.ledger.backed hBefore.1, ha.reportsSurvivors hBefore.1 hBefore.2⟩)
    ⟨hBacked, hb⟩).2

/-! ## Both phases -/

theorem Path.patience {allowed : Stage → Stage → Prop} {b c : Bringup} {attempts : List Attempt}
    (h : Path allowed b attempts c) : c.patience = b.patience :=
  h.preserves (I := fun d => d.patience = b.patience) (fun _ _ _ hd => hd)
    (fun _ ha hBefore => ha.kept.2.1.trans hBefore) rfl

/-- Steps other than those that map regions leave the memory map alone. -/
theorem Attempts.memoryMap {steps : List Step} {b c : Bringup} {attempts : List Attempt}
    {result : Except Abort Unit} (h : Attempts steps b attempts result c)
    (hProtect : .memoryProtection ∉ steps) (hDram : .dramMapping ∉ steps) :
    c.memoryMap = b.memoryMap := by
  have hOther {a : Attempt} {steps : List Step} (ha : a.Genuine)
      (hProtect : .memoryProtection ∉ a.step :: steps) (hDram : .dramMapping ∉ a.step :: steps) :
      a.after.memoryMap = a.before.memoryMap :=
    ha.kept.2.2 (fun hStep => hProtect (hStep ▸ List.mem_cons_self))
      (fun hStep => hDram (hStep ▸ List.mem_cons_self))
  induction h with
  | done b => rfl
  | stopped ha _ => exact hOther ha hProtect hDram
  | next ha _ _ ih =>
    exact (ih (fun h => hProtect (List.mem_cons_of_mem _ h))
      (fun h => hDram (List.mem_cons_of_mem _ h))).trans (hOther ha hProtect hDram)

/-- Where a phase of all steps stops on a fresh bring-up. -/
theorem Attempts.stop_cases {config : Config} {context : BootContext} {patience : Nat}
    {attempts : List Attempt} {abort : Abort} {b : Bringup} (hMappable : config.layout.Mappable)
    (h : Attempts (Step.architecture ++ Step.platform) (.fresh config context patience) attempts
      (.error abort) b) :
    ∃ before step after, Step.architecture ++ Step.platform = before ++ step :: after ∧
      attempts.map (·.step) = before ++ [step] ∧ b.ledger.completed = before ∧
      ((∃ e, abort = .fatal ⟨step, e⟩ ∧ e.isFatal = true) ∨
        abort = .hung ∧ step = .powerDomain ∧
          Poll.GivesUp patience config.powerTimeout (attempts.flatMap (·.exchanges))) := by
  obtain ⟨x, earlier, after, hSteps, rfl, hEarlier, hx, hResult, rfl⟩ := h.stops_at
  have hBacked : x.before.ledger.Backed := hEarlier.trail.backed Ledger.backed_empty
  have hConfig : x.before.config = config := hEarlier.trail.config
  have hPatience : x.before.patience = patience := hEarlier.trail.patience
  refine ⟨earlier.map (·.step), x.step, after, hSteps, by simp, ?_, ?_⟩
  · have hCompleted := hx.ledger.completed_eq hBacked
    rw [hResult] at hCompleted
    exact hCompleted.trans (hEarlier.completed Ledger.backed_empty)
  · cases abort with
    | fatal failure =>
      obtain ⟨hStep, hFatal⟩ := hx.isFatal hResult
      obtain ⟨step, e⟩ := failure
      obtain rfl : step = x.step := hStep
      exact .inl ⟨e, rfl, hFatal⟩
    | defect d =>
      have hEmpty : x.step = .memoryProtection → x.before.memoryMap = .empty := fun hStep => by
        have hBefore := eq_takeWhile_of_eq_append (by decide) hSteps
        rw [hStep] at hBefore
        rw [hBefore] at hEarlier
        exact hEarlier.memoryMap (by decide) (by decide)
      exact absurd hResult (hx.not_defect (hConfig ▸ hMappable) hEmpty d)
    | hung =>
      obtain ⟨hStep, hWait⟩ := hx.givesUp hResult
      rw [hConfig, hPatience] at hWait
      refine .inr ⟨rfl, hStep, hWait.of_isInfix ?_⟩
      rw [List.flatMap_append, List.flatMap_singleton]
      exact (List.suffix_append _ _).isInfix

/-- Whatever the board does, the phases on a fresh bring-up attempt the seventeen steps in nominal
order and ask the board, apart from printing, only what belongs to the steps attempted.  Either all
of them complete, or a fatal error stops a step, with exactly the steps before it complete, or a
wait of the power domain goes on for as long as it is followed, which takes a clock that stands
still.  Every failure that is reported as survived can be survived, and its step completed. -/
theorem bringUp_fails_fast {config : Config} {context : BootContext} {patience : Nat}
    {t : List Exchange} {result : Except Abort Unit} {b : Bringup}
    (hMappable : config.layout.Mappable)
    (h : Runs (Bringup.bringUp.run.run (.fresh config context patience)) t (result, b)) :
    ∃ attempts, Attempts (Step.architecture ++ Step.platform) (.fresh config context patience)
        attempts result b ∧ t = attempts.flatMap (·.exchanges) ∧
      (∀ e ∈ t, e.request.isEmit = true ∨ ∃ s ∈ attempts.map (·.step), s.Asks e.request) ∧
      ((result = .ok () ∧ attempts.map (·.step) = Step.architecture ++ Step.platform ∧
          b.ledger.completed = Step.architecture ++ Step.platform) ∨
        ∃ before step after, Step.architecture ++ Step.platform = before ++ step :: after ∧
          attempts.map (·.step) = before ++ [step] ∧ b.ledger.completed = before ∧
          ((∃ e, result = .error (.fatal ⟨step, e⟩) ∧ e.isFatal = true) ∨
            result = .error .hung ∧ step = .powerDomain ∧
              Poll.GivesUp patience config.powerTimeout t)) ∧
      (config.powerTimeout.toNat < patience → (Poll.clockReadings t).Pairwise (· < ·) →
        result ≠ .error .hung) ∧
      ∀ p ∈ b.report.degraded, p.2.isFatal = false ∧ p.1 ∈ b.ledger.completed := by
  have hCall : Runs (Call.bringUp.run.run.run (.fresh config context patience)) t (result, b) := h
  obtain ⟨attempts, hAttempts, rfl⟩ := Call.runs_iff.1 hCall
  have hAsks : ∀ e ∈ attempts.flatMap (·.exchanges), e.request.isEmit = true ∨
      ∃ s ∈ attempts.map (·.step), s.Asks e.request := by
    intro e he
    obtain ⟨a, ha, he⟩ := List.mem_flatMap.1 he
    cases hEmit : e.request.isEmit with
    | true => exact .inl rfl
    | false =>
      exact .inr ⟨a.step, List.mem_map_of_mem ha,
        ((hAttempts.trail.genuine_of_mem ha).asks_of_mem he hEmit).2⟩
  have hSurvivors := hAttempts.trail.reportsSurvivors Ledger.backed_empty (by nofun)
  refine ⟨attempts, hAttempts, rfl, hAsks, ?_, fun hPatience hClock hHung => ?_, hSurvivors⟩
  · cases result with
    | ok _ => exact .inl ⟨rfl, hAttempts.map_step, hAttempts.completed Ledger.backed_empty⟩
    | error abort =>
      obtain ⟨before, step, after, hSteps, hMap, hCompleted, hStop⟩ :=
        hAttempts.stop_cases hMappable
      refine .inr ⟨before, step, after, hSteps, hMap, hCompleted, ?_⟩
      rcases hStop with ⟨e, rfl, hFatal⟩ | ⟨rfl, hStep, hWait⟩
      · exact .inl ⟨e, rfl, hFatal⟩
      · exact .inr ⟨rfl, hStep, hWait⟩
  · subst hHung
    obtain ⟨_, _, _, _, _, _, ⟨_, hFatal, _⟩ | ⟨_, _, hWait⟩⟩ := hAttempts.stop_cases hMappable
    · cases hFatal
    · have hStuck := hWait.patience_le hClock
      omega

theorem mappable_stm32mp15 : Layout.stm32mp15.Mappable where
  valid := by decide
  apart := by
    have hApart : (Bringup.staticRegions .stm32mp15).Pairwise (fun r s => r.overlaps s = false) := by
      decide
    exact hApart.imp fun {r s} => (Region.not_overlaps_iff r s).1

/-- Where the watchdog does not start, the seven steps before it have completed, one of them, the
console, with a failure that was survived. -/
theorem deadWatchdog_fails_fast :
    ∃ t b after, Runs (Bringup.bringUp.run.run (.fresh .standard usualContext 4)) t
        (.error (.fatal ⟨.watchdog, .watchdogInitFailed⟩), b) ∧
      Step.architecture ++ Step.platform = b.ledger.completed ++ .watchdog :: after ∧
      b.report.degraded = [(.console, .consoleUnavailable)] ∧ .console ∈ b.ledger.completed := by
  obtain ⟨t, ⟨result, b⟩, hRuns, hResult, hReport⟩ := Program.exists_runs deadWatchdogBoard
    (Bringup.bringUp.run.run (.fresh .standard usualContext 4)) () (P := fun _ ended =>
      ended.1 = .error (.fatal ⟨.watchdog, .watchdogInitFailed⟩) ∧
        ended.2.report.degraded = [(.console, .consoleUnavailable)]) (by decide +kernel)
  obtain rfl : result = _ := hResult
  obtain ⟨_, _, _, _, hEnds, _, hSurvivors⟩ := bringUp_fails_fast mappable_stm32mp15 hRuns
  obtain ⟨hOk, _⟩ | ⟨before, step, after, hSteps, _, rfl, hStop⟩ := hEnds
  · cases hOk
  · obtain ⟨e, hEq, _⟩ | ⟨hEq, _⟩ := hStop
    · cases hEq
      have hConsole := (hSurvivors (.console, .consoleUnavailable) (by
        rw [show b.report.degraded = _ from hReport]
        exact List.mem_singleton_self _)).2
      exact ⟨_, b, after, hRuns, hSteps, hReport, hConsole⟩
    · cases hEq

end BootStage
