import BootStage.Proofs.Bringup.Console
import BootStage.Proofs.Bringup.Order

/-!
# The survived failures

Four steps can survive a failure: the console without which the log is not printed, the second
watchdog that stays running under a debugger, the boot interface that is not kept, and the status of
the power management chip.  `Attempt.Survives` tells from the exchanges of an attempt what it
survives, and the report lists exactly that, in nominal order (`degraded_exact`).

Two of the steps fail with their error, one step notes it on the way and goes on, and the console
may be overruled by the check of the fuses; whichever way, one attempt adds at most one entry
(`Attempt.Genuine.degrades`), of its own step, which then has completed.  As each step completes
once, there is always room in the report (`Bringup.Accounted`).
-/

namespace BootStage

/-- What can be survived, in the nominal order of the steps. -/
def survivable : List (Step × Error) :=
  [(.console, .consoleUnavailable), (.debugPolicy, .debugFreezeFailed),
    (.bootInterface, .contextSaveFailed), (.pmicRefresh, .pmicStatusUnavailable)]

/-! ## The steps that survive a failure -/

namespace Bringup

variable {b : Bringup}

/-- How the debug policy goes, and what is then reported of survived failures. -/
inductive AppliesPolicy (r : Report) : List Exchange → List (Step × Error) → Prop
  | shut {features : Flags DebugFeature} (closed : Bool) : features.isEmpty = true →
      AppliesPolicy r [⟨.debugFeatures, features⟩, ⟨.isClosedDevice, closed⟩] r.degraded
  | frozen {features : Flags DebugFeature} (closed : Bool) : features.isEmpty = false →
      AppliesPolicy r
        [⟨.debugFeatures, features⟩, ⟨.isClosedDevice, closed⟩, ⟨.freezeSecondWatchdog, .ok ()⟩]
        r.degraded
  | unfrozen {features : Flags DebugFeature} (closed : Bool) (fault : DriverFault) :
      features.isEmpty = false →
      AppliesPolicy r
        [⟨.debugFeatures, features⟩, ⟨.isClosedDevice, closed⟩,
          ⟨.freezeSecondWatchdog, .error fault⟩]
        (r.addDegraded .debugPolicy .debugFreezeFailed).degraded

theorem ensures_applyDebugPolicy_policy :
    Ensures applyDebugPolicy b fun t x c =>
      x = .ok () ∧ AppliesPolicy b.report t c.report.degraded := by
  refine ensures_lift_bind.2 fun t₁ features h₁ => ensures_lift_bind.2 fun t₂ closed h₂ => ?_
  obtain rfl := runs_ask_iff.1 h₁
  obtain rfl := runs_ask_iff.1 h₂
  refine ensures_modify_bind.2 ?_
  dsimp only
  -- The banner asks nothing and reports nothing.
  have hWarn : ∀ c : Bringup, Ensures (if closed = true then
      modify fun b => b.withLog (DebugAccess.warn b.stage.log) else pure () : Action Unit) c
      fun t x d => t = [] ∧ x = .ok () ∧ d.report.degraded = c.report.degraded := by
    intro c
    split
    · exact ensures_modify.2 ⟨rfl, rfl, rfl⟩
    · exact ensures_pure.2 ⟨rfl, rfl, rfl⟩
  split
  · next hOpen =>
    have hFeatures : features.isEmpty = false := by simpa using hOpen
    refine ensures_lift_bind.2 fun t₃ reply h₃ => ?_
    obtain rfl := runs_ask_iff.1 h₃
    cases reply with
    | ok _ =>
      refine (hWarn _).mono ?_
      rintro _ _ d ⟨rfl, rfl, hSame⟩
      rw [hSame]
      exact ⟨rfl, .frozen closed hFeatures⟩
    | error fault =>
      refine ensures_modify_bind.2 (ensures_modify_bind.2 ((hWarn _).mono ?_))
      rintro _ _ d ⟨rfl, rfl, hSame⟩
      have hUnfrozen := AppliesPolicy.unfrozen (r := b.report) closed fault hFeatures
      rw [Report.degraded_addDegraded] at hUnfrozen
      rw [hSame]
      refine ⟨rfl, ?_⟩
      show AppliesPolicy b.report _ (Report.addDegraded _ _ _).degraded
      rw [Report.degraded_addDegraded]
      exact hUnfrozen
  · next hShut =>
    have hFeatures : features.isEmpty = true := by simpa using hShut
    exact ensures_pure.2 ⟨rfl, .shut closed hFeatures⟩

theorem ensures_saveBootInterface :
    Ensures saveBootInterface b fun t x _ => ∃ interface index reply,
      t = [⟨.saveBootInterface interface index, reply⟩] ∧
        x = reply.mapError fun _ => .failed .contextSaveFailed :=
  ensures_get_bind.2 (Action.ensures_require.2 fun _ reply hRuns =>
    ⟨_, _, reply, runs_ask_iff.1 hRuns, rfl⟩)

/-- How the status of the power management chip is refreshed, and how that ends. -/
inductive Refreshes : List Exchange → Except Stop Unit → Prop
  | absent : Refreshes [⟨.pmicPresent, false⟩] (.ok ())
  | unstarted (fault : DriverFault) :
      Refreshes [⟨.pmicPresent, true⟩, ⟨.startPmic, .error fault⟩]
        (.error (.failed .pmicStatusUnavailable))
  | unread (fault : DriverFault) :
      Refreshes [⟨.pmicPresent, true⟩, ⟨.startPmic, .ok ()⟩, ⟨.pmicVersion, .error fault⟩]
        (.error (.failed .pmicStatusUnavailable))
  | refreshed (version : UInt8) :
      Refreshes [⟨.pmicPresent, true⟩, ⟨.startPmic, .ok ()⟩, ⟨.pmicVersion, .ok version⟩] (.ok ())

theorem ensures_refreshPmic :
    Ensures refreshPmic b fun t x _ => Refreshes t x := by
  refine ensures_lift_bind.2 fun t₁ present h₁ => ?_
  obtain rfl := runs_ask_iff.1 h₁
  cases present with
  | false => exact ensures_pure.2 .absent
  | true =>
    refine Action.ensures_require_bind.2 fun t₂ started h₂ => ?_
    obtain rfl := runs_ask_iff.1 h₂
    cases started with
    | error fault => exact .unstarted fault
    | ok _ =>
      refine Action.ensures_require_bind.2 fun t₃ version h₃ => ?_
      obtain rfl := runs_ask_iff.1 h₃
      cases version with
      | error fault => exact .unread fault
      | ok version => exact ensures_modify.2 (.refreshed version)

end Bringup

/-- A step stops with a fatal error, or with one that it can survive. -/
theorem Step.Stops.isFatal_or_mem {s : Step} {e : Error} (h : s.Stops (.failed e)) :
    e.isFatal = true ∨ (s, e) ∈ survivable := by
  cases h <;> decide

namespace Attempt

/-- The attempt survives a failure of its step. -/
inductive Survives (a : Attempt) : Step × Error → Prop
  /-- No console that can be used was found, and the device is not found locked. -/
  | console : a.step = .console → a.executes = true →
      (¬ ∃ node clock line, FindsConsole a.exchanges (heardBase? a.exchanges) node clock line) →
      ¬ a.FindsLocked → Survives a (.console, .consoleUnavailable)
  /-- The debug port is open, and the second watchdog was not frozen. -/
  | debugFreeze {features : Flags DebugFeature} {fault : DriverFault} : a.step = .debugPolicy →
      ⟨.debugFeatures, features⟩ ∈ a.exchanges → features.isEmpty = false →
      ⟨.freezeSecondWatchdog, .error fault⟩ ∈ a.exchanges →
      Survives a (.debugPolicy, .debugFreezeFailed)
  /-- The boot interface was not kept. -/
  | contextSave {interface : BootInterface} {index : UInt16} {fault : DriverFault} :
      a.step = .bootInterface → ⟨.saveBootInterface interface index, .error fault⟩ ∈ a.exchanges →
      Survives a (.bootInterface, .contextSaveFailed)
  /-- There is a power management chip, and it did not start again or did not tell its version. -/
  | pmicStatus {fault : DriverFault} : a.step = .pmicRefresh → ⟨.pmicPresent, true⟩ ∈ a.exchanges →
      ⟨.startPmic, .error fault⟩ ∈ a.exchanges ∨ ⟨.pmicVersion, .error fault⟩ ∈ a.exchanges →
      Survives a (.pmicRefresh, .pmicStatusUnavailable)

variable {a : Attempt} {p q : Step × Error}

theorem Survives.step_eq (h : a.Survives p) : p.1 = a.step := by
  cases h with
  | console hStep _ _ _ | debugFreeze hStep _ _ _ | contextSave hStep _ | pmicStatus hStep _ _ =>
    exact hStep.symm

theorem Survives.mem_survivable (h : a.Survives p) : p ∈ survivable := by
  cases h <;> decide

theorem eq_of_mem_survivable (hp : p ∈ survivable) (hq : q ∈ survivable) (hStep : p.1 = q.1) :
    p = q := by
  have hAll : ∀ p ∈ survivable, ∀ q ∈ survivable, p.1 = q.1 → p = q := by decide
  exact hAll p hp q hq hStep

/-- The step tells what can be survived. -/
theorem Survives.eq_of_step (h : a.Survives p) (hStep : a.step = q.1) (hq : q ∈ survivable) :
    p = q :=
  eq_of_mem_survivable h.mem_survivable hq (h.step_eq.trans hStep)

/-- An attempt survives at most one failure. -/
theorem Survives.unique (h : a.Survives p) (h' : a.Survives q) : p = q :=
  h.eq_of_step h'.step_eq.symm h'.mem_survivable

/-- What an attempt adds to the survived failures: what it survives, and then it succeeds, or
nothing. -/
inductive Degrades (a : Attempt) : Prop
  | survived {p : Step × Error} : a.Survives p → a.result = .ok () →
      a.after.report.degraded = (a.before.report.addDegraded p.1 p.2).degraded → Degrades a
  | kept : (∀ p, ¬ a.Survives p) → a.after.report.degraded = a.before.report.degraded → Degrades a

/-- Nothing is survived where the step was not executed. -/
theorem Refused.not_survives (h : a.Refused) : ¬ a.Survives p := by
  have hPrints : ∀ e ∈ a.exchanges, e.request.isEmit = true := h.prints
  intro hSurvives
  cases hSurvives with
  | console _ hExecutes _ _ =>
    rw [h.executes] at hExecutes
    cases hExecutes
  | debugFreeze _ hFeatures _ _ => cases hPrints _ hFeatures
  | contextSave _ hSave => cases hPrints _ hSave
  | pmicStatus _ hPresent _ => cases hPrints _ hPresent

section Acted

variable {started : Ledger} {acted printed : List Exchange} {x : Except Stop Unit} {c : Bringup}

/-- What is not printed was exchanged by the action. -/
theorem Acted.mem (h : a.Acted started acted printed x c) {e : Exchange} (he : e ∈ a.exchanges)
    (hSilent : e.request.isEmit = false) : e ∈ acted := by
  rw [h.exchanges] at he
  refine (List.mem_append.1 he).resolve_right fun hMem => ?_
  rw [h.prints e hMem] at hSilent
  cases hSilent

/-- An action that stops with an error that is survived adds it. -/
theorem Acted.of_survived {e : Error} (h : a.Acted started acted printed (.error (.failed e)) c)
    (hSurvived : e.isFatal = false) (hOther : a.step ≠ .debugPolicy) :
    a.result = .ok () ∧
      a.after.report.degraded = (a.before.report.addDegraded a.step e).degraded := by
  obtain ⟨hResult, log, hAfter⟩ := h.concludes.of_survived hSurvived
  have hDegraded : c.report.degraded = a.before.report.degraded :=
    h.stays.changes.degraded_eq hOther
  rw [hAfter]
  refine ⟨hResult, ?_⟩
  show (c.report.addDegraded _ _).degraded = _
  rw [Report.degraded_addDegraded, Report.degraded_addDegraded, hDegraded]

/-- An action that does not stop with an error that is survived adds nothing but on its way. -/
theorem Acted.degraded_kept (h : a.Acted started acted printed x c)
    (hFatal : ∀ e, x = .error (.failed e) → e.isFatal = true) (hOther : a.step ≠ .debugPolicy) :
    a.after.report.degraded = a.before.report.degraded :=
  (h.concludes.degraded_kept hFatal).trans (h.stays.changes.degraded_eq hOther)

theorem Acted.degrades_debugPolicy (h : a.Acted started acted printed x c)
    (hStep : a.step = .debugPolicy) : a.Degrades := by
  have hExchanges := h.exchanges
  have hMem {e : Exchange} := h.mem (e := e)
  obtain ⟨⟨rfl, hPolicy⟩, hConcludes⟩ :=
    h.ensured hStep fun _ => Bringup.ensures_applyDebugPolicy_policy
  obtain ⟨hResult, log, hAfter⟩ := hConcludes.of_ok
  have hDegraded : a.after.report.degraded = c.report.degraded := by
    rw [hAfter]
    rfl
  -- Without a freeze that failed, nothing is survived.
  have hKept (hNoFault : ∀ fault, ⟨.freezeSecondWatchdog, .error fault⟩ ∉ acted) :
      ∀ p, ¬ a.Survives p := by
    intro p hSurvives
    obtain rfl : p = (.debugPolicy, .debugFreezeFailed) :=
      hSurvives.eq_of_step hStep (by decide)
    cases hSurvives with
    | debugFreeze _ _ _ hFreeze => exact hNoFault _ (hMem hFreeze rfl)
  generalize c.report.degraded = degraded at hPolicy hDegraded
  cases hPolicy with
  | shut closed _ => exact .kept (hKept (by simp)) hDegraded
  | frozen closed _ => exact .kept (hKept (by simp)) hDegraded
  | @unfrozen features closed fault hOpen =>
    have hFeatures : ⟨.debugFeatures, features⟩ ∈ a.exchanges := by simp [hExchanges]
    have hFreeze : ⟨.freezeSecondWatchdog, .error fault⟩ ∈ a.exchanges := by simp [hExchanges]
    exact .survived (.debugFreeze hStep hFeatures hOpen hFreeze) hResult hDegraded

theorem Acted.degrades_bootInterface (h : a.Acted started acted printed x c)
    (hStep : a.step = .bootInterface) : a.Degrades := by
  have hExchanges := h.exchanges
  have hMem {e : Exchange} := h.mem (e := e)
  obtain ⟨⟨interface, index, reply, rfl, rfl⟩, -⟩ :=
    h.ensured hStep fun _ => Bringup.ensures_saveBootInterface
  have hOther : a.step ≠ .debugPolicy := by
    rw [hStep]
    decide
  cases reply with
  | ok _ =>
    refine .kept (fun p hSurvives => ?_) (h.degraded_kept nofun hOther)
    obtain rfl : p = (.bootInterface, .contextSaveFailed) :=
      hSurvives.eq_of_step hStep (by decide)
    cases hSurvives with
    | contextSave _ hSave => simpa using hMem hSave rfl
  | error fault =>
    obtain ⟨hResult, hDegraded⟩ := h.of_survived rfl hOther
    rw [hStep] at hDegraded
    have hSave : ⟨.saveBootInterface interface index, .error fault⟩ ∈ a.exchanges := by
      simp [hExchanges]
    exact .survived (.contextSave hStep hSave) hResult hDegraded

theorem Acted.degrades_pmicRefresh (h : a.Acted started acted printed x c)
    (hStep : a.step = .pmicRefresh) : a.Degrades := by
  have hExchanges := h.exchanges
  have hMem {e : Exchange} := h.mem (e := e)
  have hRefreshes : Bringup.Refreshes acted x :=
    (h.ensured hStep fun _ => Bringup.ensures_refreshPmic).1
  have hOther : a.step ≠ .debugPolicy := by
    rw [hStep]
    decide
  -- Without a fault of the chip, nothing is survived.
  have hKept (hNoFault : ∀ fault, ⟨.startPmic, .error fault⟩ ∉ acted ∧
      ⟨.pmicVersion, .error fault⟩ ∉ acted) : ∀ p, ¬ a.Survives p := by
    intro p hSurvives
    obtain rfl : p = (.pmicRefresh, .pmicStatusUnavailable) :=
      hSurvives.eq_of_step hStep (by decide)
    cases hSurvives with
    | pmicStatus _ _ hFault =>
      exact hFault.elim (fun he => (hNoFault _).1 (hMem he rfl))
        fun he => (hNoFault _).2 (hMem he rfl)
  cases hRefreshes with
  | absent => exact .kept (hKept (by simp)) (h.degraded_kept nofun hOther)
  | refreshed version => exact .kept (hKept (by simp)) (h.degraded_kept nofun hOther)
  | unstarted fault =>
    obtain ⟨hResult, hDegraded⟩ := h.of_survived rfl hOther
    rw [hStep] at hDegraded
    have hPresent : ⟨.pmicPresent, true⟩ ∈ a.exchanges := by simp [hExchanges]
    have hStart : ⟨.startPmic, .error fault⟩ ∈ a.exchanges := by simp [hExchanges]
    exact .survived (.pmicStatus hStep hPresent (.inl hStart)) hResult hDegraded
  | unread fault =>
    obtain ⟨hResult, hDegraded⟩ := h.of_survived rfl hOther
    rw [hStep] at hDegraded
    have hPresent : ⟨.pmicPresent, true⟩ ∈ a.exchanges := by simp [hExchanges]
    have hVersion : ⟨.pmicVersion, .error fault⟩ ∈ a.exchanges := by simp [hExchanges]
    exact .survived (.pmicStatus hStep hPresent (.inr hVersion)) hResult hDegraded

end Acted

/-- An attempt at any other step survives nothing. -/
theorem Acted.degrades_other {started : Ledger} {acted printed : List Exchange}
    {x : Except Stop Unit} {c : Bringup} (h : a.Acted started acted printed x c)
    (hOther : a.step ∉ survivable.map (·.1)) : a.Degrades := by
  have hNone : ∀ e, (a.step, e) ∉ survivable := fun e hMem => hOther (List.mem_map_of_mem hMem)
  have hFatal : ∀ e, x = .error (.failed e) → e.isFatal = true := fun e hError =>
    (h.stays.stops _ hError).isFatal_or_mem.resolve_right (hNone e)
  have hPolicy : a.step ≠ .debugPolicy := fun hStep => hNone .debugFreezeFailed (by
    rw [hStep]
    decide)
  refine .kept (fun p hSurvives => ?_) (h.degraded_kept hFatal hPolicy)
  have hMem : (p.1, p.2) ∈ survivable := hSurvives.mem_survivable
  rw [hSurvives.step_eq] at hMem
  exact hNone p.2 hMem

theorem SelectsConsole.degrades (h : a.SelectsConsole) (hStep : a.step = .console)
    (hExecutes : a.executes = true) : a.Degrades := by
  have hNone (hFails : a.FindsLocked ∨ ∃ node clock line,
      FindsConsole a.exchanges (heardBase? a.exchanges) node clock line) :
      ∀ p, ¬ a.Survives p := by
    intro p hSurvives
    obtain rfl : p = (.console, .consoleUnavailable) := hSurvives.eq_of_step hStep (by decide)
    cases hSurvives with
    | console _ _ hNotFound hNotLocked => exact hFails.elim hNotLocked hNotFound
  by_cases hFinds : ∃ node clock line,
      FindsConsole a.exchanges (heardBase? a.exchanges) node clock line
  · exact .kept (hNone (.inr hFinds)) (h.degraded_of_finds hFinds)
  · rcases (h.of_not_finds hFinds).2 with ⟨hLocked, -, hKept⟩ | ⟨hOpen, hResult, hDegraded⟩
    · exact .kept (hNone (.inl hLocked)) hKept
    · exact .survived (.console hStep hExecutes hFinds hOpen) hResult hDegraded

theorem Genuine.degrades (h : a.Genuine) : a.Degrades := by
  rcases h.refused_or_acted with hRefused | ⟨started, acted, printed, x, c, hActed⟩
  · obtain ⟨log, hAfter⟩ := hRefused.after
    refine .kept (fun p => hRefused.not_survives) ?_
    rw [hAfter]
    rfl
  · by_cases hConsole : a.step = .console
    · exact (h.selectsConsole hConsole hActed.executes).degrades hConsole hActed.executes
    by_cases hPolicy : a.step = .debugPolicy
    · exact hActed.degrades_debugPolicy hPolicy
    by_cases hInterface : a.step = .bootInterface
    · exact hActed.degrades_bootInterface hInterface
    by_cases hPmic : a.step = .pmicRefresh
    · exact hActed.degrades_pmicRefresh hPmic
    · exact hActed.degrades_other (by simp [survivable, *])

end Attempt

/-! ## The report -/

/-- The report lists failures that can be survived, each at its completed step and in the order in
which the steps have completed. -/
structure Bringup.Accounted (b : Bringup) : Prop where
  backed : b.ledger.Backed
  survivable : ∀ p ∈ b.report.degraded, p ∈ survivable
  ordered : (b.report.degraded.map (·.1)).Sublist b.ledger.completed
  nodup : (b.report.degraded.map (·.1)).Nodup

namespace Bringup.Accounted

variable {b : Bringup}

theorem fresh (config : Config) (context : BootContext) (patience : Nat) :
    (Bringup.fresh config context patience).Accounted where
  backed := Ledger.backed_empty
  survivable := nofun
  ordered := .slnil
  nodup := List.nodup_nil

/-- There is room for one more. -/
theorem length_lt (h : b.Accounted) : b.report.degraded.length < Report.degradedCapacity := by
  have hSubperm := (List.Nodup.of_map _ h.nodup).subperm h.survivable
  exact Nat.lt_of_le_of_lt hSubperm.length_le (by decide)

theorem degraded_addDegraded (h : b.Accounted) (p : Step × Error) :
    (b.report.addDegraded p.1 p.2).degraded = b.report.degraded ++ [p] := by
  rw [Report.degraded_addDegraded, if_pos h.length_lt]

end Bringup.Accounted

/-- An attempt reports what it survives. -/
theorem Attempt.Genuine.accounted {a : Attempt} (h : a.Genuine) (hBefore : a.before.Accounted) :
    a.after.Accounted ∧
      ∀ p, p ∈ a.after.report.degraded ↔ p ∈ a.before.report.degraded ∨ a.Survives p := by
  have hCompleted := h.ledger.completed_eq hBefore.backed
  have hBacked := h.ledger.backed hBefore.backed
  cases h.degrades with
  | @survived q hSurvives hOk hDegraded =>
    rw [hBefore.degraded_addDegraded] at hDegraded
    have hLedger := h.ledger
    rw [hOk] at hLedger
    have hNew : a.step ∉ a.before.report.degraded.map (·.1) := fun hMem =>
      (hLedger.starts hLedger.isOk_start).1 (hBefore.backed _ (hBefore.ordered.subset hMem))
    have hSteps : a.after.report.degraded.map (·.1) =
        a.before.report.degraded.map (·.1) ++ [a.step] := by
      rw [hDegraded, List.map_append, List.map_singleton, hSurvives.step_eq]
    rw [hOk] at hCompleted
    refine ⟨⟨hBacked, ?_, ?_, ?_⟩, fun p => ?_⟩
    · rw [hDegraded]
      exact List.forall_mem_append.2 ⟨hBefore.survivable,
        List.forall_mem_singleton.2 hSurvives.mem_survivable⟩
    · rw [hSteps, hCompleted]
      exact hBefore.ordered.append (.refl _)
    · rw [hSteps, ← List.concat_eq_append, List.nodup_concat]
      exact ⟨hNew, hBefore.nodup⟩
    · rw [hDegraded, List.mem_append, List.mem_singleton]
      exact or_congr_right ⟨fun hEq => hEq ▸ hSurvives, fun h => h.unique hSurvives⟩
  | kept hNone hDegraded =>
    refine ⟨⟨hBacked, ?_, ?_, ?_⟩, fun p => ?_⟩ <;> rw [hDegraded]
    · exact hBefore.survivable
    · refine hBefore.ordered.trans ?_
      rw [hCompleted]
      split
      · exact List.sublist_append_left _ _
      · exact .refl _
    · exact hBefore.nodup
    · exact (or_iff_left (hNone p)).symm

/-- The attempts of a path report what they survive. -/
theorem Path.accounted {allowed : Stage → Stage → Prop} {b c : Bringup} {attempts : List Attempt}
    (h : Path allowed b attempts c) (hb : b.Accounted) :
    c.Accounted ∧ ∀ p, p ∈ c.report.degraded ↔
      p ∈ b.report.degraded ∨ ∃ x ∈ attempts, x.Survives p := by
  induction h with
  | nil b => exact ⟨hb, by simp⟩
  | revised stage _ _ ih => exact ih ⟨hb.backed, hb.survivable, hb.ordered, hb.nodup⟩
  | @cons a attempts c ha _ ih =>
    obtain ⟨hAfter, hAttempt⟩ := ha.accounted hb
    obtain ⟨hc, hRest⟩ := ih hAfter
    refine ⟨hc, fun p => ?_⟩
    rw [hRest, hAttempt, or_assoc, List.exists_mem_cons_iff]

theorem Ledger.Parts.sublist_all {l : Ledger} {a p e : List Step} (h : l.Parts a p e) :
    l.completed.Sublist Step.all := by
  rw [h.completed]
  exact (h.architecture.sublist.append h.platform.sublist).append h.exit.sublist

/-- What can be survived at a step. -/
def Step.survivable? (s : Step) : Option (Step × Error) := survivable.find? (·.1 = s)

theorem survivable?_of_mem {p : Step × Error} (h : p ∈ survivable) :
    p.1.survivable? = some p := by
  have hAll : ∀ p ∈ survivable, p.1.survivable? = some p := by decide
  exact hAll p h

/-- Failures that can be survived are listed in nominal order if their steps are. -/
theorem sublist_survivable {l : List (Step × Error)} (h : ∀ p ∈ l, p ∈ survivable)
    (hOrdered : (l.map (·.1)).Sublist Step.all) : l.Sublist survivable := by
  have hSelf : (l.map (·.1)).filterMap Step.survivable? = l := by
    rw [List.filterMap_map]
    calc l.filterMap (Step.survivable? ∘ (·.1)) = l.filterMap some :=
          List.filterMap_congr fun p hp => survivable?_of_mem (h p hp)
      _ = l := List.filterMap_some
  have hAll : Step.all.filterMap Step.survivable? = survivable := by decide
  rw [← hSelf, ← hAll]
  exact hOrdered.filterMap _

/-- Whatever calls are made on a fresh bring-up, and however the board answers: the report lists
exactly the failures that were survived, each once and in nominal order, and their steps have
completed. -/
theorem degraded_exact {config : Config} {context : BootContext} {patience : Nat}
    {calls : List Call} {attempts : List Attempt} {b : Bringup}
    (h : Session (.fresh config context patience) calls attempts b) :
    b.report.degraded.Sublist survivable ∧
    (∀ p, p ∈ b.report.degraded ↔ ∃ x ∈ attempts, x.Survives p) ∧
    ∀ p ∈ b.report.degraded, p.1 ∈ b.ledger.completed := by
  obtain ⟨hAccounted, hExact⟩ := h.path.accounted (.fresh config context patience)
  obtain ⟨_, _, _, hParts⟩ := h.parts Ledger.Parts.empty
  refine ⟨?_, fun p => ?_, fun p hp => ?_⟩
  · exact sublist_survivable hAccounted.survivable (hAccounted.ordered.trans hParts.sublist_all)
  · rw [hExact, or_iff_right]
    exact List.not_mem_nil
  · exact hAccounted.ordered.subset (List.mem_map_of_mem hp)

/-- Replies of a board on which all goes wrong that can be survived. -/
def degradedReply : (q : Request) → q.Reply
  | .debugFeatures => .ofList [.hardware]
  | .freezeSecondWatchdog => .error .timeout
  | .saveBootInterface _ _ => .error .timeout
  | .pmicPresent => true
  | .pmicVersion => .error .timeout
  | q => usualReply 0 q

/-- On a board on which all goes wrong that can be survived, all is reported. -/
theorem degraded_exact_all :
    ∃ attempts b, Session (.fresh .standard usualContext 4) [.bringUp] attempts b ∧
      b.report.degraded = survivable ∧
      (∀ p ∈ survivable, ∃ x ∈ attempts, x.Survives p) ∧
      ∀ p ∈ survivable, p.1 ∈ b.ledger.completed := by
  obtain ⟨attempts, hSession, -⟩ := exists_session (steadyBoard degradedReply) () [.bringUp]
    (.fresh .standard usualContext 4)
  have hAll : (((callAll [.bringUp]).run (.fresh .standard usualContext 4)).exec
      (steadyBoard degradedReply) ()).1.2.report.degraded = survivable := by
    decide +kernel
  generalize (((callAll [.bringUp]).run (.fresh .standard usualContext 4)).exec
      (steadyBoard degradedReply) ()).1.2 = b at hSession hAll
  obtain ⟨-, hExact, hCompleted⟩ := degraded_exact hSession
  rw [hAll] at hExact hCompleted
  exact ⟨attempts, b, hSession, hAll, fun p hp => (hExact p).1 hp, hCompleted⟩

end BootStage
