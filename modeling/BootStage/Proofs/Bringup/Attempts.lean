import BootStage.Bringup.Run
import BootStage.Proofs.Bringup.Contracts
import BootStage.Proofs.Ledger

/-!
# Attempts at steps

An `Attempt` is one call of `Bringup.perform` with all that it read and left.  An attempt is either
refused, and then nothing but the log changes (`Attempt.Refused`), or the action of the step ran and
its outcome decided how the attempt ended (`Attempt.Acted`); there is no third way
(`Attempt.Genuine.refused_or_acted`).

Every attempt but one that meets a defect or hangs ends with printing the log: `Bringup.Flushes` says
exactly what is printed, `Bringup.Ends` how a step ends with it, and `Attempt.Prints` says so of the
whole attempt.  Most results only need that printing changes nothing but the log, and use the forms
that leave it out (`Bringup.Concludes`, `Attempt.Refused`, `Attempt.Acted`).

Of the ledger, all that counts is how the attempt ended (`Ledger.Attempted`).
-/

namespace BootStage

/-- The exchange that prints an entry. -/
def Exchange.print (entry : Log.Entry) : Exchange := ⟨.emit entry, ()⟩

namespace Bringup

theorem runs_emitAll {entries : List Log.Entry} {t : List Exchange} {u : Unit}
    (h : Runs (emitAll entries) t u) : t = entries.map .print := by
  induction entries generalizing t with
  | nil => exact (runs_pure_iff.1 h).1
  | cons entry entries ih =>
    obtain ⟨_, t₁, t₂, h₁, h₂, rfl⟩ := runs_seq_iff.1 h
    obtain rfl := runs_ask_iff.1 h₁
    rw [ih h₂]
    rfl

/-- What printing the log of `b` asks, and what it leaves. -/
inductive Flushes (b : Bringup) : List Exchange → Bringup → Prop
  | printed : b.stage.console.isFilled = true →
      Flushes b (b.stage.log.unflushed.map .print) (b.withLog b.stage.log.markFlushed)
  | kept : b.stage.console.isFilled = false → Flushes b [] b

theorem flushes_of_runs {b c : Bringup} {t : List Exchange} (h : Runs b.flushConsole t c) :
    Flushes b t c := by
  unfold flushConsole at h
  split at h
  · next hConsole =>
    obtain ⟨_, t₁, t₂, h₁, h₂, rfl⟩ := runs_seq_iff.1 h
    obtain ⟨rfl, rfl⟩ := runs_pure_iff.1 h₂
    rw [List.append_nil, runs_emitAll h₁]
    exact .printed hConsole
  · next hConsole =>
    obtain ⟨rfl, rfl⟩ := runs_pure_iff.1 h
    exact .kept (eq_false_of_ne_true hConsole)

/-- Printing the log changes nothing but the log. -/
theorem Flushes.changes_log {b c : Bringup} {t : List Exchange} (h : Flushes b t c) :
    (∀ e ∈ t, e.request.isEmit = true) ∧ ∃ log, c = b.withLog log := by
  cases h with
  | printed _ =>
    refine ⟨fun e he => ?_, _, rfl⟩
    obtain ⟨entry, -, rfl⟩ := List.mem_map.1 he
    rfl
  | kept _ => exact ⟨Action.not_mem_nil, b.stage.log, rfl⟩

/-- How a step ends whose action ended in `b`, and what is printed. -/
inductive Ends (step : Step) :
    Except Stop Unit → Bringup → List Exchange → Except Abort Unit → Bringup → Prop
  | completed {b c : Bringup} {t : List Exchange} :
      Flushes { b with ledger := b.ledger.complete step } t c → Ends step (.ok ()) b t (.ok ()) c
  | degraded {b c : Bringup} {t : List Exchange} {e : Error} : e.isFatal = false →
      Flushes { b.degrade step e with ledger := b.ledger.complete step } t c →
      Ends step (.error (.failed e)) b t (.ok ()) c
  | fatal {b c : Bringup} {t : List Exchange} {e : Error} : e.isFatal = true →
      Flushes (b.note .error [step.name, ": ", e.message]) t c →
      Ends step (.error (.failed e)) b t (.error (.fatal ⟨step, e⟩)) c
  | defect (b : Bringup) (d : Defect) :
      Ends step (.error (.defect d)) b [] (.error (.defect d)) b
  | hung (b : Bringup) : Ends step (.error .hung) b [] (.error .hung) b

/-- What is left of a step whose action ended in `c`. -/
inductive Concludes (step : Step) : Except Stop Unit → Bringup → Except Abort Unit → Bringup → Prop
  | completed (c : Bringup) (log : Log.Ring) :
      Concludes step (.ok ()) c (.ok ())
        (withLog { c with ledger := c.ledger.complete step } log)
  | degraded (c : Bringup) (e : Error) (log : Log.Ring) : e.isFatal = false →
      Concludes step (.error (.failed e)) c (.ok ())
        (withLog { c.degrade step e with ledger := c.ledger.complete step } log)
  | fatal (c : Bringup) (e : Error) (log : Log.Ring) : e.isFatal = true →
      Concludes step (.error (.failed e)) c (.error (.fatal ⟨step, e⟩)) (c.withLog log)
  | defect (c : Bringup) (d : Defect) :
      Concludes step (.error (.defect d)) c (.error (.defect d)) c
  | hung (c : Bringup) : Concludes step (.error .hung) c (.error .hung) c

/-- A fatal error ends the step, and nothing but the log changes any more. -/
theorem Concludes.of_fatal {step : Step} {e : Error} {c d : Bringup} {result : Except Abort Unit}
    (h : Concludes step (.error (.failed e)) c result d) (hFatal : e.isFatal = true) :
    result = .error (.fatal ⟨step, e⟩) ∧ ∃ log, d = c.withLog log := by
  cases h with
  | degraded _ _ log hSurvived =>
    rw [hFatal] at hSurvived
    cases hSurvived
  | fatal _ _ log _ => exact ⟨rfl, log, rfl⟩

/-- An error that can be survived completes the step, and is reported. -/
theorem Concludes.of_survived {step : Step} {e : Error} {c d : Bringup}
    {result : Except Abort Unit} (h : Concludes step (.error (.failed e)) c result d)
    (hSurvived : e.isFatal = false) :
    result = .ok () ∧ ∃ log,
      d = withLog { c.degrade step e with ledger := c.ledger.complete step } log := by
  cases h with
  | degraded _ _ log _ => exact ⟨rfl, log, rfl⟩
  | fatal _ _ log hFatal =>
    rw [hSurvived] at hFatal
    cases hFatal

/-- Unless it survives an error, the end of a step leaves the survived errors as they were. -/
theorem Concludes.degraded_kept {step : Step} {x : Except Stop Unit} {c d : Bringup}
    {result : Except Abort Unit} (h : Concludes step x c result d)
    (hFatal : ∀ e, x = .error (.failed e) → e.isFatal = true) :
    d.report.degraded = c.report.degraded := by
  cases h with
  | degraded _ e _ hSurvived =>
    rw [hFatal e rfl] at hSurvived
    cases hSurvived
  | completed _ _ | fatal _ _ _ _ | defect _ _ | hung _ => rfl

/-- An action that succeeds completes its step. -/
theorem Concludes.of_ok {step : Step} {c d : Bringup} {result : Except Abort Unit}
    (h : Concludes step (.ok ()) c result d) :
    result = .ok () ∧ ∃ log, d = withLog { c with ledger := c.ledger.complete step } log := by
  cases h with
  | completed _ log => exact ⟨rfl, log, rfl⟩

/-- Of the stage, the end of a step changes nothing but the log. -/
theorem Concludes.stage_kept {step : Step} {x : Except Stop Unit} {c d : Bringup}
    {result : Except Abort Unit} (h : Concludes step x c result d) :
    d.stage.context = c.stage.context ∧ d.stage.device = c.stage.device ∧
      d.stage.console = c.stage.console := by
  cases h <;> exact ⟨rfl, rfl, rfl⟩

/-- A defect ends the step on the spot. -/
theorem Concludes.of_defect {step : Step} {defect : Defect} {c d : Bringup}
    {result : Except Abort Unit} (h : Concludes step (.error (.defect defect)) c result d) :
    result = .error (.defect defect) ∧ d = c := by
  cases h with
  | defect _ _ => exact ⟨rfl, rfl⟩

theorem runs_abandon {b c : Bringup} {step : Step} {e : Error} {pieces : List String}
    {t : List Exchange} {result : Except Abort Unit}
    (h : Runs (b.abandon step e pieces) t (result, c)) :
    result = .error (.fatal ⟨step, e⟩) ∧ Flushes (b.note .error pieces) t c := by
  obtain ⟨d, t₁, t₂, h₁, h₂, rfl⟩ := runs_seq_iff.1 h
  obtain ⟨rfl, hEq⟩ := runs_pure_iff.1 h₂
  cases hEq
  rw [List.append_nil]
  exact ⟨rfl, flushes_of_runs h₁⟩

theorem runs_finish {b c : Bringup} {step : Step} {t : List Exchange} {result : Except Abort Unit}
    (h : Runs (b.finish step) t (result, c)) :
    result = .ok () ∧ Flushes { b with ledger := b.ledger.complete step } t c := by
  obtain ⟨d, t₁, t₂, h₁, h₂, rfl⟩ := runs_seq_iff.1 h
  obtain ⟨rfl, hEq⟩ := runs_pure_iff.1 h₂
  cases hEq
  rw [List.append_nil]
  exact ⟨rfl, flushes_of_runs h₁⟩

theorem runs_conclude {step : Step} {x : Except Stop Unit} {b c : Bringup} {t : List Exchange}
    {result : Except Abort Unit} (h : Runs (conclude step (x, b)) t (result, c)) :
    Ends step x b t result c := by
  rcases x with (e | d | _) | _
  · by_cases hFatal : e.isFatal = true
    · have hRun : conclude step (.error (.failed e), b) =
          b.abandon step e [step.name, ": ", e.message] := if_pos hFatal
      rw [hRun] at h
      obtain ⟨rfl, hFlushes⟩ := runs_abandon h
      exact .fatal hFatal hFlushes
    · have hRun : conclude step (.error (.failed e), b) = (b.degrade step e).finish step :=
        if_neg hFatal
      rw [hRun] at h
      obtain ⟨rfl, hFlushes⟩ := runs_finish h
      exact .degraded (eq_false_of_ne_true hFatal) hFlushes
  · obtain ⟨rfl, hEq⟩ := runs_pure_iff.1 h
    cases hEq
    exact .defect b d
  · obtain ⟨rfl, hEq⟩ := runs_pure_iff.1 h
    cases hEq
    exact .hung b
  · obtain ⟨rfl, hFlushes⟩ := runs_finish h
    exact .completed hFlushes

/-- Apart from the log, the way a step ends is settled by how its action ended. -/
theorem Ends.concludes {step : Step} {x : Except Stop Unit} {b c : Bringup} {t : List Exchange}
    {result : Except Abort Unit} (h : Ends step x b t result c) :
    (∀ e ∈ t, e.request.isEmit = true) ∧ Concludes step x b result c := by
  cases h with
  | completed hFlushes =>
    obtain ⟨hPrints, log, rfl⟩ := hFlushes.changes_log
    exact ⟨hPrints, .completed b log⟩
  | degraded hSurvived hFlushes =>
    obtain ⟨hPrints, log, rfl⟩ := hFlushes.changes_log
    exact ⟨hPrints, .degraded b _ log hSurvived⟩
  | fatal hFatal hFlushes =>
    obtain ⟨hPrints, log, rfl⟩ := hFlushes.changes_log
    exact ⟨hPrints, .fatal b _ log hFatal⟩
  | defect _ d => exact ⟨Action.not_mem_nil, .defect b d⟩
  | hung _ => exact ⟨Action.not_mem_nil, .hung b⟩

theorem run_perform_of_error {b : Bringup} {step : Step} {e : Error}
    (hStart : b.ledger.start step = .error e) :
    (perform step).run.run b = b.abandon step e [step.name, " started out of order"] := by
  show perform step b = _
  unfold perform
  rw [hStart]

theorem run_perform_of_ok {b : Bringup} {step : Step} {started : Ledger}
    (hStart : b.ledger.start step = .ok started) :
    (perform step).run.run b =
      step.action.run.run { b with ledger := started } >>= conclude step := by
  show perform step b = _
  unfold perform
  rw [hStart]

end Bringup

/-! ## One attempt -/

/-- A call of `Bringup.perform`: the state it found, its exchanges, how it ended and what it
left. -/
structure Attempt where
  step : Step
  before : Bringup
  exchanges : List Exchange
  result : Except Abort Unit
  after : Bringup

namespace Attempt

/-- The attempt is one that `Bringup.perform` can make. -/
def Genuine (a : Attempt) : Prop :=
  Runs ((Bringup.perform a.step).run.run a.before) a.exchanges (a.result, a.after)

/-- The ledger admits the step, so that its action is executed. -/
def executes (a : Attempt) : Bool := (a.before.ledger.start a.step).isOk

/-- The step was out of order: it failed without its action. -/
structure Refused (a : Attempt) : Prop where
  start : a.before.ledger.start a.step = .error .stepOrderViolation
  result : a.result = .error (.fatal ⟨a.step, .stepOrderViolation⟩)
  after : ∃ log, a.after = a.before.withLog log
  prints : ∀ e ∈ a.exchanges, e.request.isEmit = true

/-- The action of the step ran in `a.before` with `started` as ledger, and ended as `x` in `c`. -/
structure Acted (a : Attempt) (started : Ledger) (acted printed : List Exchange)
    (x : Except Stop Unit) (c : Bringup) : Prop where
  start : a.before.ledger.start a.step = .ok started
  runs : Runs (a.step.action.run.run { a.before with ledger := started }) acted (x, c)
  exchanges : a.exchanges = acted ++ printed
  prints : ∀ e ∈ printed, e.request.isEmit = true
  concludes : Bringup.Concludes a.step x c a.result a.after

/-- An attempt with all that it prints. -/
inductive Prints (a : Attempt) : Prop
  | refused : a.before.ledger.start a.step = .error .stepOrderViolation →
      a.result = .error (.fatal ⟨a.step, .stepOrderViolation⟩) →
      Bringup.Flushes (a.before.note .error [a.step.name, " started out of order"]) a.exchanges
        a.after → Prints a
  | acted {started : Ledger} {acted printed : List Exchange} {x : Except Stop Unit} {c : Bringup} :
      a.Acted started acted printed x c → Bringup.Ends a.step x c printed a.result a.after →
      Prints a

theorem Genuine.prints {a : Attempt} (h : a.Genuine) : a.Prints := by
  unfold Genuine at h
  cases hStart : a.before.ledger.start a.step with
  | error e =>
    rw [Bringup.run_perform_of_error hStart] at h
    obtain ⟨hResult, hFlushes⟩ := Bringup.runs_abandon h
    obtain rfl := Ledger.eq_stepOrderViolation_of_start_eq_error hStart
    exact .refused hStart hResult hFlushes
  | ok started =>
    rw [Bringup.run_perform_of_ok hStart] at h
    obtain ⟨⟨x, c⟩, acted, printed, hAct, hRest, hExchanges⟩ := runs_seq_iff.1 h
    have hEnds := Bringup.runs_conclude hRest
    obtain ⟨hPrints, hConcludes⟩ := hEnds.concludes
    exact .acted ⟨hStart, hAct, hExchanges, hPrints, hConcludes⟩ hEnds

theorem Genuine.refused_or_acted {a : Attempt} (h : a.Genuine) :
    a.Refused ∨ ∃ started acted printed x c, a.Acted started acted printed x c := by
  cases h.prints with
  | refused hStart hResult hFlushes =>
    obtain ⟨hPrints, log, hAfter⟩ := hFlushes.changes_log
    exact .inl ⟨hStart, hResult, ⟨log, hAfter⟩, hPrints⟩
  | acted hActed _ => exact .inr ⟨_, _, _, _, _, hActed⟩

variable {a : Attempt} {started : Ledger} {acted printed : List Exchange} {x : Except Stop Unit}
  {c : Bringup}

theorem Genuine.acted_of_executes (h : a.Genuine) (hExecutes : a.executes = true) :
    ∃ started acted printed x c, a.Acted started acted printed x c := by
  rcases h.refused_or_acted with hRefused | hActed
  · rw [executes, hRefused.start] at hExecutes
    cases hExecutes
  · exact hActed

theorem Refused.executes (h : a.Refused) : a.executes = false := by
  rw [Attempt.executes, h.start]
  rfl

theorem Acted.executes (h : a.Acted started acted printed x c) : a.executes = true := by
  rw [Attempt.executes, h.start]
  rfl

/-- What the action of a step ensures is so of its attempts. -/
theorem Acted.ensured {s : Step} (h : a.Acted started acted printed x c) (hStep : a.step = s)
    {P : Bringup → List Exchange → Except Stop Unit → Bringup → Prop}
    (hAction : ∀ b, Ensures s.action b (P b)) :
    P { a.before with ledger := started } acted x c ∧
      Bringup.Concludes s x c a.result a.after := by
  subst hStep
  exact ⟨hAction _ _ _ _ h.runs, h.concludes⟩

theorem Acted.stays (h : a.Acted started acted printed x c) :
    a.step.contract.Met { a.before with ledger := started } acted x c :=
  stays_action a.step _ acted x c h.runs

/-- What an attempt keeps apart from the ledger and the hand-off. -/
theorem Genuine.kept (h : a.Genuine) :
    a.after.config = a.before.config ∧ a.after.patience = a.before.patience ∧
      (a.step ≠ .memoryProtection → a.step ≠ .dramMapping →
        a.after.memoryMap = a.before.memoryMap) := by
  rcases h.refused_or_acted with hRefused | ⟨started, acted, printed, x, c, hActed⟩
  · obtain ⟨log, hAfter⟩ := hRefused.after
    rw [hAfter]
    exact ⟨rfl, rfl, fun _ _ => rfl⟩
  · have hChanges := hActed.stays.changes
    have hConcludes := hActed.concludes
    have hEnd : a.after.config = c.config ∧ a.after.patience = c.patience ∧
        a.after.memoryMap = c.memoryMap := by
      generalize a.result = result, a.after = after at hConcludes ⊢
      cases hConcludes <;> exact ⟨rfl, rfl, rfl⟩
    obtain ⟨hConfig, hPatience, hMap⟩ := hEnd
    exact ⟨hConfig.trans hChanges.config, hPatience.trans hChanges.patience,
      fun hProtect hDram => hMap.trans (hChanges.memoryMap hProtect hDram)⟩

/-- What an attempt keeps of the state of the stage. -/
theorem Genuine.stage_kept (h : a.Genuine) :
    a.after.stage.context = a.before.stage.context ∧
      (a.step ≠ .clockTree → a.after.stage.device = a.before.stage.device) ∧
      (a.step ≠ .console → a.after.stage.console = a.before.stage.console) := by
  rcases h.refused_or_acted with hRefused | ⟨started, acted, printed, x, c, hActed⟩
  · obtain ⟨log, hAfter⟩ := hRefused.after
    rw [hAfter]
    exact ⟨rfl, fun _ => rfl, fun _ => rfl⟩
  · have hChanges := hActed.stays.changes
    obtain ⟨hContext, hDevice, hConsole⟩ := hActed.concludes.stage_kept
    exact ⟨hContext.trans hChanges.context, fun hOther => hDevice.trans (hChanges.device hOther),
      fun hOther => hConsole.trans (hChanges.console hOther)⟩

theorem Genuine.config (h : a.Genuine) : a.after.config = a.before.config := h.kept.1

/-- An attempt that fails names its step and a fatal error. -/
theorem Genuine.isFatal (h : a.Genuine) {failure : FatalError}
    (hResult : a.result = .error (.fatal failure)) :
    failure.step = a.step ∧ failure.error.isFatal = true := by
  rcases h.refused_or_acted with hRefused | ⟨started, acted, printed, x, c, hActed⟩
  · rw [hRefused.result] at hResult
    cases hResult
    exact ⟨rfl, rfl⟩
  · have hConcludes := hActed.concludes
    rw [hResult] at hConcludes
    generalize a.after = after at hConcludes
    cases hConcludes with
    | fatal _ e log hFatal => exact ⟨rfl, hFatal⟩

/-- An attempt that does not execute the action only prints. -/
theorem Genuine.prints_of_not_executes (h : a.Genuine) (hNot : a.executes = false) :
    ∀ e ∈ a.exchanges, e.request.isEmit = true := by
  rcases h.refused_or_acted with hRefused | ⟨_, _, _, _, _, hActed⟩
  · exact hRefused.prints
  · rw [hActed.executes] at hNot
    cases hNot

/-- Requests other than printing belong to the step, and its action was executed. -/
theorem Genuine.asks_of_mem (h : a.Genuine) {e : Exchange} (he : e ∈ a.exchanges)
    (hSilent : e.request.isEmit = false) : a.executes = true ∧ a.step.Asks e.request := by
  rcases h.refused_or_acted with hRefused | ⟨started, acted, printed, x, c, hActed⟩
  · exact absurd (hRefused.prints e he) (by simp [hSilent])
  · refine ⟨hActed.executes, ?_⟩
    rw [hActed.exchanges] at he
    rcases List.mem_append.1 he with he | he
    · exact hActed.stays.asks e he
    · exact absurd (hActed.prints e he) (by simp [hSilent])

theorem Genuine.exit_of_sealBuses (h : a.Genuine) {e : Exchange} (he : e ∈ a.exchanges)
    (hRequest : e.request = .sealBuses) : a.step = .prepareExit ∧ a.executes = true := by
  obtain ⟨hExecutes, hAsks⟩ := h.asks_of_mem he (by rw [hRequest]; rfl)
  rw [hRequest] at hAsks
  exact ⟨Step.eq_prepareExit_of_asks_sealBuses hAsks, hExecutes⟩

end Attempt

/-! ## The ledger -/

/-- What an attempt at `s` makes of a ledger. -/
inductive Ledger.Attempted (s : Step) : Ledger → Except Abort Unit → Ledger → Prop
  | refused {l : Ledger} : l.start s = .error .stepOrderViolation →
      Attempted s l (.error (.fatal ⟨s, .stepOrderViolation⟩)) l
  | stopped {l m : Ledger} (abort : Abort) : l.start s = .ok m → Attempted s l (.error abort) m
  | completed {l m : Ledger} : l.start s = .ok m → Attempted s l (.ok ()) (m.complete s)

theorem Attempt.Genuine.ledger {a : Attempt} (h : a.Genuine) :
    Ledger.Attempted a.step a.before.ledger a.result a.after.ledger := by
  rcases h.refused_or_acted with hRefused | ⟨started, acted, printed, x, c, hActed⟩
  · obtain ⟨log, hAfter⟩ := hRefused.after
    rw [hRefused.result, hAfter]
    exact .refused hRefused.start
  · have hLedger : c.ledger = started := hActed.stays.changes.ledger
    have hConcludes := hActed.concludes
    generalize a.result = result, a.after = after at hConcludes ⊢
    cases hConcludes with
    | completed _ log =>
      show Ledger.Attempted a.step _ (.ok ()) (c.ledger.complete a.step)
      rw [hLedger]
      exact .completed hActed.start
    | degraded _ e log _ =>
      show Ledger.Attempted a.step _ (.ok ()) (c.ledger.complete a.step)
      rw [hLedger]
      exact .completed hActed.start
    | fatal _ e log _ =>
      show Ledger.Attempted a.step _ _ c.ledger
      rw [hLedger]
      exact .stopped _ hActed.start
    | defect _ d =>
      rw [hLedger]
      exact .stopped _ hActed.start
    | hung _ =>
      rw [hLedger]
      exact .stopped _ hActed.start

namespace Ledger.Attempted

variable {s : Step} {l m : Ledger} {result : Except Abort Unit}

theorem backed (h : Attempted s l result m) (hl : l.Backed) : m.Backed := by
  cases h with
  | refused _ => exact hl
  | stopped _ hStart => exact hl.start hStart
  | completed hStart => exact hl.complete_of_start hStart

/-- A step starts when the ledger admits an attempt at it. -/
theorem mem_started {q : Step} (h : Attempted s l result m) (hq : q ∈ m.started) :
    q ∈ l.started ∨ q = s ∧ (l.start s).isOk = true := by
  have hAdmitted {m' : Ledger} (hStart : l.start s = .ok m') (hq : q ∈ m'.started) :
      q ∈ l.started ∨ q = s ∧ (l.start s).isOk = true := by
    have hOk : (l.start s).isOk = true := by
      rw [hStart]
      rfl
    obtain ⟨-, -, rfl⟩ := start_eq_ok_iff.1 hStart
    exact (List.mem_cons.1 hq).symm.imp_right fun hEq => ⟨hEq, hOk⟩
  cases h with
  | refused _ => exact .inl hq
  | stopped _ hStart => exact hAdmitted hStart hq
  | completed hStart =>
    rw [started_complete] at hq
    exact hAdmitted hStart hq

theorem started_subset (h : Attempted s l result m) : l.started ⊆ m.started := by
  cases h with
  | refused _ => exact List.Subset.refl _
  | stopped _ hStart => exact started_subset_of_start hStart
  | completed hStart =>
    rw [started_complete]
    exact started_subset_of_start hStart

/-- An attempt at a step that the ledger admits starts the step. -/
theorem starts (h : Attempted s l result m) (hStart : (l.start s).isOk = true) :
    s ∉ l.started ∧ s ∈ m.started ∧ ∀ p ∈ s.prerequisites, p ∈ l.completed := by
  have hAdmitted {m : Ledger} (h : l.start s = .ok m) :
      s ∉ l.started ∧ s ∈ m.started ∧ ∀ p ∈ s.prerequisites, p ∈ l.completed := by
    obtain ⟨hNew, hPrerequisites, rfl⟩ := start_eq_ok_iff.1 h
    exact ⟨hNew, List.mem_cons_self, hPrerequisites⟩
  cases h with
  | refused hRefused =>
    rw [hRefused] at hStart
    cases hStart
  | stopped _ h => exact hAdmitted h
  | completed h =>
    rw [started_complete]
    exact hAdmitted h

/-- Completed steps stay completed, and only the step itself can be added. -/
theorem completed_eq (h : Attempted s l result m) (hl : l.Backed) :
    m.completed = if result.isOk then l.completed ++ [s] else l.completed := by
  cases h with
  | refused _ => rfl
  | stopped _ hStart =>
    obtain ⟨-, -, rfl⟩ := start_eq_ok_iff.1 hStart
    rfl
  | completed hStart =>
    rw [hl.complete_start hStart]
    rfl

/-- What has completed had done so before, or it is the step and the attempt succeeded. -/
theorem completed_by {q : Step} (h : Attempted s l result m) (hq : q ∈ m.completed) :
    q ∈ l.completed ∨ q = s ∧ result = .ok () := by
  cases h with
  | refused _ => exact .inl hq
  | stopped _ hStart =>
    obtain ⟨-, -, rfl⟩ := start_eq_ok_iff.1 hStart
    exact .inl hq
  | completed hStart =>
    obtain ⟨-, -, rfl⟩ := start_eq_ok_iff.1 hStart
    exact (mem_completed_complete hq).imp_right fun hEq => ⟨hEq, rfl⟩

/-- An attempt that succeeds was admitted. -/
theorem isOk_start (h : Attempted s l (.ok ()) m) : (l.start s).isOk = true := by
  cases h with
  | completed hStart =>
    rw [hStart]
    rfl

theorem founded (h : Attempted s l result m) (hl : l.Backed) (hFounded : l.Founded) :
    m.Founded := by
  have hCompleted := h.completed_eq hl
  intro q hq p hp
  rw [hCompleted] at hq ⊢
  cases result with
  | error abort => exact hFounded q hq p hp
  | ok _ =>
    rcases List.mem_append.1 hq with hq | hq
    · exact List.mem_append_left _ (hFounded q hq p hp)
    · rw [List.mem_singleton.1 hq] at hp
      exact List.mem_append_left _ ((h.starts h.isOk_start).2.2 p hp)

end Ledger.Attempted

end BootStage
