import BootStage.Proofs.Bringup.Attempts
import BootStage.Proofs.Boards

/-!
# Calls on one bring-up

The phases are lists of steps that are attempted in turn (`Attempts`), and the calls of a course are
phases that are run one after the other on what the one before left (`Course`).  Between two calls
the state of the stage may be changed from outside, as far as the course allows: most results are
about a `Session`, which allows every change, and some need that a part of the stage is left alone.

Whatever the calls, a course is a `Path`: a chain of attempts.  What every attempt and every allowed
change keep is kept by the path (`Path.preserves`).  A `Trail` is a path that allows every change.
-/

namespace BootStage

variable {allowed : Stage → Stage → Prop}

/-! ## Paths -/

/-- Attempts one after the other; in between, the state of the stage may change as allowed. -/
inductive Path (allowed : Stage → Stage → Prop) : Bringup → List Attempt → Bringup → Prop
  | nil (b : Bringup) : Path allowed b [] b
  | revised {b c : Bringup} {attempts : List Attempt} (stage : Stage) : allowed b.stage stage →
      Path allowed { b with stage } attempts c → Path allowed b attempts c
  | cons {a : Attempt} {attempts : List Attempt} {c : Bringup} :
      a.Genuine → Path allowed a.after attempts c → Path allowed a.before (a :: attempts) c

/-- Attempts one after the other; in between, the state of the stage may change in any way. -/
abbrev Trail : Bringup → List Attempt → Bringup → Prop := Path fun _ _ => True

namespace Path

variable {b c d : Bringup} {attempts attempts' earlier later : List Attempt} {a : Attempt}

theorem append (h : Path allowed b attempts c) (h' : Path allowed c attempts' d) :
    Path allowed b (attempts ++ attempts') d := by
  induction h with
  | nil b => exact h'
  | revised stage hAllowed _ ih => exact .revised stage hAllowed (ih h')
  | cons ha _ ih => exact .cons ha (ih h')

/-- What every attempt and every allowed change of the stage keeps. -/
theorem preserves {I : Bringup → Prop}
    (hStage : ∀ (b : Bringup) stage, allowed b.stage stage → I b → I { b with stage })
    (hAttempt : ∀ a : Attempt, a.Genuine → I a.before → I a.after)
    (h : Path allowed b attempts c) (hb : I b) : I c := by
  induction h with
  | nil b => exact hb
  | revised stage hAllowed _ ih => exact ih (hStage _ stage hAllowed hb)
  | cons ha _ ih => exact ih (hAttempt _ ha hb)

/-- A path can be cut in front of an attempt. -/
theorem split (h : Path allowed b (earlier ++ a :: later) c) :
    Path allowed b earlier a.before ∧ a.Genuine ∧ Path allowed a.after later c := by
  generalize hAll : earlier ++ a :: later = attempts at h
  induction h generalizing earlier with
  | nil b => simp at hAll
  | revised stage hAllowed _ ih =>
    obtain ⟨hEarlier, hGenuine, hLater⟩ := ih hAll
    exact ⟨.revised stage hAllowed hEarlier, hGenuine, hLater⟩
  | @cons a' attempts c ha' hRest ih =>
    cases earlier with
    | nil =>
      cases hAll
      exact ⟨.nil _, ha', hRest⟩
    | cons first earlier =>
      obtain ⟨rfl, hRest'⟩ := List.cons.inj hAll
      obtain ⟨hEarlier, hGenuine, hLater⟩ := ih hRest'
      exact ⟨.cons ha' hEarlier, hGenuine, hLater⟩

/-- A path can be cut at each of its attempts. -/
theorem split_at_mem (h : Path allowed b attempts c) (ha : a ∈ attempts) :
    ∃ earlier later, attempts = earlier ++ a :: later ∧ Path allowed b earlier a.before ∧
      a.Genuine ∧ Path allowed a.after later c := by
  obtain ⟨earlier, later, rfl⟩ := List.append_of_mem ha
  exact ⟨earlier, later, rfl, h.split⟩

theorem genuine_of_mem (h : Path allowed b attempts c) (ha : a ∈ attempts) : a.Genuine := by
  obtain ⟨_, _, _, _, hGenuine, _⟩ := h.split_at_mem ha
  exact hGenuine

theorem backed (h : Path allowed b attempts c) (hb : b.ledger.Backed) : c.ledger.Backed :=
  h.preserves (I := fun b => b.ledger.Backed) (fun _ _ _ hb => hb)
    (fun _ ha hBefore => ha.ledger.backed hBefore) hb

theorem founded (h : Path allowed b attempts c) (hb : b.ledger.Backed)
    (hFounded : b.ledger.Founded) : c.ledger.Founded :=
  (h.preserves (I := fun b => b.ledger.Backed ∧ b.ledger.Founded) (fun _ _ _ hb => hb)
    (fun _ ha hBefore => ⟨ha.ledger.backed hBefore.1, ha.ledger.founded hBefore.1 hBefore.2⟩)
    ⟨hb, hFounded⟩).2

theorem config (h : Path allowed b attempts c) : c.config = b.config :=
  h.preserves (I := fun d => d.config = b.config) (fun _ _ _ hd => hd)
    (fun _ ha hBefore => ha.config.trans hBefore) rfl

theorem started_subset (h : Path allowed b attempts c) : b.ledger.started ⊆ c.ledger.started :=
  h.preserves (I := fun d => b.ledger.started ⊆ d.ledger.started) (fun _ _ _ hd => hd)
    (fun _ ha hBefore => List.Subset.trans hBefore ha.ledger.started_subset) (List.Subset.refl _)

/-- A step starts in an attempt that executes it. -/
theorem started_by {s : Step} (h : Path allowed b attempts c) (hs : s ∈ c.ledger.started) :
    s ∈ b.ledger.started ∨ ∃ a ∈ attempts, a.step = s ∧ a.executes = true := by
  induction h with
  | nil b => exact .inl hs
  | revised stage _ _ ih => exact ih hs
  | @cons a attempts c ha _ ih =>
    rcases ih hs with hAfter | ⟨x, hx, hStep, hExecutes⟩
    · exact (ha.ledger.mem_started hAfter).imp_right fun ⟨hStep, hExecutes⟩ =>
        ⟨a, List.mem_cons_self, hStep.symm, hExecutes⟩
    · exact .inr ⟨x, List.mem_cons_of_mem a hx, hStep, hExecutes⟩

/-- A step completes in an attempt that succeeds. -/
theorem completed_by {s : Step} (h : Path allowed b attempts c) (hs : s ∈ c.ledger.completed) :
    s ∈ b.ledger.completed ∨ ∃ a ∈ attempts, a.step = s ∧ a.result = .ok () := by
  induction h with
  | nil b => exact .inl hs
  | revised stage _ _ ih => exact ih hs
  | @cons a attempts c ha _ ih =>
    rcases ih hs with hAfter | ⟨x, hx, hStep, hOk⟩
    · exact (ha.ledger.completed_by hAfter).imp_right fun ⟨hStep, hOk⟩ =>
        ⟨a, List.mem_cons_self, hStep.symm, hOk⟩
    · exact .inr ⟨x, List.mem_cons_of_mem a hx, hStep, hOk⟩

end Path

/-! ## Phases -/

/-- Steps attempted in turn from `b`, up to the first attempt that does not succeed. -/
inductive Attempts : List Step → Bringup → List Attempt → Except Abort Unit → Bringup → Prop
  | done (b : Bringup) : Attempts [] b [] (.ok ()) b
  | stopped {a : Attempt} {steps : List Step} {abort : Abort} :
      a.Genuine → a.result = .error abort →
      Attempts (a.step :: steps) a.before [a] (.error abort) a.after
  | next {a : Attempt} {steps : List Step} {attempts : List Attempt} {result : Except Abort Unit}
      {c : Bringup} :
      a.Genuine → a.result = .ok () → Attempts steps a.after attempts result c →
      Attempts (a.step :: steps) a.before (a :: attempts) result c

/-- Nothing comes between the attempts of a phase: they are a path, whatever is allowed. -/
theorem Attempts.path {steps : List Step} {b c : Bringup} {attempts : List Attempt}
    {result : Except Abort Unit} (h : Attempts steps b attempts result c) :
    Path allowed b attempts c := by
  induction h with
  | done b => exact .nil b
  | stopped ha _ => exact .cons ha (.nil _)
  | next ha _ _ ih => exact .cons ha ih

theorem Attempts.trail {steps : List Step} {b c : Bringup} {attempts : List Attempt}
    {result : Except Abort Unit} (h : Attempts steps b attempts result c) :
    Trail b attempts c :=
  h.path

theorem Attempts.step_mem {steps : List Step} {b c : Bringup} {attempts : List Attempt}
    {result : Except Abort Unit} {a : Attempt} (h : Attempts steps b attempts result c)
    (ha : a ∈ attempts) : a.step ∈ steps := by
  induction h with
  | done b => cases ha
  | stopped _ _ =>
    rw [List.mem_singleton.1 ha]
    exact List.mem_cons_self
  | next _ _ _ ih =>
    rcases List.mem_cons.1 ha with rfl | ha
    · exact List.mem_cons_self
    · exact List.mem_cons_of_mem _ (ih ha)

/-- A phase of two parts either stops in the first or goes through both. -/
theorem Attempts.split_append {steps steps' : List Step} {b c : Bringup} {attempts : List Attempt}
    {result : Except Abort Unit} (h : Attempts (steps ++ steps') b attempts result c) :
    Attempts steps b attempts result c ∨
      ∃ d first second, attempts = first ++ second ∧ Attempts steps b first (.ok ()) d ∧
        Attempts steps' d second result c := by
  induction steps generalizing b attempts with
  | nil => exact .inr ⟨b, [], attempts, rfl, .done b, h⟩
  | cons step steps ih =>
    cases h with
    | stopped ha hResult => exact .inl (.stopped ha hResult)
    | next ha hResult hRest =>
      rcases ih hRest with hFirst | ⟨d, first, second, rfl, hFirst, hSecond⟩
      · exact .inl (.next ha hResult hFirst)
      · exact .inr ⟨d, _ :: first, second, rfl, .next ha hResult hFirst, hSecond⟩

theorem Attempts.before_eq_of_singleton {s : Step} {b c : Bringup} {attempts : List Attempt}
    {result : Except Abort Unit} {a : Attempt} (h : Attempts [s] b attempts result c)
    (ha : a ∈ attempts) : a.before = b := by
  cases h with
  | stopped _ _ => rw [List.mem_singleton.1 ha]
  | next _ _ hRest =>
    cases hRest
    rw [List.mem_singleton.1 ha]

/-- A phase that succeeds attempts all of its steps. -/
theorem Attempts.map_step {steps : List Step} {b c : Bringup} {attempts : List Attempt}
    (h : Attempts steps b attempts (.ok ()) c) : attempts.map (·.step) = steps := by
  generalize hResult : Except.ok () = result at h
  induction h with
  | done b => rfl
  | stopped _ _ => cases hResult
  | next _ _ _ ih => rw [List.map_cons, ih hResult]

/-- A phase that succeeds completes all of its steps. -/
theorem Attempts.completed {steps : List Step} {b c : Bringup} {attempts : List Attempt}
    (h : Attempts steps b attempts (.ok ()) c) (hb : b.ledger.Backed) :
    c.ledger.completed = b.ledger.completed ++ steps := by
  generalize hResult : Except.ok () = result at h
  induction h with
  | done b => exact (List.append_nil _).symm
  | stopped _ _ => cases hResult
  | @next a steps attempts result c ha hOk _ ih =>
    rw [ih (ha.ledger.backed hb) hResult, ha.ledger.completed_eq hb, hOk]
    exact List.append_assoc _ [a.step] steps

/-- An attempt comes after successful attempts at all the steps before its own. -/
theorem Attempts.succeeded_before {steps : List Step} {b c : Bringup} {attempts : List Attempt}
    {result : Except Abort Unit} {a : Attempt} (h : Attempts steps b attempts result c)
    (ha : a ∈ attempts) :
    ∃ before after, steps = before ++ a.step :: after ∧
      ∀ s ∈ before, ∃ x ∈ attempts, x.step = s ∧ x.result = .ok () := by
  induction h with
  | done b => cases ha
  | @stopped x steps abort hx hResult =>
    rw [List.mem_singleton.1 ha]
    exact ⟨[], steps, rfl, fun s hs => nomatch hs⟩
  | @next x steps attempts result c hx hResult _ ih =>
    rcases List.mem_cons.1 ha with rfl | ha
    · exact ⟨[], steps, rfl, fun s hs => nomatch hs⟩
    · obtain ⟨before, after, rfl, hBefore⟩ := ih ha
      refine ⟨x.step :: before, after, rfl, fun s hs => ?_⟩
      rcases List.mem_cons.1 hs with rfl | hs
      · exact ⟨x, List.mem_cons_self, rfl, hResult⟩
      · obtain ⟨y, hy, hStep, hOk⟩ := hBefore s hs
        exact ⟨y, List.mem_cons_of_mem x hy, hStep, hOk⟩

/-- What stands before a step in a list that does not repeat it. -/
theorem eq_takeWhile_of_eq_append {steps before after : List Step} {s : Step}
    (hNodup : steps.Nodup) (h : steps = before ++ s :: after) :
    before = steps.takeWhile (· ≠ s) := by
  rw [h] at hNodup ⊢
  have hOther : ∀ p ∈ before, decide (p ≠ s) = true := fun p hp =>
    decide_eq_true ((List.nodup_append.1 hNodup).2.2 p hp s List.mem_cons_self)
  rw [List.takeWhile_append_of_pos hOther, List.takeWhile_cons_of_neg (by simp), List.append_nil]

/-- A phase that does not succeed stops at its last attempt; those before it succeeded. -/
theorem Attempts.stops_at {steps : List Step} {b c : Bringup} {attempts : List Attempt}
    {abort : Abort} (h : Attempts steps b attempts (.error abort) c) :
    ∃ x earlier after, steps = earlier.map (·.step) ++ x.step :: after ∧
      attempts = earlier ++ [x] ∧ Attempts (earlier.map (·.step)) b earlier (.ok ()) x.before ∧
      x.Genuine ∧ x.result = .error abort ∧ x.after = c := by
  generalize hResult : Except.error abort = result at h
  induction h with
  | done b => cases hResult
  | @stopped a steps abort' ha hStop =>
    cases hResult
    exact ⟨a, [], steps, rfl, rfl, .done _, ha, hStop, rfl⟩
  | @next a steps attempts result c ha hOk _ ih =>
    obtain ⟨x, earlier, after, rfl, rfl, hEarlier, hx, hStop, hAfter⟩ := ih hResult
    exact ⟨x, a :: earlier, after, rfl, rfl, .next ha hOk hEarlier, hx, hStop, hAfter⟩

namespace Bringup

theorem performAll_append (steps steps' : List Step) :
    performAll (steps ++ steps') = performAll steps >>= fun _ => performAll steps' := by
  induction steps with
  | nil =>
    show performAll steps' = (pure () : Phase Unit) >>= fun _ => performAll steps'
    rw [pure_bind]
  | cons step steps ih =>
    show (perform step >>= fun _ => performAll (steps ++ steps')) =
      (perform step >>= fun _ => performAll steps) >>= fun _ => performAll steps'
    rw [bind_assoc, ih]

theorem run_performAll_cons (step : Step) (steps : List Step) (b : Bringup) :
    (performAll (step :: steps)).run.run b = (perform step).run.run b >>= fun p =>
      match p.1 with
      | .ok _ => (performAll steps).run.run p.2
      | .error abort => pure (.error abort, p.2) := by
  show (perform step).run.run b >>= _ = _
  congr 1
  funext ⟨x, c⟩
  cases x <;> rfl

/-- The runs of a phase are the chains of attempts at its steps. -/
theorem runs_performAll_iff {steps : List Step} {b c : Bringup} {t : List Exchange}
    {result : Except Abort Unit} :
    Runs ((performAll steps).run.run b) t (result, c) ↔
      ∃ attempts, Attempts steps b attempts result c ∧ t = attempts.flatMap (·.exchanges) := by
  induction steps generalizing b t with
  | nil =>
    constructor
    · intro h
      obtain ⟨rfl, hEq⟩ := runs_pure_iff.1 h
      cases hEq
      exact ⟨[], .done _, rfl⟩
    · rintro ⟨attempts, h, rfl⟩
      cases h
      exact .done _
  | cons step steps ih =>
    rw [run_performAll_cons]
    constructor
    · intro h
      obtain ⟨⟨x, d⟩, t₁, t₂, h₁, h₂, rfl⟩ := runs_seq_iff.1 h
      let a : Attempt := ⟨step, b, t₁, x, d⟩
      have ha : a.Genuine := h₁
      cases x with
      | ok _ =>
        obtain ⟨attempts, hRest, rfl⟩ := ih.1 h₂
        exact ⟨a :: attempts, .next ha rfl hRest, rfl⟩
      | error abort =>
        obtain ⟨rfl, hEq⟩ := runs_pure_iff.1 h₂
        cases hEq
        exact ⟨[a], .stopped ha rfl, by simp [a]⟩
    · rintro ⟨attempts, h, rfl⟩
      cases h with
      | @stopped a _ abort ha hResult =>
        refine runs_seq_iff.2 ⟨_, a.exchanges, [], ha, ?_, by simp⟩
        rw [hResult]
        exact .done _
      | @next a _ attempts _ _ ha hResult hRest =>
        refine runs_seq_iff.2 ⟨_, a.exchanges, _, ha, ?_, List.flatMap_cons⟩
        rw [hResult]
        exact ih.2 ⟨attempts, hRest, rfl⟩

end Bringup

/-! ## Calls -/

/-- The entry points.  `Bringup.bringUpOrHalt` is `Bringup.bringUp` with another result
(`Bringup.runs_bringUpOrHalt_iff`). -/
inductive Call
  | setUpArchitecture
  | setUpPlatform
  | bringUp
  | prepareExit
  deriving DecidableEq

namespace Call

def run : Call → Phase Unit
  | setUpArchitecture => Bringup.setUpArchitecture
  | setUpPlatform => Bringup.setUpPlatform
  | bringUp => Bringup.bringUp
  | prepareExit => Bringup.prepareExit

/-- The steps that the call attempts in turn. -/
def steps : Call → List Step
  | setUpArchitecture => Step.architecture
  | setUpPlatform => Step.platform
  | bringUp => Step.architecture ++ Step.platform
  | prepareExit => [.prepareExit]

theorem run_eq_performAll (call : Call) : call.run = Bringup.performAll call.steps := by
  cases call with
  | setUpArchitecture => rfl
  | setUpPlatform => rfl
  | bringUp => exact (Bringup.performAll_append Step.architecture Step.platform).symm
  | prepareExit => exact (bind_pure (Bringup.perform .prepareExit)).symm

theorem runs_iff {call : Call} {b c : Bringup} {t : List Exchange} {result : Except Abort Unit} :
    Runs (call.run.run.run b) t (result, c) ↔
      ∃ attempts, Attempts call.steps b attempts result c ∧ t = attempts.flatMap (·.exchanges) := by
  rw [run_eq_performAll]
  exact Bringup.runs_performAll_iff

end Call

theorem Bringup.runs_bringUpOrHalt_iff {b c : Bringup} {t : List Exchange} {ending : Ending} :
    Runs b.bringUpOrHalt t (ending, c) ↔
      ∃ result, Runs (Bringup.bringUp.run.run b) t (result, c) ∧ ending = .ofResult result := by
  unfold Bringup.bringUpOrHalt
  constructor
  · intro h
    obtain ⟨⟨result, d⟩, t₁, t₂, h₁, h₂, rfl⟩ := runs_seq_iff.1 h
    obtain ⟨rfl, hEq⟩ := runs_pure_iff.1 h₂
    cases hEq
    rw [List.append_nil]
    exact ⟨result, h₁, rfl⟩
  · rintro ⟨result, h, rfl⟩
    exact runs_seq_iff.2 ⟨_, t, [], h, .done _, (List.append_nil t).symm⟩

/-! ## Courses -/

/-- Calls one after the other; in between, the state of the stage may change as allowed. -/
inductive Course (allowed : Stage → Stage → Prop) :
    Bringup → List Call → List Attempt → Bringup → Prop
  | nil (b : Bringup) : Course allowed b [] [] b
  | revised {b c : Bringup} {calls : List Call} {attempts : List Attempt} (stage : Stage) :
      allowed b.stage stage → Course allowed { b with stage } calls attempts c →
      Course allowed b calls attempts c
  | cons {call : Call} {b c d : Bringup} {attempts attempts' : List Attempt} {calls : List Call}
      {result : Except Abort Unit} :
      Attempts call.steps b attempts result c → Course allowed c calls attempts' d →
      Course allowed b (call :: calls) (attempts ++ attempts') d

/-- Calls one after the other; in between, the state of the stage may change in any way. -/
abbrev Session : Bringup → List Call → List Attempt → Bringup → Prop := Course fun _ _ => True

namespace Course

variable {b c : Bringup} {calls : List Call} {attempts : List Attempt}

theorem path (h : Course allowed b calls attempts c) : Path allowed b attempts c := by
  induction h with
  | nil b => exact .nil b
  | revised stage hAllowed _ ih => exact .revised stage hAllowed ih
  | cons hCall _ ih => exact hCall.path.append ih

/-- An attempt comes in its call after successful attempts at all the steps before its own. -/
theorem succeeded_before {a : Attempt} (h : Course allowed b calls attempts c)
    (ha : a ∈ attempts) :
    ∃ call before after, Call.steps call = before ++ a.step :: after ∧
      ∀ s ∈ before, ∃ x ∈ attempts, x.step = s ∧ x.result = .ok () := by
  induction h with
  | nil b => cases ha
  | revised stage _ _ ih => exact ih ha
  | @cons call b c d attempts attempts' calls result hCall _ ih =>
    rcases List.mem_append.1 ha with ha | ha
    · obtain ⟨before, after, hSteps, hBefore⟩ := hCall.succeeded_before ha
      refine ⟨call, before, after, hSteps, fun s hs => ?_⟩
      obtain ⟨x, hx, hStep, hOk⟩ := hBefore s hs
      exact ⟨x, List.mem_append_left _ hx, hStep, hOk⟩
    · obtain ⟨call', before, after, hSteps, hBefore⟩ := ih ha
      refine ⟨call', before, after, hSteps, fun s hs => ?_⟩
      obtain ⟨x, hx, hStep, hOk⟩ := hBefore s hs
      exact ⟨x, List.mem_append_right _ hx, hStep, hOk⟩

end Course

/-! ## Courses on a board -/

/-- Make calls one after the other, whatever they return. -/
def callAll : List Call → StateT Bringup Program Unit
  | [] => pure ()
  | call :: calls => do
    let _ ← call.run.run
    callAll calls

/-- Calls that nothing comes between are a course, whatever is allowed. -/
theorem Course.of_runs_callAll (allowed : Stage → Stage → Prop) {calls : List Call} {b c : Bringup}
    {t : List Exchange} (h : Runs ((callAll calls).run b) t ((), c)) :
    ∃ attempts, Course allowed b calls attempts c ∧ t = attempts.flatMap (·.exchanges) := by
  induction calls generalizing b t with
  | nil =>
    obtain ⟨rfl, hEq⟩ := runs_pure_iff.1 h
    cases hEq
    exact ⟨[], .nil _, rfl⟩
  | cons call calls ih =>
    obtain ⟨⟨result, d⟩, t₁, t₂, h₁, h₂, rfl⟩ := runs_seq_iff.1 h
    obtain ⟨attempts, hCall, rfl⟩ := Call.runs_iff.1 h₁
    obtain ⟨attempts', hRest, rfl⟩ := ih h₂
    exact ⟨attempts ++ attempts', .cons hCall hRest, List.flatMap_append.symm⟩

/-- The calls that a board answers are a course, whatever is allowed. -/
theorem exists_course (allowed : Stage → Stage → Prop) {σ : Type} (board : Board σ) (s : σ)
    (calls : List Call) (b : Bringup) :
    ∃ attempts, Course allowed b calls attempts (((callAll calls).run b).exec board s).1.2 ∧
      ((callAll calls).run b).transcript board s = attempts.flatMap (·.exchanges) :=
  Course.of_runs_callAll allowed (Program.runs_transcript board _ s)

theorem exists_session {σ : Type} (board : Board σ) (s : σ) (calls : List Call) (b : Bringup) :
    ∃ attempts, Session b calls attempts (((callAll calls).run b).exec board s).1.2 ∧
      ((callAll calls).run b).transcript board s = attempts.flatMap (·.exchanges) :=
  exists_course _ board s calls b

end BootStage
