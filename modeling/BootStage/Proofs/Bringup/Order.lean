import BootStage.Proofs.Bringup.Sessions

/-!
# Steps complete in nominal order

Whatever calls are made on a bring-up, its completed steps are a part of the architecture phase, a
part of the platform phase and possibly the exit, in nominal order (`session_in_order`).

The prerequisites do not imply that, since some steps are prerequisites of none.  What does is that
a phase can be entered only once: its first step has started from then on, and every later attempt
at the phase is refused there.  `Ledger.Parts` is the invariant that says so.
-/

namespace BootStage

/-- The completed steps are `a`, `p` and `e` of the three phases; of a phase whose first step has
not started nothing is complete. -/
structure Ledger.Parts (l : Ledger) (a p e : List Step) : Prop where
  backed : l.Backed
  completed : l.completed = a ++ p ++ e
  architecture : a <+: Step.architecture
  platform : p <+: Step.platform
  exit : e <+: [.prepareExit]
  exit_last : e ≠ [] → a = Step.architecture ∧ p = Step.platform
  not_entered : .fuseProbe ∉ l.started → l.completed = []
  platform_not_entered : .dramProbe ∉ l.started → p = []
  exit_not_entered : .prepareExit ∉ l.started → e = []

/-- A list of steps is complete once its last step is. -/
theorem eq_concat_of_mem {done : List Step} (steps : List Step) {s : Step}
    (hDone : done <+: steps ++ [s]) (hs : s ∈ done) (hLast : s ∉ steps) : done = steps ++ [s] := by
  rcases List.prefix_concat_iff.1 hDone with hEq | hPrefix
  · exact hEq
  · exact absurd (hPrefix.subset hs) hLast

namespace Ledger.Parts

theorem empty : Ledger.empty.Parts [] [] [] where
  backed := backed_empty
  completed := rfl
  architecture := List.nil_prefix
  platform := List.nil_prefix
  exit := List.nil_prefix
  exit_last := fun h => absurd rfl h
  not_entered := fun _ => rfl
  platform_not_entered := fun _ => rfl
  exit_not_entered := fun _ => rfl

variable {l m : Ledger} {a p e : List Step}

/-- Steps that only start change nothing about the parts. -/
theorem of_completed_eq (h : l.Parts a p e) (hBacked : m.Backed)
    (hCompleted : m.completed = l.completed) (hStarted : l.started ⊆ m.started) :
    m.Parts a p e where
  backed := hBacked
  completed := hCompleted.trans h.completed
  architecture := h.architecture
  platform := h.platform
  exit := h.exit
  exit_last := h.exit_last
  not_entered := fun hNew => hCompleted.trans (h.not_entered fun hs => hNew (hStarted hs))
  platform_not_entered := fun hNew => h.platform_not_entered fun hs => hNew (hStarted hs)
  exit_not_entered := fun hNew => h.exit_not_entered fun hs => hNew (hStarted hs)

theorem mem_completed (h : l.Parts a p e) {s : Step} (hs : s ∈ l.completed) :
    s ∈ a ∨ s ∈ p ∨ s = .prepareExit := by
  rw [h.completed, List.append_assoc, List.mem_append, List.mem_append] at hs
  rcases hs with hs | hs | hs
  · exact .inl hs
  · exact .inr (.inl hs)
  · exact .inr (.inr (List.mem_singleton.1 (h.exit.subset hs)))

theorem architecture_eq (h : l.Parts a p e) (hs : .ioSetup ∈ l.completed) :
    a = Step.architecture := by
  rcases h.mem_completed hs with hs | hs | hs
  · exact eq_concat_of_mem Step.architecture.dropLast h.architecture hs (by decide)
  · exact absurd (h.platform.subset hs) (by decide)
  · cases hs

theorem platform_eq (h : l.Parts a p e) (hs : .dramMapping ∈ l.completed) :
    p = Step.platform := by
  rcases h.mem_completed hs with hs | hs | hs
  · exact absurd (h.architecture.subset hs) (by decide)
  · exact eq_concat_of_mem Step.platform.dropLast h.platform hs (by decide)
  · cases hs

/-- Where the exit may still start, all other steps and nothing else have completed. -/
theorem completed_eq_of_exit (h : l.Parts a p e) (hNew : .prepareExit ∉ l.started)
    (hPrerequisites : ∀ s ∈ Step.prepareExit.prerequisites, s ∈ l.completed) :
    a = Step.architecture ∧ p = Step.platform ∧ e = [] :=
  ⟨h.architecture_eq (hPrerequisites .ioSetup (by decide)),
    h.platform_eq (hPrerequisites .dramMapping (by decide)), h.exit_not_entered hNew⟩

end Ledger.Parts

/-! ## What a phase adds -/

/-- A phase completes its steps in order. -/
theorem Attempts.completed_eq {steps : List Step} {b c : Bringup} {attempts : List Attempt}
    {result : Except Abort Unit} (h : Attempts steps b attempts result c) (hb : b.ledger.Backed) :
    ∃ done, done <+: steps ∧ c.ledger.completed = b.ledger.completed ++ done := by
  induction h with
  | done b => exact ⟨[], List.nil_prefix, (List.append_nil _).symm⟩
  | @stopped a steps abort ha hResult =>
    refine ⟨[], List.nil_prefix, ?_⟩
    rw [ha.ledger.completed_eq hb, hResult, List.append_nil]
    rfl
  | @next a steps attempts result c ha hResult _ ih =>
    obtain ⟨done, hDone, hCompleted⟩ := ih (ha.ledger.backed hb)
    refine ⟨a.step :: done, (List.prefix_cons_inj a.step).2 hDone, ?_⟩
    rw [hCompleted, ha.ledger.completed_eq hb, hResult]
    simp [Except.isOk, Except.toBool]

section Phases

variable {b c : Bringup} {attempts : List Attempt} {result : Except Abort Unit} {a p e : List Step}

/-- A phase is entered: its first step was new and admitted, and has started since. -/
structure Enters (s : Step) (b c : Bringup) : Prop where
  new : s ∉ b.ledger.started
  started : s ∈ c.ledger.started
  prerequisites : ∀ q ∈ s.prerequisites, q ∈ b.ledger.completed

/-- A phase that is not entered leaves the parts as they are. -/
theorem Attempts.parts_or_enters {s : Step} {steps : List Step}
    (h : Attempts (s :: steps) b attempts result c) (hb : b.ledger.Parts a p e) :
    c.ledger.Parts a p e ∨ Enters s b c := by
  have hBacked := h.trail.backed hb.backed
  have hStarted := h.trail.started_subset
  cases h with
  | @stopped x _ abort hx hResult =>
    refine .inl (hb.of_completed_eq hBacked ?_ hStarted)
    rw [hx.ledger.completed_eq hb.backed, hResult]
    rfl
  | @next x _ attempts _ _ hx hResult hRest =>
    have hAttempted := hx.ledger
    rw [hResult] at hAttempted
    obtain ⟨hNew, hFirst, hPrerequisites⟩ := hAttempted.starts hAttempted.isOk_start
    exact .inr ⟨hNew, hRest.trail.started_subset hFirst, hPrerequisites⟩

theorem Attempts.parts_of_architecture (h : Attempts Step.architecture b attempts result c)
    (hb : b.ledger.Parts a p e) : ∃ a p e, c.ledger.Parts a p e := by
  rcases h.parts_or_enters hb with hSame | hEnters
  · exact ⟨a, p, e, hSame⟩
  obtain ⟨done, hDone, hCompleted⟩ := h.completed_eq hb.backed
  rw [hb.not_entered hEnters.new] at hCompleted
  exact ⟨done, [], [], {
    backed := h.trail.backed hb.backed
    completed := by rw [hCompleted]; simp
    architecture := hDone
    platform := List.nil_prefix
    exit := List.nil_prefix
    exit_last := fun h => absurd rfl h
    not_entered := fun hOut => absurd hEnters.started hOut
    platform_not_entered := fun _ => rfl
    exit_not_entered := fun _ => rfl }⟩

theorem Attempts.parts_of_platform (h : Attempts Step.platform b attempts result c)
    (hb : b.ledger.Parts a p e) : ∃ a p e, c.ledger.Parts a p e := by
  have hStarted := h.trail.started_subset
  rcases h.parts_or_enters hb with hSame | hEnters
  · exact ⟨a, p, e, hSame⟩
  obtain ⟨done, hDone, hCompleted⟩ := h.completed_eq hb.backed
  obtain rfl := hb.platform_not_entered hEnters.new
  have hNoExit : e = [] := by
    by_cases hExit : e = []
    · exact hExit
    · have hPlatform := (hb.exit_last hExit).2
      cases hPlatform
  subst hNoExit
  refine ⟨a, done, [], {
    backed := h.trail.backed hb.backed
    completed := by rw [hCompleted, hb.completed]; simp
    architecture := hb.architecture
    platform := hDone
    exit := List.nil_prefix
    exit_last := fun h => absurd rfl h
    not_entered := fun hOut => ?_
    platform_not_entered := fun hOut => absurd hEnters.started hOut
    exit_not_entered := fun _ => rfl }⟩
  -- The clock tree has completed, so the architecture phase was entered.
  have hClock := hEnters.prerequisites .clockTree (by decide)
  rw [hb.not_entered fun hs => hOut (hStarted hs)] at hClock
  cases hClock

theorem Attempts.parts_of_exit (h : Attempts [.prepareExit] b attempts result c)
    (hb : b.ledger.Parts a p e) : ∃ a p e, c.ledger.Parts a p e := by
  have hStarted := h.trail.started_subset
  rcases h.parts_or_enters hb with hSame | hEnters
  · exact ⟨a, p, e, hSame⟩
  obtain ⟨done, hDone, hCompleted⟩ := h.completed_eq hb.backed
  obtain ⟨hArchitecture, hPlatform, rfl⟩ :=
    hb.completed_eq_of_exit hEnters.new hEnters.prerequisites
  exact ⟨a, p, done, {
    backed := h.trail.backed hb.backed
    completed := by rw [hCompleted, hb.completed]; simp
    architecture := hb.architecture
    platform := hb.platform
    exit := hDone
    exit_last := fun _ => ⟨hArchitecture, hPlatform⟩
    not_entered := fun hOut => by
      have hNone := hb.not_entered fun hs => hOut (hStarted hs)
      rw [hb.completed, hArchitecture] at hNone
      cases hNone
    platform_not_entered := fun hOut => hb.platform_not_entered fun hs => hOut (hStarted hs)
    exit_not_entered := fun hOut => absurd hEnters.started hOut }⟩

theorem Attempts.parts {call : Call} (h : Attempts call.steps b attempts result c)
    (hb : b.ledger.Parts a p e) : ∃ a p e, c.ledger.Parts a p e := by
  cases call with
  | setUpArchitecture => exact h.parts_of_architecture hb
  | setUpPlatform => exact h.parts_of_platform hb
  | bringUp =>
    rcases h.split_append with hFirst | ⟨d, first, second, -, hFirst, hSecond⟩
    · exact hFirst.parts_of_architecture hb
    · obtain ⟨a', p', e', hd⟩ := hFirst.parts_of_architecture hb
      exact hSecond.parts_of_platform hd
  | prepareExit => exact h.parts_of_exit hb

end Phases

/-! ## Sessions -/

theorem Session.parts {b c : Bringup} {calls : List Call} {attempts : List Attempt}
    {a p e : List Step} (h : Session b calls attempts c) (hb : b.ledger.Parts a p e) :
    ∃ a p e, c.ledger.Parts a p e := by
  induction h generalizing a p e with
  | nil b => exact ⟨a, p, e, hb⟩
  | revised stage _ _ ih => exact ih hb
  | cons hCall _ ih =>
    obtain ⟨a', p', e', hc⟩ := hCall.parts hb
    exact ih hc

/-- The exit is executed only where all other steps have completed. -/
theorem Session.before_exit {b c : Bringup} {calls : List Call} {attempts : List Attempt}
    {a p e : List Step} (h : Session b calls attempts c) (hb : b.ledger.Parts a p e) :
    ∀ x ∈ attempts, x.step = .prepareExit → x.executes = true →
      x.before.ledger.completed = Step.architecture ++ Step.platform := by
  induction h generalizing a p e with
  | nil b =>
    intro x hx
    cases hx
  | revised stage _ _ ih => exact ih hb
  | @cons call b c d attempts attempts' calls result hCall _ ih =>
    intro x hx hStep hExecutes
    rcases List.mem_append.1 hx with hx | hx
    · obtain rfl : call = .prepareExit := by
        have hMem := hCall.step_mem hx
        rw [hStep] at hMem
        revert hMem
        cases call <;> decide
      have hBefore := hCall.before_eq_of_singleton hx
      obtain ⟨hNew, -, hPrerequisites⟩ := (hCall.trail.genuine_of_mem hx).ledger.starts hExecutes
      rw [hStep, hBefore] at hNew hPrerequisites
      obtain ⟨hArchitecture, hPlatform, hExit⟩ := hb.completed_eq_of_exit hNew hPrerequisites
      rw [hBefore, hb.completed, hArchitecture, hPlatform, hExit, List.append_nil]
    · obtain ⟨a', p', e', hc⟩ := hCall.parts hb
      exact ih hc x hx hStep hExecutes

/-- The steps whose action was executed. -/
def executed (attempts : List Attempt) : List Step := (attempts.filter (·.executes)).map (·.step)

/-- No action is executed twice, and none of a step that had started before. -/
theorem Path.executed_nodup {allowed : Stage → Stage → Prop} {b c : Bringup}
    {attempts : List Attempt} (h : Path allowed b attempts c) :
    (executed attempts).Nodup ∧ ∀ s ∈ executed attempts, s ∉ b.ledger.started := by
  induction h with
  | nil b => exact ⟨List.nodup_nil, fun s hs => by cases hs⟩
  | revised stage _ _ ih => exact ih
  | @cons a attempts c ha _ ih =>
    obtain ⟨hNodup, hNew⟩ := ih
    have hOlder : ∀ s ∈ executed attempts, s ∉ a.before.ledger.started := fun s hs hStarted =>
      hNew s hs (ha.ledger.started_subset hStarted)
    cases hExecutes : a.executes with
    | false =>
      have hSame : executed (a :: attempts) = executed attempts := by simp [executed, hExecutes]
      rw [hSame]
      exact ⟨hNodup, hOlder⟩
    | true =>
      have hMore : executed (a :: attempts) = a.step :: executed attempts := by
        simp [executed, hExecutes]
      obtain ⟨hFirst, hStarted, -⟩ := ha.ledger.starts hExecutes
      rw [hMore]
      refine ⟨List.nodup_cons.2 ⟨fun hs => hNew _ hs hStarted, hNodup⟩, fun s hs => ?_⟩
      rcases List.mem_cons.1 hs with rfl | hs
      · exact hFirst
      · exact hOlder s hs

/-- Whatever calls are made on a fresh bring-up, and however the board answers: the steps complete
in nominal order, phase by phase; no action is executed twice, and an attempt that does not execute
one only prints; and the buses are sealed only when all other steps have completed. -/
theorem session_in_order {config : Config} {context : BootContext} {patience : Nat}
    {calls : List Call} {attempts : List Attempt} {b : Bringup}
    (h : Session (.fresh config context patience) calls attempts b) :
    (∃ a p e, b.ledger.completed = a ++ p ++ e ∧ a <+: Step.architecture ∧ p <+: Step.platform ∧
      e <+: [.prepareExit] ∧ (e ≠ [] → a = Step.architecture ∧ p = Step.platform)) ∧
    (executed attempts).Nodup ∧
    (∀ x ∈ attempts, x.executes = false → ∀ e ∈ x.exchanges, e.request.isEmit = true) ∧
    ∀ x ∈ attempts, (∃ e ∈ x.exchanges, e.request = .sealBuses) →
      x.step = .prepareExit ∧ x.before.ledger.completed = Step.architecture ++ Step.platform := by
  have hFresh : (Bringup.fresh config context patience).ledger.Parts [] [] [] :=
    Ledger.Parts.empty
  refine ⟨?_, h.path.executed_nodup.1, fun x hx hNot => ?_, fun x hx hSeals => ?_⟩
  · obtain ⟨a, p, e, hParts⟩ := h.parts hFresh
    exact ⟨a, p, e, hParts.completed, hParts.architecture, hParts.platform, hParts.exit,
      hParts.exit_last⟩
  · exact (h.path.genuine_of_mem hx).prints_of_not_executes hNot
  · obtain ⟨e, he, hRequest⟩ := hSeals
    obtain ⟨hStep, hExecutes⟩ := (h.path.genuine_of_mem hx).exit_of_sealBuses he hRequest
    exact ⟨hStep, h.before_exit hFresh x hx hStep hExecutes⟩

/-- The calls of a boot that is told twice to do everything, and once too early to leave. -/
def impatientCalls : List Call := [.prepareExit, .bringUp, .prepareExit, .bringUp, .prepareExit]

/-- On a board that works, all steps complete once, and the exit is the last. -/
theorem impatientCalls_in_order :
    ∃ attempts b, Session (.fresh .standard usualContext 4) impatientCalls attempts b ∧
      b.ledger.completed = Step.all ∧ (executed attempts).Nodup ∧
      ∃ x ∈ attempts, x.step = .prepareExit ∧
        x.before.ledger.completed = Step.architecture ++ Step.platform := by
  obtain ⟨attempts, hSession, hExchanges⟩ :=
    exists_session usualBoard 0 impatientCalls (.fresh .standard usualContext 4)
  have hAll : (((callAll impatientCalls).run
      (.fresh .standard usualContext 4)).exec usualBoard 0).1.2.ledger.completed = Step.all := by
    decide +kernel
  have hSealed : Request.sealBuses ∈ (((callAll impatientCalls).run
      (.fresh .standard usualContext 4)).transcript usualBoard 0).map (·.request) := by
    decide +kernel
  rw [hExchanges] at hSealed
  -- Only the ledger of the state that is left may be computed.
  generalize (((callAll impatientCalls).run
      (.fresh .standard usualContext 4)).exec usualBoard 0).1.2 = b at hSession hAll
  obtain ⟨-, hNodup, -, hSeals⟩ := session_in_order hSession
  obtain ⟨e, he, hRequest⟩ := List.mem_map.1 hSealed
  obtain ⟨x, hx, hMem⟩ := List.mem_flatMap.1 he
  exact ⟨attempts, b, hSession, hAll, hNodup, x, hx, hSeals x hx ⟨e, hMem, hRequest⟩⟩

end BootStage
