import BootStage.Proofs.Bringup.Sessions
import BootStage.Proofs.Counter
import BootStage.Proofs.Fuse

/-!
# No rollback over the lifetime of a device

The life of a device is a list of boots that share one fuse word.  Once a firmware got as far as
opening the image source, no older firmware ever does (`lifetime_without_rollback`).

A boot that completes the anti-rollback step found a word with at most as many bits set as its
version and left one with at least as many (`Boot.version_between`).  Words only gain bits, so the
versions that complete the step never decrease, and nothing later completes without it.
-/

namespace BootStage

/-! ## The anti-rollback step -/

/-- The action of the step is the check, and ends as the check does. -/
theorem ensures_enforceVersion (b : Bringup) :
    Ensures Bringup.enforceVersion b fun t x _ => ∃ result log,
      Runs (Counter.enforce b.config.firmwareVersion b.stage.log) t (result, log) ∧
        x = (result.map fun _ => ()).mapError .failed := by
  refine ensures_get_bind.2 (ensures_lift_bind.2 fun t answer hRuns => ?_)
  obtain ⟨result, log⟩ := answer
  rw [← List.append_nil t] at hRuns
  refine ensures_modify_bind.2 ?_
  cases result with
  | error e => exact ensures_bind.2 (ensures_throw.2 ⟨.error e, log, hRuns, rfl⟩)
  | ok outcome =>
    exact ensures_bind.2 (ensures_pure.2 (ensures_modify.2 ⟨.ok outcome, log, hRuns, rfl⟩))

/-- A read of the counter that did not work. -/
inductive Exchange.FailsRead : Exchange → Prop
  | index (fault : DriverFault) : FailsRead ⟨.counterIndex, .error fault⟩
  | word (fault : DriverFault) : FailsRead ⟨.counterWord, .error fault⟩

namespace Attempt

variable {a : Attempt} {w w' : UInt32} {words : List UInt32}

/-- An attempt at the anti-rollback step that was not refused checked the counter first, and ended
as the check did. -/
theorem Genuine.checks (h : a.Genuine) (hStep : a.step = .antiRollback)
    (hExecutes : a.executes = true) :
    ∃ checked printed log result log', a.exchanges = checked ++ printed ∧
      Runs (Counter.enforce a.before.config.firmwareVersion log) checked (result, log') ∧
      a.result = (result.map fun _ => ()).mapError fun e => .fatal ⟨.antiRollback, e⟩ := by
  obtain ⟨started, acted, printed, x, c, hActed⟩ := h.acted_of_executes hExecutes
  obtain ⟨⟨result, log', hCheck, rfl⟩, hConcludes⟩ :=
    hActed.ensured hStep ensures_enforceVersion
  refine ⟨acted, printed, _, result, log', hActed.exchanges, hCheck, ?_⟩
  cases result with
  | ok outcome => exact hConcludes.of_ok.1
  | error e => exact (hConcludes.of_fatal (Counter.enforced_of_runs hCheck).isFatal).1

theorem Genuine.enforced (h : a.Genuine) (hStep : a.step = .antiRollback)
    (hExecutes : a.executes = true) :
    ∃ checked printed result, a.exchanges = checked ++ printed ∧
      Counter.Enforced a.before.config.firmwareVersion checked result ∧
      (∀ outcome, result = .ok outcome → a.result = .ok ()) ∧
      ∀ e, result = .error e → a.result = .error (.fatal ⟨.antiRollback, e⟩) := by
  obtain ⟨checked, printed, _, result, _, hExchanges, hCheck, hResult⟩ := h.checks hStep hExecutes
  refine ⟨checked, printed, result, hExchanges, Counter.enforced_of_runs hCheck, ?_, ?_⟩
  · rintro outcome rfl
    exact hResult
  · rintro e rfl
    exact hResult

/-- The step succeeds only if the check did. -/
theorem Genuine.checks_of_ok (h : a.Genuine) (hStep : a.step = .antiRollback)
    (hOk : a.result = .ok ()) :
    ∃ checked log outcome log', checked <+: a.exchanges ∧
      Runs (Counter.enforce a.before.config.firmwareVersion log) checked (.ok outcome, log') := by
  have hLedger := h.ledger
  rw [hOk] at hLedger
  obtain ⟨checked, printed, log, result, log', hExchanges, hCheck, hResult⟩ :=
    h.checks hStep hLedger.isOk_start
  rw [hOk] at hResult
  cases result with
  | ok outcome =>
    exact ⟨checked, log, outcome, log', hExchanges ▸ List.prefix_append checked printed, hCheck⟩
  | error e => cases hResult

/-- The step succeeds only if the word records at most the version before and at least the version
after. -/
theorem Genuine.version_between (h : a.Genuine) (hStep : a.step = .antiRollback)
    (hExecutes : a.executes = true) (hResult : a.result = .ok ())
    (hFuse : Fuse.Evolves w a.exchanges words w') :
    bitCount w ≤ a.before.config.firmwareVersion.number ∧
      a.before.config.firmwareVersion.number ≤ bitCount w' := by
  obtain ⟨checked, printed, result, hExchanges, hEnforced, -, hFails⟩ := h.enforced hStep hExecutes
  rw [hExchanges] at hFuse
  obtain ⟨words₁, words₂, middle, -, hChecked, hPrinted⟩ := hFuse.split
  have hLater := hPrinted.bitCount_le
  suffices bitCount w ≤ a.before.config.firmwareVersion.number ∧
      a.before.config.firmwareVersion.number ≤ bitCount middle by omega
  cases result with
  | error e =>
    rw [hFails e rfl] at hResult
    cases hResult
  | ok outcome =>
    cases hEnforced with
    | upToDate index stored hSame =>
      obtain ⟨_, hRead⟩ := hChecked.of_counterIndex
      obtain ⟨rfl, _⟩ := hRead.of_read
      have hGrown := hChecked.bitCount_le
      omega
    | advanced index stored written hNew hCount =>
      obtain ⟨_, hRead⟩ := hChecked.of_counterIndex
      obtain ⟨rfl, _, hProgram⟩ := hRead.of_read
      obtain ⟨burnt, _, -, hReadBack⟩ := hProgram.of_programmed
      obtain ⟨rfl, _⟩ := hReadBack.of_read
      have hGrown := hReadBack.bitCount_le
      omega

/-- An older firmware is turned away as a rollback if the fuses can be read. -/
theorem Genuine.rollbackAttempted (h : a.Genuine) (hStep : a.step = .antiRollback)
    (hExecutes : a.executes = true) (hFuse : Fuse.Evolves w a.exchanges words w')
    (hOld : a.before.config.firmwareVersion.number < bitCount w)
    (hReads : ∀ e ∈ a.exchanges, ¬ e.FailsRead) :
    a.result = .error (.fatal ⟨.antiRollback, .rollbackAttempted⟩) := by
  obtain ⟨checked, printed, result, hExchanges, hEnforced, -, hFails⟩ := h.enforced hStep hExecutes
  rw [hExchanges] at hFuse hReads
  obtain ⟨words₁, words₂, middle, -, hChecked, -⟩ := hFuse.split
  have hStored {index stored : UInt32} {t : List Exchange}
      (hEq : checked = ⟨.counterIndex, .ok index⟩ :: ⟨.counterWord, .ok stored⟩ :: t) :
      stored = w := by
    rw [hEq] at hChecked
    obtain ⟨_, hRead⟩ := hChecked.of_counterIndex
    exact hRead.of_read.1
  cases hEnforced with
  | noIndex fault => exact absurd (.index fault) (hReads _ List.mem_cons_self)
  | noWord index fault =>
    exact absurd (.word fault) (hReads _ (List.mem_cons_of_mem _ List.mem_cons_self))
  | tooOld index stored _ => exact hFails _ rfl
  | upToDate index stored hSame =>
    rw [hStored rfl] at hSame
    omega
  | notProgrammed index stored _ hNew =>
    rw [hStored rfl] at hNew
    omega
  | notReadBack index stored _ hNew =>
    rw [hStored rfl] at hNew
    omega
  | miscounted index stored _ hNew _ =>
    rw [hStored rfl] at hNew
    omega
  | advanced index stored _ hNew _ =>
    rw [hStored rfl] at hNew
    omega

end Attempt

/-! ## One boot -/

/-- A path along which the anti-rollback step completes found at most the version recorded, and
leaves at least the version recorded. -/
theorem Path.version_between {allowed : Stage → Stage → Prop} {b c : Bringup}
    {attempts : List Attempt} {w w' : UInt32} {words : List UInt32}
    (h : Path allowed b attempts c) (hb : b.ledger.Backed)
    (hFuse : Fuse.Evolves w (attempts.flatMap (·.exchanges)) words w')
    (hBefore : .antiRollback ∉ b.ledger.completed) (hAfter : .antiRollback ∈ c.ledger.completed) :
    bitCount w ≤ b.config.firmwareVersion.number ∧
      b.config.firmwareVersion.number ≤ bitCount w' := by
  induction h generalizing w words with
  | nil b => exact absurd hAfter hBefore
  | revised stage _ _ ih => exact ih hb hFuse hBefore hAfter
  | @cons a attempts c ha hRest ih =>
    rw [List.flatMap_cons] at hFuse
    obtain ⟨words₁, words₂, middle, -, hFirst, hLater⟩ := hFuse.split
    by_cases hDone : .antiRollback ∈ a.after.ledger.completed
    · have hAttempted := ha.ledger
      rw [hAttempted.completed_eq hb] at hDone
      cases hResult : a.result with
      | error abort =>
        rw [hResult] at hDone
        exact absurd hDone hBefore
      | ok _ =>
        rw [hResult] at hDone hAttempted
        rcases List.mem_append.1 hDone with hDone | hDone
        · exact absurd hDone hBefore
        · have hStep := (List.mem_singleton.1 hDone).symm
          obtain ⟨hLower, hUpper⟩ :=
            ha.version_between hStep hAttempted.isOk_start hResult hFirst
          have hGrown := hLater.bitCount_le
          omega
    · obtain ⟨hLower, hUpper⟩ := ih (ha.ledger.backed hb) hLater hDone hAfter
      have hGrown := hFirst.bitCount_le
      rw [ha.config] at hLower hUpper
      omega

/-- The first steps of a call that was not finished. -/
def Underway (b : Bringup) (attempts : List Attempt) (c : Bringup) : Prop :=
  ∃ (call : Call) (n : Nat), Attempts (call.steps.take n) b attempts (.ok ()) c

/-- A boot: calls on a fresh bring-up and, if the power went during a last one, the attempts that
it had finished and the exchanges of the one that it had not. -/
structure Boot where
  config : Config
  context : BootContext
  patience : Nat
  calls : List Call
  attempts : List Attempt
  /-- What the last finished attempt left. -/
  final : Bringup
  cut : List Exchange

namespace Boot

/-- The boot is one that can happen. -/
def Genuine (boot : Boot) : Prop :=
  ∃ settled earlier later,
    Session (.fresh boot.config boot.context boot.patience) boot.calls earlier settled ∧
      Underway settled later boot.final ∧ boot.attempts = earlier ++ later

def exchanges (boot : Boot) : List Exchange := boot.attempts.flatMap (·.exchanges) ++ boot.cut

/-- Version of the firmware that the boot runs. -/
def version (boot : Boot) : Nat := boot.config.firmwareVersion.number

variable {boot : Boot} {w w' : UInt32} {words : List UInt32}

theorem Genuine.trail (h : boot.Genuine) :
    Trail (.fresh boot.config boot.context boot.patience) boot.attempts boot.final := by
  obtain ⟨settled, earlier, later, hSession, ⟨call, n, hUnderway⟩, hAttempts⟩ := h
  rw [hAttempts]
  exact hSession.path.append hUnderway.trail

theorem version_between (h : boot.Genuine) (hFuse : Fuse.Evolves w boot.exchanges words w')
    (hDone : .antiRollback ∈ boot.final.ledger.completed) :
    bitCount w ≤ boot.version ∧ boot.version ≤ bitCount w' := by
  obtain ⟨words₁, words₂, middle, -, hAttempts, hCut⟩ := hFuse.split
  have hBetween := h.trail.version_between Ledger.backed_empty hAttempts (by nofun) hDone
  obtain ⟨hLower, hUpper⟩ : bitCount w ≤ boot.version ∧ boot.version ≤ bitCount middle := hBetween
  have hGrown := hCut.bitCount_le
  omega

/-- Opening the image source and leaving the stage both need the anti-rollback step. -/
theorem antiRollback_of_ioSetup (h : boot.Genuine)
    (hDone : .ioSetup ∈ boot.final.ledger.completed) :
    .antiRollback ∈ boot.final.ledger.completed :=
  h.trail.founded Ledger.backed_empty Ledger.founded_empty .ioSetup hDone .antiRollback (by decide)

theorem ioSetup_of_prepareExit (h : boot.Genuine)
    (hDone : .prepareExit ∈ boot.final.ledger.completed) :
    .ioSetup ∈ boot.final.ledger.completed :=
  h.trail.founded Ledger.backed_empty Ledger.founded_empty .prepareExit hDone .ioSetup (by decide)

/-- Firmware older than the word records gets no further than the anti-rollback step, which turns
it away if the fuses can be read. -/
structure Barred (boot : Boot) : Prop where
  ioSetup : .ioSetup ∉ boot.final.ledger.completed
  prepareExit : .prepareExit ∉ boot.final.ledger.completed
  result : ∀ a ∈ boot.attempts, a.step = .antiRollback → a.executes = true →
    (∀ e ∈ a.exchanges, ¬ e.FailsRead) →
      a.result = .error (.fatal ⟨.antiRollback, .rollbackAttempted⟩)

theorem barred_of_version_lt (h : boot.Genuine) (hFuse : Fuse.Evolves w boot.exchanges words w')
    (hOld : boot.version < bitCount w) : boot.Barred := by
  have hIncomplete : .antiRollback ∉ boot.final.ledger.completed := fun hDone => by
    have hLower := (version_between h hFuse hDone).1
    omega
  have hClosed : .ioSetup ∉ boot.final.ledger.completed := fun hDone =>
    hIncomplete (antiRollback_of_ioSetup h hDone)
  refine ⟨hClosed, fun hDone => hClosed (ioSetup_of_prepareExit h hDone), ?_⟩
  intro a ha hStep hExecutes hReads
  obtain ⟨earlier, later, hAttempts, hEarlier, hGenuine, -⟩ := h.trail.split_at_mem ha
  unfold exchanges at hFuse
  rw [hAttempts, List.flatMap_append, List.flatMap_cons, List.append_assoc,
    List.append_assoc] at hFuse
  obtain ⟨_, _, found, -, hBefore, hFrom⟩ := hFuse.split
  obtain ⟨_, _, _, -, hAttempt, -⟩ := hFrom.split
  have hGrown := hBefore.bitCount_le
  have hVersion : a.before.config.firmwareVersion.number = boot.version :=
    congrArg (·.firmwareVersion.number) hEarlier.config
  exact hGenuine.rollbackAttempted hStep hExecutes hAttempt (by omega) hReads

end Boot

/-! ## Many boots -/

/-- Over the life of a device, whatever its boots are given, told and answered, the number of set
bits in the counter word never decreases; and once a boot has completed the opening of the image
source, every later boot of older firmware is barred from it and from the exit. -/
theorem lifetime_without_rollback {boots : List Boot} {w w' : UInt32} {words : List UInt32}
    (hBoots : ∀ boot ∈ boots, boot.Genuine)
    (hFuse : Fuse.Evolves w (boots.flatMap (·.exchanges)) words w') :
    (w :: words).Pairwise (fun earlier later => bitCount earlier ≤ bitCount later) ∧
    boots.Pairwise fun first second =>
      .ioSetup ∈ first.final.ledger.completed → second.version < first.version →
        second.Barred := by
  refine ⟨hFuse.pairwise_bitCount_le, ?_⟩
  induction boots generalizing w words with
  | nil => exact .nil
  | cons first boots ih =>
    rw [List.flatMap_cons] at hFuse
    obtain ⟨words₁, words₂, middle, -, hFirst, hLater⟩ := hFuse.split
    have hGenuine := hBoots first List.mem_cons_self
    refine .cons (fun second hSecond hDone hOld => ?_)
      (ih (fun boot h => hBoots boot (List.mem_cons_of_mem _ h)) hLater)
    have hRecorded :=
      (Boot.version_between hGenuine hFirst (Boot.antiRollback_of_ioSetup hGenuine hDone)).2
    obtain ⟨between, future, rfl⟩ := List.append_of_mem hSecond
    rw [List.flatMap_append, List.flatMap_cons] at hLater
    obtain ⟨_, _, found, -, hBetween, hFrom⟩ := hLater.split
    obtain ⟨_, _, _, -, hBoot, -⟩ := hFrom.split
    have hGrown := hBetween.bitCount_le
    exact Boot.barred_of_version_lt (hBoots second (List.mem_cons_of_mem _ hSecond)) hBoot
      (by omega)

theorem usualBoard_follows (word : UInt32) (q : Request) :
    Fuse.Follows word ⟨q, (usualBoard.respond word q).1⟩ (usualBoard.respond word q).2 := by
  cases q with
  | counterWord => exact .read word
  | programFuse value index => exact .programmed word _ (UInt32.and_self)
  | _ => exact .other word nofun nofun

/-- The boot that makes `calls` on the usual board with `word` in its fuses. -/
theorem exists_boot (config : Config) (calls : List Call) (word : UInt32) :
    ∃ boot : Boot, boot.Genuine ∧ boot.config = config ∧
      boot.final = (((callAll calls).run (.fresh config usualContext 4)).exec usualBoard word).1.2 ∧
      ∃ words, Fuse.Evolves word boot.exchanges words
        (((callAll calls).run (.fresh config usualContext 4)).exec usualBoard word).2 := by
  obtain ⟨attempts, hSession, hExchanges⟩ :=
    exists_session usualBoard word calls (.fresh config usualContext 4)
  obtain ⟨words, hFuse⟩ := Fuse.exists_evolves id usualBoard_follows
    ((callAll calls).run (.fresh config usualContext 4)) word
  refine ⟨⟨config, usualContext, 4, calls, attempts, _, []⟩, ?_, rfl, rfl, words, ?_⟩
  · exact ⟨_, attempts, [], hSession, ⟨.prepareExit, 0, .done _⟩, (List.append_nil _).symm⟩
  · rw [Boot.exchanges, List.append_nil, ← hExchanges]
    exact hFuse

/-- The standard configuration with another firmware. -/
def withFirmware (n : Nat) (h : n ≤ fuseWidth) : Config :=
  { Config.standard with firmwareVersion := ⟨n, h⟩ }

/-- On a new device, a boot of version 2 opens the image source, and a later one of version 1 does
all that comes before the anti-rollback step and is barred there. -/
theorem version_1_barred_after_version_2 :
    ∃ newer older words w', newer.Genuine ∧ older.Genuine ∧
      Fuse.Evolves 0 ([newer, older].flatMap Boot.exchanges) words w' ∧
      newer.version = 2 ∧ older.version = 1 ∧ .ioSetup ∈ newer.final.ledger.completed ∧
      older.final.ledger.completed = Step.architecture.take 12 ∧ older.Barred := by
  obtain ⟨newer, hNewer, hNewerConfig, hNewerFinal, words₁, hFirst⟩ :=
    exists_boot (withFirmware 2 (by decide)) [.bringUp] 0
  have hWord : (((callAll [.bringUp]).run
      (.fresh (withFirmware 2 (by decide)) usualContext 4)).exec usualBoard 0).2 = 3 := by
    decide +kernel
  rw [hWord] at hFirst
  obtain ⟨older, hOlder, hOlderConfig, hOlderFinal, words₂, hSecond⟩ :=
    exists_boot (withFirmware 1 (by decide)) [.bringUp] 3
  have hOpened : (((callAll [.bringUp]).run (.fresh (withFirmware 2 (by decide)) usualContext
      4)).exec usualBoard 0).1.2.ledger.completed = Step.architecture ++ Step.platform := by
    decide +kernel
  have hStopped : (((callAll [.bringUp]).run (.fresh (withFirmware 1 (by decide)) usualContext
      4)).exec usualBoard 3).1.2.ledger.completed = Step.architecture.take 12 := by
    decide +kernel
  rw [← hNewerFinal] at hOpened
  rw [← hOlderFinal] at hStopped
  have hDone : Step.ioSetup ∈ newer.final.ledger.completed := by
    rw [hOpened]
    decide
  have hNewerVersion : newer.version = 2 := by rw [Boot.version, hNewerConfig]; rfl
  have hOlderVersion : older.version = 1 := by rw [Boot.version, hOlderConfig]; rfl
  have hBoots : ∀ boot ∈ [newer, older], boot.Genuine := by
    intro boot hBoot
    rcases List.mem_cons.1 hBoot with rfl | hBoot
    · exact hNewer
    · rw [List.mem_singleton.1 hBoot]
      exact hOlder
  have hFuse : ∃ w', Fuse.Evolves 0 ([newer, older].flatMap Boot.exchanges) (words₁ ++ words₂) w' := by
    rw [List.flatMap_cons, List.flatMap_singleton]
    exact ⟨_, hFirst.append hSecond⟩
  obtain ⟨w', hFuse⟩ := hFuse
  have hLifetime := (lifetime_without_rollback hBoots hFuse).2
  have hBarred := (List.pairwise_cons.1 hLifetime).1 older List.mem_cons_self hDone (by omega)
  exact ⟨newer, older, _, w', hNewer, hOlder, hFuse, hNewerVersion, hOlderVersion, hDone, hStopped,
    hBarred⟩

end BootStage
