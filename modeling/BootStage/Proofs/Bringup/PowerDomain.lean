import Mathlib.Data.List.Infix
import BootStage.Proofs.Boards
import BootStage.Proofs.Bringup.Attempts
import BootStage.Proofs.Registers

/-!
# The power domains are normalized by a plan

Normalizing follows a plan: which registers are changed, in which order and by which bits is fixed
(`schedule`), but for the reset of the backup domain, which is left out where a clock was selected
for the real-time clock (`NeverClocked`).

Whatever the registers and the clock answer, the writes are those of the schedule, in its order and
by what was just read, up to its end or to one of the two waits that gives up, and then the step
fails with a timeout; on registers that behave as plain memory, a step that succeeds leaves all that
the schedule does not name as it was (`powerDomain_normalized`).
-/

namespace BootStage

open Registers

namespace PowerDomain

/-! ## The plan -/

/-- The changes of registers, in the documented order; `reset` tells if the backup domain is
reset. -/
def schedule (reset : Bool) : List Change :=
  [.put Rcc.stopRequestClear (Rcc.stopRequestCore0 ||| Rcc.stopRequestCore1),
    .amend Pwr.control1 0 Pwr.backupWriteAccess,
    .amend Pwr.coprocessorControl 0 Pwr.deepSleep] ++
  (if reset then
    [.amend Rcc.backupDomain 0 Rcc.backupReset, .amend Rcc.backupDomain Rcc.backupReset 0]
    else []) ++
  [.amend Rcc.lowPowerDelay Rcc.lowPowerDelayField exitDelay,
    .amend Pwr.control2 (Pwr.backupRetention ||| Pwr.retentionMemory) 0,
    .amend Rcc.secureControl Rcc.coprocessorProtection 0,
    .put Tamp.secureMode backupBounds]

/-- Write access to the backup domain, and the deep sleep of the coprocessor. -/
def opening : List Act :=
  [.change (.put Rcc.stopRequestClear (Rcc.stopRequestCore0 ||| Rcc.stopRequestCore1)),
    .raise Pwr.control1 Pwr.backupWriteAccess]

/-- The backup domain is looked at, and reset or not. -/
def resetting (reset : Bool) : List Act :=
  .expect Rcc.backupDomain (fun found => (found &&& Rcc.rtcSource == 0) == reset) ::
    if reset then
      [.raise Rcc.backupDomain Rcc.backupReset,
        .change (.amend Rcc.backupDomain Rcc.backupReset 0)]
    else []

def settings : List Act :=
  [.change (.amend Rcc.lowPowerDelay Rcc.lowPowerDelayField exitDelay),
    .change (.amend Pwr.control2 (Pwr.backupRetention ||| Pwr.retentionMemory) 0),
    .change (.amend Rcc.secureControl Rcc.coprocessorProtection 0),
    .change (.put Tamp.secureMode backupBounds)]

def plan (reset : Bool) : List Act :=
  opening ++
    (.change (.amend Pwr.coprocessorControl 0 Pwr.deepSleep) :: resetting reset ++ settings)

/-- The backup domain was looked at, and no clock was selected for the real-time clock. -/
def NeverClocked (t : List Exchange) : Bool :=
  (firstRead? Rcc.backupDomain t).any fun found => found &&& Rcc.rtcSource == 0

theorem changes_plan (reset : Bool) : (plan reset).flatMap Act.changes = schedule reset := by
  cases reset <;> rfl

theorem getLast?_plan (reset : Bool) :
    (plan reset).getLast? = some (.change (.put Tamp.secureMode backupBounds)) := by
  cases reset <;> rfl

/-- Changes of one register name the same bits. -/
theorem named_eq_of_mem_schedule {reset : Bool} {c c' : Change} (h : c ∈ schedule reset)
    (h' : c' ∈ schedule reset) (hAddress : c'.address = c.address) : c'.named = c.named := by
  have hAll : ∀ reset, ∀ c ∈ schedule reset, ∀ c' ∈ schedule reset,
      c'.address = c.address → c'.named = c.named := by decide
  exact hAll reset c h c' h' hAddress

theorem raise_mem_plan {reset : Bool} {address mask : UInt32}
    (h : .raise address mask ∈ plan reset) :
    address = Pwr.control1 ∧ mask = Pwr.backupWriteAccess ∨
      address = Rcc.backupDomain ∧ mask = Rcc.backupReset ∧ reset = true := by
  cases reset <;> simpa [plan, opening, resetting, settings] using h

/-! ## The program follows the plan -/

section Program

variable {patience : Nat} {timeout address mask : UInt32} {t t' : List Exchange} {u : Unit}
  {outcome : Poll.Outcome}

theorem carries_writeRegister {value : UInt32} (h : Runs (Board.writeRegister address value) t u) :
    Carries timeout (.change (.put address value)) t .settled := by
  obtain rfl := runs_ask_iff.1 h
  exact .change (.put address value) 0

/-- A register that is read and written back is amended. -/
theorem exists_exchanges_of_amend {clear set : UInt32}
    (h : Runs (Board.clearSetBits address clear set) t u) :
    ∃ found, t = (Change.amend address clear set).exchanges found := by
  obtain ⟨found, t₁, t₂, hRead, hWrite, rfl⟩ := runs_seq_iff.1 h
  obtain rfl := runs_ask_iff.1 hRead
  obtain rfl := runs_ask_iff.1 hWrite
  exact ⟨found, rfl⟩

theorem setBits_eq (address mask : UInt32) :
    Board.setBits address mask = Board.clearSetBits address 0 mask := by
  have hAll : ∀ value : UInt32, value &&& ~~~0 = value := fun value => by simp
  simp only [Board.setBits, Board.clearSetBits, hAll]

theorem clearBits_eq (address mask : UInt32) :
    Board.clearBits address mask = Board.clearSetBits address mask 0 := by
  simp only [Board.clearBits, Board.clearSetBits, UInt32.or_zero]

theorem carries_clearSetBits {clear set : UInt32}
    (h : Runs (Board.clearSetBits address clear set) t u) :
    Carries timeout (.change (.amend address clear set)) t .settled := by
  obtain ⟨found, rfl⟩ := exists_exchanges_of_amend h
  exact .change _ found

theorem carries_raise (hSet : Runs (Board.setBits address mask) t u)
    (hWait : Runs (Poll.awaitBits patience address mask .set timeout) t' outcome) :
    Carries timeout (.raise address mask) (t ++ t') outcome := by
  rw [setBits_eq] at hSet
  obtain ⟨found, rfl⟩ := exists_exchanges_of_amend hSet
  obtain ⟨start, rounds, rfl, hWaits⟩ := Poll.waits_of_runs_awaitBits hWait
  exact .raise found start hWaits

theorem follows_openBackupDomain (h : Runs (openBackupDomain patience timeout) t outcome) :
    Follows timeout opening t outcome := by
  obtain ⟨_, t₁, t₂, hClear, hRest, rfl⟩ := runs_seq_iff.1 h
  obtain ⟨_, t₃, t₄, hSet, hWait, rfl⟩ := runs_seq_iff.1 hRest
  exact .next (carries_writeRegister hClear) (carries_raise hSet hWait).follows

theorem follows_resetBackupDomain (h : Runs (resetBackupDomain patience timeout) t outcome) :
    ∃ domain rest, t = ⟨.readRegister Rcc.backupDomain, domain⟩ :: rest ∧
      Follows timeout (resetting (domain &&& Rcc.rtcSource == 0)) t outcome := by
  obtain ⟨domain, t₁, t₂, hRead, hRest, rfl⟩ := runs_seq_iff.1 h
  obtain rfl := runs_ask_iff.1 hRead
  have hLook : Carries timeout (.expect Rcc.backupDomain fun found =>
      (found &&& Rcc.rtcSource == 0) == (domain &&& Rcc.rtcSource == 0))
      [⟨.readRegister Rcc.backupDomain, domain⟩] .settled := .expect (beq_self_eq_true _)
  refine ⟨domain, t₂, rfl, .next hLook ?_⟩
  split at hRest
  · next hZero =>
    rw [if_pos (beq_iff_eq.2 hZero)]
    obtain ⟨_, t₃, t₄, hSet, hWaiting, rfl⟩ := runs_seq_iff.1 hRest
    obtain ⟨ended, t₅, t₆, hWait, hEnd, rfl⟩ := runs_seq_iff.1 hWaiting
    have hRaise := carries_raise hSet hWait
    rw [← List.append_assoc]
    cases ended with
    | settled =>
      obtain ⟨_, t₇, t₈, hClear, hDone, rfl⟩ := runs_seq_iff.1 hEnd
      obtain ⟨rfl, rfl⟩ := runs_pure_iff.1 hDone
      rw [clearBits_eq] at hClear
      rw [List.append_nil]
      exact .next hRaise (carries_clearSetBits hClear).follows
    | timedOut =>
      obtain ⟨rfl, rfl⟩ := runs_pure_iff.1 hEnd
      rw [List.append_nil]
      exact .stopped hRaise nofun
    | hung =>
      obtain ⟨rfl, rfl⟩ := runs_pure_iff.1 hEnd
      rw [List.append_nil]
      exact .stopped hRaise nofun
  · next hClocked =>
    obtain ⟨rfl, rfl⟩ := runs_pure_iff.1 hRest
    rw [if_neg fun h => hClocked (beq_iff_eq.1 h)]
    exact .done

theorem follows_applySettings (h : Runs applySettings t u) :
    Follows timeout settings t .settled := by
  obtain ⟨_, t₁, t₂, hDelay, hLater, rfl⟩ := runs_seq_iff.1 h
  obtain ⟨_, t₃, t₄, hRegulators, hLast, rfl⟩ := runs_seq_iff.1 hLater
  obtain ⟨_, t₅, t₆, hProtection, hBounds, rfl⟩ := runs_seq_iff.1 hLast
  rw [clearBits_eq] at hRegulators hProtection
  exact .next (carries_clearSetBits hDelay) (.next (carries_clearSetBits hRegulators)
    (.next (carries_clearSetBits hProtection) (carries_writeRegister hBounds).follows))

/-- The first look at the backup domain decides which plan is followed. -/
theorem neverClocked_append {front rest : List Exchange} {domain : UInt32}
    (hFront : firstRead? Rcc.backupDomain front = none) :
    NeverClocked (front ++ ⟨.readRegister Rcc.backupDomain, domain⟩ :: rest) =
      (domain &&& Rcc.rtcSource == 0) := by
  have hFirst : firstRead? Rcc.backupDomain
      (front ++ ⟨.readRegister Rcc.backupDomain, domain⟩ :: rest) = some domain := by
    rw [firstRead?, List.findSome?_append, ← firstRead?, hFront]
    rfl
  rw [NeverClocked, hFirst]
  rfl

theorem follows_normalize (h : Runs (normalize patience timeout) t outcome) :
    Follows timeout (plan (NeverClocked t)) t outcome := by
  obtain ⟨opened, t₁, t₂, hOpen, hRest, rfl⟩ := runs_seq_iff.1 h
  have hOpening := follows_openBackupDomain hOpen
  cases opened with
  | settled =>
    obtain ⟨_, t₃, t₄, hSleep, hLater, rfl⟩ := runs_seq_iff.1 hRest
    obtain ⟨reset, t₅, t₆, hReset, hEnd, rfl⟩ := runs_seq_iff.1 hLater
    rw [setBits_eq] at hSleep
    have hSleeping : Follows timeout [.change (.amend Pwr.coprocessorControl 0 Pwr.deepSleep)] t₃
        .settled := (carries_clearSetBits hSleep).follows
    obtain ⟨domain, rest, rfl, hResetting⟩ := follows_resetBackupDomain hReset
    have hUnread : firstRead? Rcc.backupDomain (t₁ ++ t₃) = none :=
      (hOpening.append hSleeping).firstRead?_eq_none (by decide)
    have hDecides : NeverClocked (t₁ ++ (t₃ ++ (⟨.readRegister Rcc.backupDomain, domain⟩ :: rest ++
        t₆))) = (domain &&& Rcc.rtcSource == 0) := by
      rw [← List.append_assoc, List.cons_append]
      exact neverClocked_append hUnread
    rw [hDecides]
    cases reset with
    | settled =>
      obtain ⟨_, t₇, t₈, hSettings, hDone, rfl⟩ := runs_seq_iff.1 hEnd
      obtain ⟨rfl, rfl⟩ := runs_pure_iff.1 hDone
      rw [List.append_nil]
      exact hOpening.append
        (hSleeping.append (hResetting.append (follows_applySettings hSettings)))
    | timedOut =>
      obtain ⟨rfl, rfl⟩ := runs_pure_iff.1 hEnd
      rw [List.append_nil]
      exact hOpening.append (hSleeping.append (hResetting.stop nofun settings))
    | hung =>
      obtain ⟨rfl, rfl⟩ := runs_pure_iff.1 hEnd
      rw [List.append_nil]
      exact hOpening.append (hSleeping.append (hResetting.stop nofun settings))
  | timedOut =>
    obtain ⟨rfl, rfl⟩ := runs_pure_iff.1 hRest
    rw [List.append_nil]
    exact hOpening.stop nofun _
  | hung =>
    obtain ⟨rfl, rfl⟩ := runs_pure_iff.1 hRest
    rw [List.append_nil]
    exact hOpening.stop nofun _

/-- How the step ends by how its program ended. -/
def result : Poll.Outcome → Except Abort Unit
  | .settled => .ok ()
  | .timedOut => .error (.fatal ⟨.powerDomain, .timeout⟩)
  | .hung => .error .hung

theorem result_eq_ok_iff : result outcome = .ok () ↔ outcome = .settled := by
  cases outcome <;> simp [result]

theorem result_eq_timeout_iff :
    result outcome = .error (.fatal ⟨.powerDomain, .timeout⟩) ↔ outcome = .timedOut := by
  cases outcome <;> simp [result]

theorem ensures_result (b : Bringup) :
    Ensures Bringup.normalizePowerDomain b fun t x c => ∃ outcome,
      Runs (normalize b.patience b.config.powerTimeout) t outcome ∧
        ∀ ended d, Bringup.Concludes .powerDomain x c ended d → ended = result outcome := by
  refine ensures_get_bind.2 (ensures_lift_bind.2 fun t outcome hRuns => ?_)
  rw [← List.append_nil t] at hRuns
  cases outcome with
  | settled => exact ensures_pure.2 ⟨.settled, hRuns, fun _ _ hConcludes => hConcludes.of_ok.1⟩
  | timedOut =>
    exact ensures_throw.2 ⟨.timedOut, hRuns, fun _ _ hConcludes => (hConcludes.of_fatal rfl).1⟩
  | hung =>
    refine ensures_throw.2 ⟨.hung, hRuns, fun _ _ hConcludes => ?_⟩
    cases hConcludes
    rfl

end Program

/-! ## What is printed afterwards -/

section Printed

variable {t printed : List Exchange}

theorem writes_eq_false_of_isEmit {e : Exchange} (h : e.request.isEmit = true) :
    e.writes = false := by
  obtain ⟨q, reply⟩ := e
  cases q <;> first | rfl | cases h

theorem neverClocked_append_of_prints (h : ∀ e ∈ printed, e.request.isEmit = true) :
    NeverClocked (t ++ printed) = NeverClocked t := by
  have hUnread : printed.findSome? (readOf? Rcc.backupDomain) = none := by
    refine List.findSome?_eq_none_iff.2 fun e he => readOf?_eq_none_of_ne fun hRead => ?_
    cases hRead ▸ h e he
  rw [NeverClocked, NeverClocked, firstRead?, firstRead?, List.findSome?_append, hUnread,
    Option.or_none]

end Printed

/-! ## What follows the plan -/

section Followed

variable {timeout : UInt32} {t printed : List Exchange} {outcome : Poll.Outcome}
  {made : List Change}

/-- Once the backup domain was looked at and found never clocked, its reset is written. -/
theorem exists_reset_of_follows (h : Follows timeout (plan true) t outcome)
    (hNever : NeverClocked t = true) :
    ∃ value, ⟨.writeRegister Rcc.backupDomain value, ()⟩ ∈ t := by
  have hParts : Follows timeout
      ((opening ++ [.change (.amend Pwr.coprocessorControl 0 Pwr.deepSleep)]) ++
        (resetting true ++ settings)) t outcome := h
  obtain hFirst | ⟨t₁, t₂, rfl, -, hSecond⟩ := hParts.split
  · have hUnread : firstRead? Rcc.backupDomain t = none :=
      hFirst.firstRead?_eq_none (by decide)
    rw [NeverClocked, hUnread] at hNever
    cases hNever
  · obtain ⟨_, t₃, _, hLook, rfl, hRest⟩ := hSecond.begins
    cases hLook
    obtain ⟨t₄, t₅, _, hRaise, rfl, -⟩ := (hRest rfl).begins
    cases hRaise with
    | raise found _ _ =>
      refine ⟨(Change.amend Rcc.backupDomain 0 Rcc.backupReset).apply found, ?_⟩
      simp [Change.exchanges, Change.apply]

/-- Of the changes up to some point, the first of the backup domain is its reset. -/
theorem reset_mem_of_prefix (h : made <+: schedule true)
    (hMem : Rcc.backupDomain ∈ made.map (·.address)) :
    .amend Rcc.backupDomain 0 Rcc.backupReset ∈ made := by
  have hAll : ∀ n < 10, Rcc.backupDomain ∈ ((schedule true).take n).map (·.address) →
      .amend Rcc.backupDomain 0 Rcc.backupReset ∈ (schedule true).take n := by decide
  have hShort : made.length < 10 := Nat.lt_succ_of_le h.length_le
  rw [List.prefix_iff_eq_take.1 h] at hMem ⊢
  exact hAll _ hShort hMem

theorem exists_made_of_follows (h : Follows timeout (plan (NeverClocked t)) t outcome) :
    ∃ made, made <+: schedule (NeverClocked t) ∧ Makes made t ∧
      (outcome = .settled ↔ made = schedule (NeverClocked t)) ∧
      (.amend Rcc.backupDomain 0 Rcc.backupReset ∈ made ↔ NeverClocked t = true) := by
  obtain ⟨made, hPrefix, hMakes, hAll⟩ := h.makes (getLast?_plan _)
  rw [changes_plan] at hPrefix hAll
  refine ⟨made, hPrefix, hMakes, hAll, fun hMem => ?_, fun hNever => ?_⟩
  · have hReset := hPrefix.subset hMem
    by_contra hClocked
    rw [eq_false_of_ne_true hClocked] at hReset
    exact absurd hReset (by decide)
  · rw [hNever] at h hPrefix
    obtain ⟨value, hWrite⟩ := exists_reset_of_follows h hNever
    exact reset_mem_of_prefix hPrefix (hMakes.mem_address hWrite)

theorem control_mem_plan (reset : Bool) :
    .raise Pwr.control1 Pwr.backupWriteAccess ∈ plan reset := by
  simp [plan, opening]

theorem domain_mem_plan {reset : Bool} (h : reset = true) :
    .raise Rcc.backupDomain Rcc.backupReset ∈ plan reset := by
  simp [plan, resetting, h]

theorem timedOut_of_awaited (h : Follows timeout (plan (NeverClocked t)) t outcome)
    (hPrints : ∀ e ∈ printed, e.request.isEmit = true) {after : List Exchange}
    (hAwaited :
      Awaited timeout Pwr.control1 Pwr.backupWriteAccess (t ++ printed) .timedOut after ∨
        Awaited timeout Rcc.backupDomain Rcc.backupReset (t ++ printed) .timedOut after) :
    outcome = .timedOut ∧ after = printed := by
  obtain hControl | hDomain := hAwaited
  · refine h.timedOut_of_awaited (fun mask hRaise => ?_) hPrints hControl
    obtain ⟨-, rfl⟩ | ⟨hOther, -⟩ := raise_mem_plan hRaise
    · rfl
    · cases hOther
  · refine h.timedOut_of_awaited (fun mask hRaise => ?_) hPrints hDomain
    obtain ⟨hOther, -⟩ | ⟨-, rfl, -⟩ := raise_mem_plan hRaise
    · cases hOther
    · rfl

/-- The plan gives up in one of its two waits. -/
theorem awaited_of_timedOut (h : Follows timeout (plan (NeverClocked t)) t .timedOut)
    (printed : List Exchange) :
    (∃ after, Awaited timeout Pwr.control1 Pwr.backupWriteAccess (t ++ printed) .timedOut after) ∨
      ∃ after, Awaited timeout Rcc.backupDomain Rcc.backupReset (t ++ printed) .timedOut after := by
  obtain ⟨address, mask, hRaise, hAwaited⟩ := h.awaited_of_timedOut
  obtain ⟨rfl, rfl⟩ | ⟨rfl, rfl, -⟩ := raise_mem_plan hRaise
  · exact .inl ⟨_, hAwaited.append [] printed⟩
  · exact .inr ⟨_, hAwaited.append [] printed⟩

/-- Plain memory keeps what the schedule does not name. -/
theorem kept_of_makes {reset : Bool} {m m' : Memory} (h : Makes (schedule reset) t)
    (hMemory : Remembered m t m') :
    (∀ address ∉ (schedule reset).map (·.address), m' address = m address) ∧
      ∀ c ∈ schedule reset, m' c.address &&& ~~~c.named = m c.address &&& ~~~c.named := by
  obtain rfl := h.memory hMemory
  exact ⟨fun address hOther => changed_of_not_mem hOther,
    fun c hc => changed_and_not fun c' hc' hAddress => named_eq_of_mem_schedule hc hc' hAddress⟩

end Followed

end PowerDomain

open PowerDomain

/-! ## The attempt -/

namespace Attempt

variable {a : Attempt}

theorem Genuine.normalizes (h : a.Genuine) (hStep : a.step = .powerDomain)
    (hExecutes : a.executes = true) :
    ∃ t printed outcome, a.exchanges = t ++ printed ∧
      (∀ e ∈ printed, e.request.isEmit = true) ∧
      NeverClocked (t ++ printed) = NeverClocked t ∧
      Follows a.before.config.powerTimeout (plan (NeverClocked t)) t outcome ∧
      a.result = PowerDomain.result outcome := by
  obtain ⟨started, t, printed, x, c, hActed⟩ := h.acted_of_executes hExecutes
  obtain ⟨⟨outcome, hNormalize, hEnds⟩, hConcludes⟩ :=
    hActed.ensured hStep PowerDomain.ensures_result
  exact ⟨t, printed, outcome, hActed.exchanges, hActed.prints,
    neverClocked_append_of_prints hActed.prints, follows_normalize hNormalize, hEnds _ _ hConcludes⟩

end Attempt

/-- The attempt waited for the bits of the mask right after a write to the register; the wait ended
so, and then came `after`. -/
def Attempt.Awaits (a : Attempt) (address mask : UInt32) (outcome : Poll.Outcome)
    (after : List Exchange) : Prop :=
  Awaited a.before.config.powerTimeout address mask a.exchanges outcome after

/-- Normalizing the power domains.  The registers are written by the schedule, in its order and each
by what was just read, up to its end if and only if the step succeeds; the backup domain is reset if
and only if it was found never clocked.  The step fails with a timeout if and only if one of the two
waits gave up, and then nothing but the log is printed.  Registers that behave as plain memory keep
what the schedule does not name. -/
theorem powerDomain_normalized {a : Attempt} (h : a.Genuine) (hStep : a.step = .powerDomain)
    (hExecutes : a.executes = true) :
    (∃ made, made <+: schedule (NeverClocked a.exchanges) ∧ Makes made a.exchanges ∧
      (a.result = .ok () ↔ made = schedule (NeverClocked a.exchanges)) ∧
      (.amend Rcc.backupDomain 0 Rcc.backupReset ∈ made ↔ NeverClocked a.exchanges = true)) ∧
    (a.result = .ok () →
      (∃ after, a.Awaits Pwr.control1 Pwr.backupWriteAccess .settled after) ∧
      (NeverClocked a.exchanges = true →
        ∃ after, a.Awaits Rcc.backupDomain Rcc.backupReset .settled after)) ∧
    (a.result = .error (.fatal ⟨.powerDomain, .timeout⟩) ↔
      (∃ after, a.Awaits Pwr.control1 Pwr.backupWriteAccess .timedOut after) ∨
        ∃ after, a.Awaits Rcc.backupDomain Rcc.backupReset .timedOut after) ∧
    (∀ after, a.Awaits Pwr.control1 Pwr.backupWriteAccess .timedOut after ∨
        a.Awaits Rcc.backupDomain Rcc.backupReset .timedOut after →
      ∀ e ∈ after, e.request.isEmit = true) ∧
    ∀ m m', a.result = .ok () → Remembered m a.exchanges m' →
      (∀ address ∉ (schedule (NeverClocked a.exchanges)).map (·.address),
        m' address = m address) ∧
      ∀ c ∈ schedule (NeverClocked a.exchanges),
        m' c.address &&& ~~~c.named = m c.address &&& ~~~c.named := by
  obtain ⟨t, printed, outcome, hExchanges, hPrints, hSame, hFollows, hResult⟩ :=
    h.normalizes hStep hExecutes
  simp only [Attempt.Awaits, hExchanges, hSame, hResult, result_eq_ok_iff, result_eq_timeout_iff]
  obtain ⟨made, hPrefix, hMakes, hAll, hReset⟩ := exists_made_of_follows hFollows
  have hMakes : Makes made (t ++ printed) := by
    simpa using hMakes.append
      (makes_nil_of_idle fun e he => writes_eq_false_of_isEmit (hPrints e he))
  refine ⟨⟨made, hPrefix, hMakes, hAll, hReset⟩, ?_, ⟨?_, ?_⟩, ?_, ?_⟩
  · rintro rfl
    refine ⟨?_, fun hNever => ?_⟩
    · obtain ⟨after, hAwaited⟩ := hFollows.awaited_of_settled (control_mem_plan _)
      exact ⟨_, hAwaited.append [] printed⟩
    · obtain ⟨after, hAwaited⟩ := hFollows.awaited_of_settled (domain_mem_plan hNever)
      exact ⟨_, hAwaited.append [] printed⟩
  · rintro rfl
    exact awaited_of_timedOut hFollows printed
  · rintro (⟨after, hControl⟩ | ⟨after, hDomain⟩)
    · exact (timedOut_of_awaited hFollows hPrints (.inl hControl)).1
    · exact (timedOut_of_awaited hFollows hPrints (.inr hDomain)).1
  · intro after hAwaited
    rw [(timedOut_of_awaited hFollows hPrints hAwaited).2]
    exact hPrints
  · intro m m' hSettled hMemory
    obtain rfl := hAll.1 hSettled
    exact kept_of_makes hMakes hMemory

/-- Registers that behave as plain memory; the rest of the board answers as usual. -/
def memoryBoard : Board Memory where
  respond m q := match q with
    | .readRegister address => (m address, m)
    | .writeRegister address value => ((), Function.update m address value)
    | q => (usualReply 0 q, m)

theorem remembered_transcript {α : Type} (p : Program α) (m : Memory) :
    Remembered m (p.transcript memoryBoard m) (p.exec memoryBoard m).2 := by
  induction p generalizing m with
  | done v => exact .nil m
  | call q next ih =>
    cases q with
    | readRegister address => exact .read address (ih _ _)
    | writeRegister address value => exact .write address value (ih _ _)
    | _ => exact .other nofun nofun (ih _ _)

/-- Registers that always read as zero, and a clock that goes on with each look at it. -/
def deafBoard : Board UInt64 where
  respond now q := match q with
    | .readRegister _ => (0, now)
    | .now => (now, now + 1000000)
    | q => (usualReply 0 q, now)

/-- A bring-up whose next step is the power domains. -/
def unpowered : Bringup :=
  { Bringup.fresh .standard usualContext 4 with
    ledger := ⟨[.configTree, .memoryProtection, .fuseProbe],
      [.fuseProbe, .memoryProtection, .configTree]⟩ }

/-- With plain memory the whole schedule is written and the rest of the memory stays as it was; with
registers that do not answer, the step gives up. -/
theorem powerDomain_normalized_or_timedOut :
    (∃ a : Attempt, a.Genuine ∧ a.step = .powerDomain ∧ a.result = .ok () ∧
      Makes (schedule true) a.exchanges ∧
      ∃ m', Remembered (fun _ => 0xAAA8AAAA) a.exchanges m' ∧
        ∀ address ∉ (schedule true).map (·.address), m' address = 0xAAA8AAAA) ∧
    ∃ a : Attempt, a.Genuine ∧ a.step = .powerDomain ∧
      a.result = .error (.fatal ⟨.powerDomain, .timeout⟩) ∧
      ((∃ after, a.Awaits Pwr.control1 Pwr.backupWriteAccess .timedOut after) ∨
        ∃ after, a.Awaits Rcc.backupDomain Rcc.backupReset .timedOut after) := by
  constructor
  · obtain ⟨t, ⟨result, b⟩, hGenuine, ⟨m', hMemory⟩, hOk, hNever⟩ := Program.exists_runs memoryBoard
      ((Bringup.perform .powerDomain).run.run unpowered) (fun _ => 0xAAA8AAAA)
      (P := fun t ended => (∃ m', Remembered (fun _ => 0xAAA8AAAA) t m') ∧ ended.1 = .ok () ∧
        NeverClocked t = true)
      ⟨⟨_, remembered_transcript _ _⟩, by decide +kernel, by decide +kernel⟩
    obtain rfl : result = _ := hOk
    let a : Attempt := ⟨.powerDomain, unpowered, t, .ok (), b⟩
    obtain ⟨⟨made, -, hMakes, hAll, -⟩, -, -, -, hKept⟩ :=
      powerDomain_normalized (a := a) hGenuine rfl rfl
    have hReset : NeverClocked a.exchanges = true := hNever
    rw [hReset] at hAll hKept
    obtain rfl := hAll.1 rfl
    exact ⟨a, hGenuine, rfl, rfl, hMakes, m', hMemory, (hKept _ m' rfl hMemory).1⟩
  · obtain ⟨t, ⟨result, b⟩, hGenuine, hTimeout⟩ := Program.exists_runs deafBoard
      ((Bringup.perform .powerDomain).run.run unpowered) 0
      (P := fun _ ended => ended.1 = .error (.fatal ⟨.powerDomain, .timeout⟩)) (by decide +kernel)
    obtain rfl : result = _ := hTimeout
    let a : Attempt :=
      ⟨.powerDomain, unpowered, t, .error (.fatal ⟨.powerDomain, .timeout⟩), b⟩
    obtain ⟨-, -, hGivesUp, -⟩ := powerDomain_normalized (a := a) hGenuine rfl rfl
    exact ⟨a, hGenuine, rfl, rfl, hGivesUp.1 rfl⟩

end BootStage
