import BootStage.Proofs.Program

/-!
# Waits that outlast their patience

A wait for bits in a register is hung only if it saw as many rounds as it is followed for in which
neither the bits were as they should be nor the deadline had expired (`stalled_of_runs_awaitBits`).
With a clock that never shows the same time twice, those are at most as many as the timeout has
microseconds (`GivesUp.patience_le`).
-/

namespace BootStage.Poll

/-- Rounds of a wait in which neither the bits nor the clock got where they should. -/
inductive Stalled (deadline : Deadline) (address mask : UInt32) (state : BitState) :
    Nat → List Exchange → Prop
  | nil : Stalled deadline address mask state 0 []
  | round {patience : Nat} {t : List Exchange} (value : UInt32) (now : UInt64) :
      state.isMet value mask = false → deadline.isExpired now = false →
      Stalled deadline address mask state patience t →
      Stalled deadline address mask state (patience + 1)
        (⟨.readRegister address, value⟩ :: ⟨.now, now⟩ :: t)

variable {deadline : Deadline} {address mask timeout : UInt32} {state : BitState} {patience : Nat}
  {t : List Exchange}

theorem runs_condition {holds : Bool}
    (h : Runs (do let value ← Board.readRegister address; return state.isMet value mask) t holds) :
    ∃ value, t = [⟨.readRegister address, value⟩] ∧ holds = state.isMet value mask := by
  obtain ⟨value, t₁, t₂, hRead, hRest, rfl⟩ := runs_seq_iff.1 h
  obtain rfl := runs_ask_iff.1 hRead
  obtain ⟨rfl, rfl⟩ := runs_pure_iff.1 hRest
  exact ⟨value, rfl, rfl⟩

theorem stalled_of_runs_rounds
    (h : Runs (rounds deadline
      (do let value ← Board.readRegister address; return state.isMet value mask) patience)
      t .hung) :
    Stalled deadline address mask state patience t := by
  induction patience generalizing t with
  | zero =>
    obtain ⟨rfl, -⟩ := runs_pure_iff.1 h
    exact .nil
  | succ patience ih =>
    obtain ⟨holds, t₁, t₂, hFirst, hRest, rfl⟩ := runs_seq_iff.1 h
    obtain ⟨value, rfl, rfl⟩ := runs_condition hFirst
    split at hRest
    · obtain ⟨-, hEq⟩ := runs_pure_iff.1 hRest
      cases hEq
    · next hNotMet =>
      obtain ⟨now, t₃, t₄, hNow, hLast, rfl⟩ := runs_seq_iff.1 hRest
      obtain rfl := runs_ask_iff.1 hNow
      split at hLast
      · -- The last test settles the wait or times it out.
        obtain ⟨holds, t₅, t₆, -, hEnd, rfl⟩ := runs_seq_iff.1 hLast
        obtain ⟨-, hEq⟩ := runs_pure_iff.1 hEnd
        split at hEq <;> cases hEq
      · next hNotExpired =>
        exact .round value now (eq_false_of_ne_true hNotMet)
          (eq_false_of_ne_true hNotExpired) (ih hLast)

theorem stalled_of_runs_awaitBits
    (h : Runs (awaitBits patience address mask state timeout) t .hung) :
    ∃ start rest, t = ⟨.now, start⟩ :: rest ∧
      Stalled ⟨start, timeout.toUInt64⟩ address mask state patience rest := by
  obtain ⟨start, t₁, rest, hStart, hRest, rfl⟩ := runs_seq_iff.1 h
  obtain rfl := runs_ask_iff.1 hStart
  exact ⟨start, rest, rfl, stalled_of_runs_rounds hRest⟩

/-- The exchanges hold a wait that was followed for `patience` rounds and got nowhere. -/
def GivesUp (patience : Nat) (timeout : UInt32) (t : List Exchange) : Prop :=
  ∃ start rest address mask state, ⟨.now, start⟩ :: rest <:+: t ∧
    Stalled ⟨start, timeout.toUInt64⟩ address mask state patience rest

theorem GivesUp.of_runs_awaitBits (h : Runs (awaitBits patience address mask state timeout) t .hung) :
    GivesUp patience timeout t := by
  obtain ⟨start, rest, rfl, hStalled⟩ := stalled_of_runs_awaitBits h
  exact ⟨start, rest, address, mask, state, List.infix_refl _, hStalled⟩

theorem GivesUp.of_isInfix {t' : List Exchange} (h : GivesUp patience timeout t) (hIn : t <:+: t') :
    GivesUp patience timeout t' := by
  obtain ⟨start, rest, address, mask, state, hRest, hStalled⟩ := h
  exact ⟨start, rest, address, mask, state, hRest.trans hIn, hStalled⟩

/-- A program is hung only if a wait of it is. -/
def HangsInWait (patience : Nat) (timeout : UInt32) (p : Program Outcome) : Prop :=
  ∀ t, Runs p t .hung → GivesUp patience timeout t

section Programs

variable {α : Type}

theorem hangsInWait_pure {outcome : Outcome} (h : outcome ≠ .hung) :
    HangsInWait patience timeout (pure outcome) := by
  intro t hRuns
  obtain ⟨-, hEq⟩ := runs_pure_iff.1 hRuns
  exact absurd hEq.symm h

theorem hangsInWait_bind {p : Program α} {f : α → Program Outcome}
    (hf : ∀ a, HangsInWait patience timeout (f a)) : HangsInWait patience timeout (p >>= f) := by
  intro t hRuns
  obtain ⟨a, t₁, t₂, -, hRest, rfl⟩ := runs_seq_iff.1 hRuns
  exact (hf a t₂ hRest).of_isInfix (List.suffix_append t₁ t₂).isInfix

/-- What follows a wait matters only if the wait came to an end. -/
theorem hangsInWait_after {p : Program Outcome} {f : Outcome → Program Outcome}
    (hp : HangsInWait patience timeout p)
    (hf : ∀ outcome, outcome ≠ .hung → HangsInWait patience timeout (f outcome)) :
    HangsInWait patience timeout (p >>= f) := by
  intro t hRuns
  obtain ⟨outcome, t₁, t₂, hFirst, hRest, rfl⟩ := runs_seq_iff.1 hRuns
  by_cases hHung : outcome = .hung
  · rw [hHung] at hFirst
    exact (hp t₁ hFirst).of_isInfix (List.prefix_append t₁ t₂).isInfix
  · exact (hf outcome hHung t₂ hRest).of_isInfix (List.suffix_append t₁ t₂).isInfix

theorem hangsInWait_awaitBits :
    HangsInWait patience timeout (awaitBits patience address mask state timeout) :=
  fun _ => .of_runs_awaitBits

end Programs

/-! ## Clocks that do not stand still -/

/-- What a reading of the clock showed. -/
def clockReading? : Exchange → Option UInt64
  | ⟨.now, time⟩ => some time
  | _ => none

/-- Readings of the clock, in order. -/
def clockReadings (t : List Exchange) : List UInt64 := t.filterMap clockReading?

theorem Stalled.add_patience_le {start time : UInt64}
    (h : Stalled ⟨start, timeout.toUInt64⟩ address mask state patience t) (hStart : start ≤ time)
    (hTime : time.toNat - start.toNat ≤ timeout.toNat)
    (hClock : (time :: clockReadings t).Pairwise (· < ·)) :
    time.toNat - start.toNat + patience ≤ timeout.toNat := by
  induction h generalizing time with
  | nil => exact hTime
  | @round patience t value now _ hNotExpired _ ih =>
    have hReadings : clockReadings (⟨.readRegister address, value⟩ :: ⟨.now, now⟩ :: t) =
        now :: clockReadings t := rfl
    rw [hReadings] at hClock
    obtain ⟨hFirst, hRest⟩ := List.pairwise_cons.1 hClock
    have hLater := UInt64.lt_iff_toNat_lt.1 (hFirst now List.mem_cons_self)
    rw [UInt64.le_iff_toNat_le] at hStart
    have hNow : now.toNat - start.toNat ≤ timeout.toNat := by
      have hElapsed : ¬ timeout.toUInt64 < elapsed start now := of_decide_eq_false hNotExpired
      rw [UInt64.lt_iff_toNat_lt, toNat_elapsed, UInt32.toNat_toUInt64] at hElapsed
      omega
    have hRemaining := ih (UInt64.le_iff_toNat_le.2 (by omega)) hNow hRest
    omega

/-- A clock that never shows the same time twice lets no wait stall for longer than its timeout. -/
theorem GivesUp.patience_le (h : GivesUp patience timeout t)
    (hClock : (clockReadings t).Pairwise (· < ·)) : patience ≤ timeout.toNat := by
  obtain ⟨start, rest, address, mask, state, hIn, hStalled⟩ := h
  have hReadings : (start :: clockReadings rest).Sublist (clockReadings t) :=
    hIn.sublist.filterMap clockReading?
  have hBound := hStalled.add_patience_le (UInt64.le_refl start) (by omega)
    (hClock.sublist hReadings)
  omega

end BootStage.Poll
