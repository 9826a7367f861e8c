import Mathlib.Order.Monotone.Basic
import Mathlib.Order.Nat
import Mathlib.Tactic.ByContra
import BootStage.Proofs.Program

/-!
# Which reading and which test end a poll

A poll reads a clock and tests a condition in turn.  A `Script` says what every reading shows and how
every test comes out, in two sequences of which nothing is assumed: the clock may stand still or run
backwards, and the condition may come and go.  Both count from zero, so a test has the number of the
reading that it follows.

The first event of a script is the first reading or test that can end a poll: a reading that shows the
timeout to be over, or a test in which the condition holds.  A poll comes back with the test of that
number, and settled or timed out as that test comes out (`returns_first_event`); the test that
follows an expired reading is the one more that a poll makes.  Where there is no event the poll goes on
for as long as it is followed (`runs_hung`).
-/

namespace BootStage.Poll

/-- What a clock shows and how a condition comes out, from the start of a poll on. -/
structure Script (condition : Program Bool) where
  /-- The readings of the clock, of which the first starts the wait. -/
  clock : Nat → UInt64
  /-- What the tests of the condition exchange, the first of them after the first reading. -/
  test : Nat → List Exchange
  /-- How the tests come out. -/
  holds : Nat → Bool
  runs_test : ∀ i, Runs condition (test i) (holds i)

namespace Script

variable {condition : Program Bool} {s : Script condition} {timeout : UInt32}

/-- The first `n` readings, each with the test that comes after it. -/
def exchanges (s : Script condition) (n : Nat) : List Exchange :=
  (List.range n).flatMap fun i => ⟨.now, s.clock i⟩ :: s.test i

/-- The reading shows that more than the timeout has passed since the first one. -/
def Expires (s : Script condition) (timeout : UInt32) (i : Nat) : Prop :=
  timeout.toNat < (s.clock i).toNat - (s.clock 0).toNat

instance (s : Script condition) (timeout : UInt32) (i : Nat) : Decidable (s.Expires timeout i) :=
  inferInstanceAs (Decidable (_ < _))

/-- Answered by the script and followed for long enough, the poll comes back with the outcome after
`n` readings and `n` tests. -/
def Returns (s : Script condition) (timeout : UInt32) (outcome : Outcome) (n : Nat) : Prop :=
  ∃ enough, ∀ patience, enough ≤ patience →
    Runs (untilHolds patience timeout condition) (s.exchanges n) outcome

/-- The deadline of a poll that is answered by the script. -/
def deadline (s : Script condition) (timeout : UInt32) : Deadline := ⟨s.clock 0, timeout.toUInt64⟩

theorem isExpired_iff {i : Nat} :
    (s.deadline timeout).isExpired (s.clock i) = true ↔ s.Expires timeout i := by
  unfold Deadline.isExpired Expires deadline
  rw [decide_eq_true_eq, UInt64.lt_iff_toNat_lt, toNat_elapsed, UInt32.toNat_toUInt64]

theorem not_expires_zero : ¬ s.Expires timeout 0 := by
  unfold Expires
  omega

theorem exchanges_succ (s : Script condition) (n : Nat) :
    s.exchanges (n + 1) = s.exchanges n ++ ⟨.now, s.clock n⟩ :: s.test n := by
  unfold exchanges
  rw [List.range_succ, List.flatMap_append, List.flatMap_singleton]

theorem exchanges_prefix (s : Script condition) {m n : Nat} (h : m ≤ n) :
    s.exchanges m <+: s.exchanges n := by
  induction h with
  | refl => exact List.prefix_refl _
  | step _ ih =>
    rw [exchanges_succ]
    exact ih.trans (List.prefix_append _ _)

theorem exchanges_injective (s : Script condition) : Function.Injective s.exchanges := by
  have hMore : StrictMono fun n => (s.exchanges n).length := by
    refine strictMono_nat_of_lt_succ fun n => ?_
    rw [exchanges_succ, List.length_append, List.length_cons]
    omega
  intro m n hSame
  exact hMore.injective (congrArg List.length hSame)

/-! ## One round -/

section Rounds

variable {patience i : Nat} {u : List Exchange} {outcome : Outcome}

/-- The condition holds when it is tested. -/
theorem runs_rounds_of_holds (h : s.holds i = true) :
    Runs (rounds (s.deadline timeout) condition (patience + 1)) (s.test i) .settled := by
  have hTest := s.runs_test i
  rw [h] at hTest
  exact runs_seq_iff.2 ⟨true, _, _, hTest, .done _, (List.append_nil _).symm⟩

/-- The condition does not hold, the timeout is over, and the condition is tested once more. -/
theorem runs_rounds_of_expires (h : s.holds i = false) (hExpires : s.Expires timeout (i + 1)) :
    Runs (rounds (s.deadline timeout) condition (patience + 1))
      (s.test i ++ ⟨.now, s.clock (i + 1)⟩ :: s.test (i + 1))
      (if s.holds (i + 1) then .settled else .timedOut) := by
  have hTest := s.runs_test i
  rw [h] at hTest
  refine runs_seq_iff.2 ⟨false, _, _, hTest, ?_, rfl⟩
  refine runs_seq_iff.2 ⟨s.clock (i + 1), [_], _, runs_ask_iff.2 rfl, ?_, rfl⟩
  rw [if_pos (isExpired_iff.2 hExpires)]
  exact runs_seq_iff.2 ⟨_, _, _, s.runs_test (i + 1), .done _, (List.append_nil _).symm⟩

/-- The condition does not hold, the timeout is not over, and the poll goes on. -/
theorem runs_rounds_of_open (h : s.holds i = false) (hOpen : ¬ s.Expires timeout (i + 1))
    (hRest : Runs (rounds (s.deadline timeout) condition patience) u outcome) :
    Runs (rounds (s.deadline timeout) condition (patience + 1))
      (s.test i ++ ⟨.now, s.clock (i + 1)⟩ :: u) outcome := by
  have hTest := s.runs_test i
  rw [h] at hTest
  refine runs_seq_iff.2 ⟨false, _, _, hTest, ?_, rfl⟩
  refine runs_seq_iff.2 ⟨s.clock (i + 1), [_], _, runs_ask_iff.2 rfl, ?_, rfl⟩
  rw [if_neg fun hExpired => hOpen (isExpired_iff.1 hExpired)]
  exact hRest

end Rounds

/-! ## Many rounds -/

/-- Neither the test nor the reading after it ends the poll. -/
def Open (s : Script condition) (timeout : UInt32) (i : Nat) : Prop :=
  s.holds i = false ∧ ¬ s.Expires timeout (i + 1)

/-- As long as every round is open the poll reads and tests on. -/
theorem runs_untilHolds {n patience : Nat} {u : List Exchange} {outcome : Outcome}
    (hOpen : ∀ i < n, s.Open timeout i)
    (h : Runs (rounds (s.deadline timeout) condition patience) (s.test n ++ u) outcome) :
    Runs (untilHolds (patience + n) timeout condition) (s.exchanges (n + 1) ++ u) outcome := by
  induction n generalizing patience u with
  | zero =>
    exact runs_seq_iff.2 ⟨s.clock 0, [_], _, runs_ask_iff.2 rfl, h, by simp [exchanges]⟩
  | succ n ih =>
    obtain ⟨hHolds, hGoesOn⟩ := hOpen n (Nat.lt_succ_self n)
    have hRound := runs_rounds_of_open hHolds hGoesOn h
    have hRun := ih (fun i hi => hOpen i (by omega)) hRound
    rw [exchanges_succ, List.append_assoc, List.cons_append]
    rwa [Nat.add_right_comm, Nat.add_assoc] at hRun

/-! ## The first event -/

/-- The test or the reading of that number can end the poll. -/
def Event (s : Script condition) (timeout : UInt32) (i : Nat) : Prop :=
  s.holds i = true ∨ s.Expires timeout i

theorem holds_eq_false_of_not_event {i : Nat} (h : ¬ s.Event timeout i) : s.holds i = false :=
  eq_false_of_ne_true fun hHolds => h (.inl hHolds)

theorem exists_isLeast {p : Nat → Prop} (h : ∃ i, p i) : ∃ n, IsLeast {i | p i} n := by
  classical
  exact ⟨Nat.find h, Nat.isLeast_find h⟩

/-- The poll ends with the test of the first event, and as that test comes out. -/
theorem returns_first_event {n : Nat} (h : IsLeast {i | s.Event timeout i} n) :
    s.Returns timeout (if s.holds n then .settled else .timedOut) (n + 1) := by
  have hBefore : ∀ i < n, ¬ s.Event timeout i := fun i hi hEvent =>
    Nat.not_le_of_lt hi (h.2 hEvent)
  refine ⟨n + 1, fun patience hEnough => ?_⟩
  by_cases hExpires : s.Expires timeout n
  · -- The round before is the last one, and ends with the expired reading and one more test.
    cases n with
    | zero => exact absurd hExpires not_expires_zero
    | succ n =>
      obtain ⟨more, rfl⟩ : ∃ more, patience = more + 1 + n := ⟨patience - 1 - n, by omega⟩
      have hOpen : ∀ i < n, s.Open timeout i := fun i hi =>
        ⟨holds_eq_false_of_not_event (hBefore i (by omega)),
          fun hEarlier => hBefore (i + 1) (by omega) (.inr hEarlier)⟩
      have hLast := holds_eq_false_of_not_event (hBefore n (Nat.lt_succ_self n))
      rw [exchanges_succ]
      exact runs_untilHolds hOpen (runs_rounds_of_expires hLast hExpires)
  · obtain ⟨more, rfl⟩ : ∃ more, patience = more + 1 + n := ⟨patience - 1 - n, by omega⟩
    have hHolds : s.holds n = true := h.1.resolve_right hExpires
    have hOpen : ∀ i < n, s.Open timeout i := by
      intro i hi
      refine ⟨holds_eq_false_of_not_event (hBefore i hi), fun hNext => ?_⟩
      rcases Nat.lt_or_eq_of_le (Nat.succ_le_of_lt hi) with hEarlier | rfl
      · exact hBefore (i + 1) hEarlier (.inr hNext)
      · exact hExpires hNext
    have hLast : Runs (rounds (s.deadline timeout) condition (more + 1)) (s.test n ++ []) .settled := by
      rw [List.append_nil]
      exact runs_rounds_of_holds hHolds
    have hRun := runs_untilHolds hOpen hLast
    rw [if_pos hHolds]
    rwa [List.append_nil] at hRun

/-- Without an event the poll outlasts any patience. -/
theorem runs_hung (h : ∀ i, ¬ s.Event timeout i) (n : Nat) :
    Runs (untilHolds (1 + n) timeout condition)
      (s.exchanges (n + 1) ++ [⟨.now, s.clock (n + 1)⟩]) .hung := by
  have hOpen : ∀ i, s.Open timeout i := fun i =>
    ⟨holds_eq_false_of_not_event (h i), fun hExpires => h (i + 1) (.inr hExpires)⟩
  exact runs_untilHolds (fun i _ => hOpen i)
    (runs_rounds_of_open (hOpen n).1 (hOpen n).2 (.done _))

theorem Returns.unique {outcome outcome' : Outcome} {n n' : Nat}
    (h : s.Returns timeout outcome n) (h' : s.Returns timeout outcome' n') :
    n' = n ∧ outcome' = outcome := by
  obtain ⟨enough, hRuns⟩ := h
  obtain ⟨enough', hRuns'⟩ := h'
  have hRun := hRuns (max enough enough') (Nat.le_max_left _ _)
  have hRun' := hRuns' (max enough enough') (Nat.le_max_right _ _)
  rcases Nat.le_total n n' with hLe | hLe
  · obtain ⟨hSame, hOutcome⟩ := hRun.eq_of_prefix hRun' (s.exchanges_prefix hLe)
    exact ⟨s.exchanges_injective hSame, hOutcome⟩
  · obtain ⟨hSame, hOutcome⟩ := hRun'.eq_of_prefix hRun (s.exchanges_prefix hLe)
    exact ⟨(s.exchanges_injective hSame).symm, hOutcome.symm⟩

theorem Returns.exists_event {outcome : Outcome} {n : Nat} (h : s.Returns timeout outcome n)
    (hReturns : outcome ≠ .hung) : ∃ i, s.Event timeout i := by
  by_contra hNone
  obtain ⟨enough, hRuns⟩ := h
  have hHung := runs_hung (fun i hEvent => hNone ⟨i, hEvent⟩) (enough + n)
  have hRun := hRuns (1 + (enough + n)) (by omega)
  have hPrefix : s.exchanges n <+: s.exchanges (enough + n + 1) := s.exchanges_prefix (by omega)
  exact hReturns (hRun.eq_of_prefix hHung (hPrefix.trans (List.prefix_append _ _))).2.symm

/-- What a poll returns, it returns at its first event. -/
theorem Returns.at_first_event {outcome : Outcome} {n : Nat} (h : s.Returns timeout outcome n)
    (hReturns : outcome ≠ .hung) :
    ∃ i, IsLeast {i | s.Event timeout i} i ∧ n = i + 1 ∧
      outcome = if s.holds i then .settled else .timedOut := by
  obtain ⟨i, hFirst⟩ := exists_isLeast (h.exists_event hReturns)
  obtain ⟨hCount, hOutcome⟩ := (returns_first_event hFirst).unique h
  exact ⟨i, hFirst, hCount, hOutcome⟩

theorem returns_settled_iff {n : Nat} :
    s.Returns timeout .settled n ↔ ∃ j, n = j + 1 ∧ IsLeast {i | s.holds i = true} j ∧
      ∀ k, IsLeast {i | s.Expires timeout i} k → j ≤ k := by
  constructor
  · intro h
    obtain ⟨j, hFirst, rfl, hOutcome⟩ := h.at_first_event nofun
    have hHolds : s.holds j = true := by
      by_contra hNot
      rw [if_neg hNot] at hOutcome
      cases hOutcome
    exact ⟨j, rfl, ⟨hHolds, fun i hi => hFirst.2 (.inl hi)⟩, fun k hk => hFirst.2 (.inr hk.1)⟩
  · rintro ⟨j, rfl, hMeets, hInTime⟩
    have hHolds : s.holds j = true := hMeets.1
    have hFirst : IsLeast {i | s.Event timeout i} j := by
      refine ⟨.inl hHolds, ?_⟩
      rintro i (hi | hi)
      · exact hMeets.2 hi
      · obtain ⟨k, hk⟩ := exists_isLeast ⟨i, hi⟩
        exact (hInTime k hk).trans (hk.2 hi)
    have hReturns := returns_first_event hFirst
    rwa [if_pos hHolds] at hReturns

theorem returns_timedOut_iff {n : Nat} :
    s.Returns timeout .timedOut n ↔ ∃ k, n = k + 1 ∧ IsLeast {i | s.Expires timeout i} k ∧
      ∀ i ≤ k, s.holds i = false := by
  constructor
  · intro h
    obtain ⟨k, hFirst, rfl, hOutcome⟩ := h.at_first_event nofun
    have hNot : ¬ s.holds k = true := by
      intro hHolds
      rw [if_pos hHolds] at hOutcome
      cases hOutcome
    refine ⟨k, rfl, ⟨hFirst.1.resolve_left hNot, fun i hi => hFirst.2 (.inr hi)⟩, fun i hi => ?_⟩
    rcases Nat.lt_or_eq_of_le hi with hEarlier | rfl
    · exact holds_eq_false_of_not_event fun hEvent => Nat.not_le_of_lt hEarlier (hFirst.2 hEvent)
    · exact eq_false_of_ne_true hNot
  · rintro ⟨k, rfl, ⟨hExpires, hLeast⟩, hNever⟩
    have hFirst : IsLeast {i | s.Event timeout i} k := by
      refine ⟨.inr hExpires, ?_⟩
      rintro i (hi | hi)
      · by_contra hEarlier
        have hFalse := hNever i (by omega)
        rw [hi] at hFalse
        cases hFalse
      · exact hLeast hi
    have hReturns := returns_first_event hFirst
    rwa [if_neg (by rw [hNever k (Nat.le_refl k)]; nofun)] at hReturns

theorem returns_iff_event :
    (∃ n, s.Returns timeout .settled n ∨ s.Returns timeout .timedOut n) ↔
      ∃ i, s.holds i = true ∨ s.Expires timeout i := by
  constructor
  · rintro ⟨n, h | h⟩
    · exact h.exists_event nofun
    · exact h.exists_event nofun
  · intro hEvent
    obtain ⟨i, hFirst⟩ := exists_isLeast hEvent
    have hReturns := returns_first_event hFirst
    split at hReturns
    · exact ⟨i + 1, .inl hReturns⟩
    · exact ⟨i + 1, .inr hReturns⟩

/-- Whatever the clock shows and however the tests come out, the poll settles exactly if the condition
holds in a test no later than the one behind the first expired reading, with as many readings and
tests as it takes to see that for the first time; it times out exactly if a reading is expired and the
condition holds in no test up to the one behind it, after that test; and it comes back exactly if the
condition ever holds or a reading ever is expired. -/
theorem untilHolds_returns (s : Script condition) (timeout : UInt32) :
    ((∃ n, s.Returns timeout .settled n) ↔
      ∃ j, s.holds j = true ∧ ∀ k, IsLeast {i | s.Expires timeout i} k → j ≤ k) ∧
    (∀ n, s.Returns timeout .settled n ↔ ∃ j, n = j + 1 ∧ IsLeast {i | s.holds i = true} j ∧
      ∀ k, IsLeast {i | s.Expires timeout i} k → j ≤ k) ∧
    (∀ n, s.Returns timeout .timedOut n ↔ ∃ k, n = k + 1 ∧ IsLeast {i | s.Expires timeout i} k ∧
      ∀ i ≤ k, s.holds i = false) ∧
    ((∃ n, s.Returns timeout .settled n ∨ s.Returns timeout .timedOut n) ↔
      ∃ i, s.holds i = true ∨ s.Expires timeout i) := by
  refine ⟨?_, fun _ => returns_settled_iff, fun _ => returns_timedOut_iff, returns_iff_event⟩
  constructor
  · rintro ⟨n, h⟩
    obtain ⟨j, -, hMeets, hInTime⟩ := returns_settled_iff.1 h
    exact ⟨j, hMeets.1, hInTime⟩
  · rintro ⟨j, hHolds, hInTime⟩
    obtain ⟨first, hFirst⟩ : ∃ n, IsLeast {i | s.holds i = true} n := exists_isLeast ⟨j, hHolds⟩
    have hBefore : first ≤ j := hFirst.2 hHolds
    exact ⟨first + 1, returns_settled_iff.2
      ⟨first, rfl, hFirst, fun k hk => hBefore.trans (hInTime k hk)⟩⟩

/-- A wait for bits in a register, whatever the clock shows and the register reads. -/
def ofRegister (address mask : UInt32) (state : BitState) (clock : Nat → UInt64)
    (value : Nat → UInt32) :
    Script (do let value ← Board.readRegister address; return state.isMet value mask) where
  clock := clock
  test i := [⟨.readRegister address, value i⟩]
  holds i := state.isMet (value i) mask
  runs_test _ := .call (.done _)

/-- A clock that runs backwards first, then up to the deadline and past it, and a bit that comes up
behind the reading that is past it. -/
def lateBit :
    Script (do let value ← Board.readRegister 0x50001000; return BitState.set.isMet value 0x100) :=
  ofRegister 0x50001000 0x100 .set (fun i => [5000, 10, 5010, 5011].getD i 0)
    (fun i => if i = 3 then 0x100 else 0)

/-- The bit is seen by the test that is made once more. -/
theorem lateBit_settles : lateBit.Returns 10 .settled 4 := by
  have hLate : ∀ i < 3, lateBit.holds i = false := by decide
  have hInTime : ∀ k < 3, ¬ lateBit.Expires 10 k := by decide
  refine ((lateBit.untilHolds_returns 10).2.1 4).2 ⟨3, rfl, ⟨rfl, fun i hi => ?_⟩, fun k hk => ?_⟩
  · by_contra hEarlier
    exact Bool.false_ne_true ((hLate i (Nat.lt_of_not_le hEarlier)).symm.trans hi)
  · by_contra hEarlier
    exact hInTime k (Nat.lt_of_not_le hEarlier) hk.1

end Script

end BootStage.Poll
