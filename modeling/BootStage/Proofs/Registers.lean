import Mathlib.Logic.Function.Basic
import BootStage.Proofs.Poll

/-!
# Plans for registers

A plan lists, act by act, what is to be done to registers.  `Follows` says which exchanges carry a
plan out and how that ends; only a wait can keep a plan from being carried out to its end.

The writes among such exchanges are the changes of the plan in its order, each by what the register
was just read as (`Makes`), and all of them if and only if the plan was carried out
(`Follows.makes`).  Registers that behave as plain memory end up with what the changes make of their
contents (`Makes.memory`), so that a register or a bit that no change names stays as it was.
-/

namespace BootStage

def Exchange.writes : Exchange → Bool
  | ⟨.writeRegister _ _, _⟩ => true
  | _ => false

namespace Poll

/-- Rounds of a wait until the bits of a mask are seen set, and how it ends. -/
inductive Waits (deadline : Deadline) (address mask : UInt32) : List Exchange → Outcome → Prop
  | seen {found : UInt32} : found &&& mask = mask →
      Waits deadline address mask [⟨.readRegister address, found⟩] .settled
  | seenLate {found last : UInt32} {now : UInt64} : found &&& mask ≠ mask →
      deadline.isExpired now = true → last &&& mask = mask →
      Waits deadline address mask
        [⟨.readRegister address, found⟩, ⟨.now, now⟩, ⟨.readRegister address, last⟩] .settled
  | missed {found last : UInt32} {now : UInt64} : found &&& mask ≠ mask →
      deadline.isExpired now = true → last &&& mask ≠ mask →
      Waits deadline address mask
        [⟨.readRegister address, found⟩, ⟨.now, now⟩, ⟨.readRegister address, last⟩] .timedOut
  | round {found : UInt32} {now : UInt64} {t : List Exchange} {outcome : Outcome} :
      found &&& mask ≠ mask → deadline.isExpired now = false →
      Waits deadline address mask t outcome →
      Waits deadline address mask (⟨.readRegister address, found⟩ :: ⟨.now, now⟩ :: t) outcome
  | lost : Waits deadline address mask [] .hung

variable {deadline : Deadline} {address mask timeout : UInt32} {patience : Nat}
  {t : List Exchange} {outcome : Outcome}

theorem isMet_set_iff {found : UInt32} :
    BitState.set.isMet found mask = true ↔ found &&& mask = mask :=
  beq_iff_eq

theorem waits_of_runs_rounds
    (h : Runs (rounds deadline
      (do let value ← Board.readRegister address; return BitState.set.isMet value mask) patience)
      t outcome) :
    Waits deadline address mask t outcome := by
  induction patience generalizing t with
  | zero =>
    obtain ⟨rfl, rfl⟩ := runs_pure_iff.1 h
    exact .lost
  | succ patience ih =>
    obtain ⟨holds, t₁, t₂, hFirst, hRest, rfl⟩ := runs_seq_iff.1 h
    obtain ⟨found, rfl, rfl⟩ := runs_condition hFirst
    split at hRest
    · next hMet =>
      obtain ⟨rfl, rfl⟩ := runs_pure_iff.1 hRest
      exact .seen (isMet_set_iff.1 hMet)
    · next hNotMet =>
      have hUnseen : found &&& mask ≠ mask := fun hSet => hNotMet (isMet_set_iff.2 hSet)
      obtain ⟨now, t₃, t₄, hNow, hLast, rfl⟩ := runs_seq_iff.1 hRest
      obtain rfl := runs_ask_iff.1 hNow
      split at hLast
      · next hExpired =>
        obtain ⟨holds, t₅, t₆, hAgain, hEnd, rfl⟩ := runs_seq_iff.1 hLast
        obtain ⟨last, rfl, rfl⟩ := runs_condition hAgain
        obtain ⟨rfl, rfl⟩ := runs_pure_iff.1 hEnd
        split
        · next hMet => exact .seenLate hUnseen hExpired (isMet_set_iff.1 hMet)
        · next hNotMet =>
          exact .missed hUnseen hExpired fun hSet => hNotMet (isMet_set_iff.2 hSet)
      · next hOngoing => exact .round hUnseen (eq_false_of_ne_true hOngoing) (ih hLast)

theorem waits_of_runs_awaitBits
    (h : Runs (awaitBits patience address mask .set timeout) t outcome) :
    ∃ start rounds, t = ⟨.now, start⟩ :: rounds ∧
      Waits ⟨start, timeout.toUInt64⟩ address mask rounds outcome := by
  obtain ⟨start, t₁, rounds, hStart, hRest, rfl⟩ := runs_seq_iff.1 h
  obtain rfl := runs_ask_iff.1 hStart
  exact ⟨start, rounds, rfl, waits_of_runs_rounds hRest⟩

namespace Waits

/-- A wait reads the register that it waits for, and the clock. -/
theorem asks (h : Waits deadline address mask t outcome) :
    ∀ e ∈ t, e.request = .readRegister address ∨ e.request = .now := by
  induction h with
  | seen _ => simp
  | seenLate _ _ _ => simp
  | missed _ _ _ => simp
  | round _ _ _ ih => simpa using ih
  | lost => simp

theorem writes_eq_false (h : Waits deadline address mask t outcome) :
    ∀ e ∈ t, e.writes = false := by
  intro ⟨q, reply⟩ he
  obtain hRead | hNow := h.asks _ he
  · obtain rfl : q = _ := hRead
    rfl
  · obtain rfl : q = _ := hNow
    rfl

/-- A wait that gives up does not see the bits, looks at the clock, and looks on or once more. -/
theorem cases_timedOut (h : Waits deadline address mask t .timedOut) :
    ∃ found now later, t = ⟨.readRegister address, found⟩ :: ⟨.now, now⟩ :: later ∧
      found &&& mask ≠ mask ∧
      (deadline.isExpired now = true ∧
          (∃ last : UInt32, later = [⟨.readRegister address, last⟩] ∧ last &&& mask ≠ mask) ∨
        deadline.isExpired now = false ∧ Waits deadline address mask later .timedOut) := by
  cases h with
  | @missed found last now hUnseen hExpired hMissed =>
    exact ⟨found, now, _, rfl, hUnseen, .inl ⟨hExpired, last, rfl, hMissed⟩⟩
  | @round found now later _ hUnseen hOngoing hLater =>
    exact ⟨found, now, later, rfl, hUnseen, .inr ⟨hOngoing, hLater⟩⟩

theorem round_inj {found found' : UInt32} {now now' : UInt64} {later later' : List Exchange}
    (h : (⟨.readRegister address, found⟩ :: ⟨.now, now⟩ :: later : List Exchange) =
      ⟨.readRegister address, found'⟩ :: ⟨.now, now'⟩ :: later') :
    found = found' ∧ now = now' ∧ later = later' := by
  simpa using h

/-- What comes first among some exchanges tells if a wait gave up, and what comes after it. -/
theorem timedOut_of_append_eq {t' rest after : List Exchange}
    (h : Waits deadline address mask t outcome) (h' : Waits deadline address mask t' .timedOut)
    (hHung : outcome = .hung → ∀ e later, rest = e :: later → e.request ≠ .readRegister address)
    (hEq : t ++ rest = t' ++ after) : outcome = .timedOut ∧ rest = after := by
  induction h generalizing t' with
  | seen hSet =>
    obtain ⟨found, now, later, rfl, hUnseen, -⟩ := h'.cases_timedOut
    obtain ⟨hRead, -⟩ := List.cons.inj hEq
    cases hRead
    exact absurd hSet hUnseen
  | seenLate _ hExpired hSet =>
    obtain ⟨found, now, later, rfl, -, hLater⟩ := h'.cases_timedOut
    obtain ⟨rfl, rfl, hRest⟩ := round_inj hEq
    obtain ⟨-, last, rfl, hMissed⟩ | ⟨hOngoing, -⟩ := hLater
    · obtain ⟨hRead, -⟩ := List.cons.inj hRest
      cases hRead
      exact absurd hSet hMissed
    · exact absurd hExpired (ne_true_of_eq_false hOngoing)
  | missed _ hExpired _ =>
    obtain ⟨found, now, later, rfl, -, hLater⟩ := h'.cases_timedOut
    obtain ⟨rfl, rfl, hRest⟩ := round_inj hEq
    obtain ⟨-, last, rfl, -⟩ | ⟨hOngoing, -⟩ := hLater
    · exact ⟨rfl, (List.cons.inj hRest).2⟩
    · exact absurd hExpired (ne_true_of_eq_false hOngoing)
  | round _ hOngoing _ ih =>
    obtain ⟨found, now, later, rfl, -, hLater⟩ := h'.cases_timedOut
    obtain ⟨rfl, rfl, hRest⟩ := round_inj hEq
    obtain ⟨hExpired, -⟩ | ⟨-, hLater⟩ := hLater
    · exact absurd hExpired (ne_true_of_eq_false hOngoing)
    · exact ih hLater hHung hRest
  | lost =>
    obtain ⟨found, now, later, rfl, -⟩ := h'.cases_timedOut
    exact absurd rfl (hHung rfl _ _ hEq)

end Waits

end Poll

namespace Registers

/-! ## Changes -/

/-- A change of one register. -/
inductive Change
  /-- The register is written, whatever it held. -/
  | put (address value : UInt32)
  /-- The register is read and written back, the bits of `clear` cleared and those of `set` set. -/
  | amend (address clear set : UInt32)
  deriving DecidableEq

namespace Change

def address : Change → UInt32
  | put address _ => address
  | amend address _ _ => address

/-- What becomes of a register that held `found`. -/
def apply : Change → UInt32 → UInt32
  | put _ value, _ => value
  | amend _ clear set, found => (found &&& ~~~clear) ||| set

/-- The bits that the change is about. -/
def named : Change → UInt32
  | put _ _ => 0xFFFFFFFF
  | amend _ clear set => clear ||| set

/-- The exchanges that change a register which holds `found`. -/
def exchanges : Change → UInt32 → List Exchange
  | put address value, _ => [⟨.writeRegister address value, ()⟩]
  | amend address clear set, found =>
    [⟨.readRegister address, found⟩,
      ⟨.writeRegister address ((found &&& ~~~clear) ||| set), ()⟩]

theorem address_of_mem (c : Change) {found address value : UInt32}
    (h : ⟨.writeRegister address value, ()⟩ ∈ c.exchanges found) : address = c.address := by
  cases c with
  | put a v =>
    cases List.mem_singleton.1 h
    rfl
  | amend a clear set =>
    obtain hRead | hWrite := List.mem_cons.1 h
    · cases hRead
    · cases List.mem_singleton.1 hWrite
      rfl

/-- Bits that the change does not name stay as they are. -/
theorem apply_and_not_named (c : Change) (found : UInt32) :
    c.apply found &&& ~~~c.named = found &&& ~~~c.named := by
  cases c with
  | put address value =>
    have hAll : (~~~0xFFFFFFFF : UInt32) = 0 := by decide
    rw [named, hAll, UInt32.and_zero, UInt32.and_zero]
  | amend address clear set =>
    apply UInt32.eq_of_toBitVec_eq
    ext i hi
    simp only [apply, named, UInt32.toBitVec_and, UInt32.toBitVec_or, UInt32.toBitVec_not,
      BitVec.getElem_and, BitVec.getElem_or, BitVec.getElem_not]
    cases found.toBitVec[i] <;> cases clear.toBitVec[i] <;> cases set.toBitVec[i] <;> rfl

end Change

/-- Contents of the registers, by address. -/
abbrev Memory := UInt32 → UInt32

/-- What changes, one after the other, make of the contents. -/
def changed : Memory → List Change → Memory
  | m, [] => m
  | m, c :: cs => changed (Function.update m c.address (c.apply (m c.address))) cs

variable {cs cs' : List Change} {t t' : List Exchange} {m m' : Memory}

theorem changed_of_not_mem {address : UInt32} (h : address ∉ cs.map (·.address)) :
    changed m cs address = m address := by
  induction cs generalizing m with
  | nil => rfl
  | cons c cs ih =>
    rw [List.map_cons, List.mem_cons, not_or] at h
    exact (ih h.2).trans (Function.update_of_ne h.1 _ _)

/-- If all changes of a register name the same bits, its other bits stay as they were. -/
theorem changed_and_not {address mask : UInt32}
    (h : ∀ c ∈ cs, c.address = address → c.named = mask) :
    changed m cs address &&& ~~~mask = m address &&& ~~~mask := by
  induction cs generalizing m with
  | nil => rfl
  | cons c cs ih =>
    rw [changed, ih fun c' hc' => h c' (List.mem_cons_of_mem c hc')]
    by_cases hAddress : c.address = address
    · rw [← h c List.mem_cons_self hAddress, ← hAddress, Function.update_self]
      exact c.apply_and_not_named _
    · rw [Function.update_of_ne (Ne.symm hAddress)]

/-! ## Changes among exchanges -/

/-- The writes among the exchanges are those of the changes, in their order, each right after the
read that it goes by. -/
inductive Makes : List Change → List Exchange → Prop
  | nil : Makes [] []
  | idle {e : Exchange} {cs : List Change} {t : List Exchange} : e.writes = false → Makes cs t →
      Makes cs (e :: t)
  | change (c : Change) (found : UInt32) {cs : List Change} {t : List Exchange} : Makes cs t →
      Makes (c :: cs) (c.exchanges found ++ t)

theorem Makes.append (h : Makes cs t) (h' : Makes cs' t') : Makes (cs ++ cs') (t ++ t') := by
  induction h with
  | nil => exact h'
  | idle hIdle _ ih => exact .idle hIdle ih
  | change c found _ ih =>
    rw [List.cons_append, List.append_assoc]
    exact .change c found ih

theorem makes_nil_of_idle (h : ∀ e ∈ t, e.writes = false) : Makes [] t := by
  induction t with
  | nil => exact .nil
  | cons e t ih =>
    exact .idle (h e List.mem_cons_self) (ih fun e' he' => h e' (List.mem_cons_of_mem e he'))

/-- The registers that are written are those of the changes. -/
theorem Makes.mem_address {address value : UInt32} (h : Makes cs t)
    (hWrite : ⟨.writeRegister address value, ()⟩ ∈ t) : address ∈ cs.map (·.address) := by
  induction h with
  | nil => cases hWrite
  | idle hIdle _ ih =>
    rcases List.mem_cons.1 hWrite with rfl | hWrite
    · cases hIdle
    · exact ih hWrite
  | change c found _ ih =>
    rcases List.mem_append.1 hWrite with hHere | hWrite
    · exact c.address_of_mem hHere ▸ List.mem_cons_self
    · exact List.mem_cons_of_mem _ (ih hWrite)

/-- The exchanges are with registers that behave as plain memory: each reads as it was last
written.  They hold `m` at first, and `m'` in the end. -/
inductive Remembered : Memory → List Exchange → Memory → Prop
  | nil (m : Memory) : Remembered m [] m
  | read (address : UInt32) {m m' : Memory} {t : List Exchange} : Remembered m t m' →
      Remembered m (⟨.readRegister address, m address⟩ :: t) m'
  | write (address value : UInt32) {m m' : Memory} {t : List Exchange} :
      Remembered (Function.update m address value) t m' →
      Remembered m (⟨.writeRegister address value, ()⟩ :: t) m'
  | other {e : Exchange} {m m' : Memory} {t : List Exchange} :
      (∀ address, e.request ≠ .readRegister address) →
      (∀ address value, e.request ≠ .writeRegister address value) → Remembered m t m' →
      Remembered m (e :: t) m'

theorem Remembered.of_idle {e : Exchange} (h : Remembered m (e :: t) m')
    (hIdle : e.writes = false) : Remembered m t m' := by
  cases h with
  | read _ h => exact h
  | write _ _ _ => cases hIdle
  | other _ _ h => exact h

theorem Remembered.of_read {address found : UInt32}
    (h : Remembered m (⟨.readRegister address, found⟩ :: t) m') :
    found = m address ∧ Remembered m t m' := by
  cases h with
  | read _ h => exact ⟨rfl, h⟩
  | other hNoRead _ _ => exact absurd rfl (hNoRead address)

theorem Remembered.of_write {address value : UInt32}
    (h : Remembered m (⟨.writeRegister address value, ()⟩ :: t) m') :
    Remembered (Function.update m address value) t m' := by
  cases h with
  | write _ _ h => exact h
  | other _ hNoWrite _ => exact absurd rfl (hNoWrite address value)

/-- Plain memory holds in the end what the changes make of it. -/
theorem Makes.memory (h : Makes cs t) (hMemory : Remembered m t m') : m' = changed m cs := by
  induction h generalizing m with
  | nil =>
    cases hMemory
    rfl
  | idle hIdle _ ih => exact ih (hMemory.of_idle hIdle)
  | change c found _ ih =>
    cases c with
    | put address value => exact ih hMemory.of_write
    | amend address clear set =>
      obtain ⟨rfl, hWrite⟩ := hMemory.of_read
      exact ih hWrite.of_write

/-! ## Plans -/

/-- What a plan does to a register. -/
inductive Act
  | change (c : Change)
  /-- The register is looked at, and reads as expected. -/
  | expect (address : UInt32) (finds : UInt32 → Bool)
  /-- The bits of the mask are set, and then waited for to be seen set. -/
  | raise (address mask : UInt32)

/-- The changes of registers that the act makes. -/
def Act.changes : Act → List Change
  | change c => [c]
  | expect _ _ => []
  | raise address mask => [.amend address 0 mask]

def Act.address : Act → UInt32
  | change c => c.address
  | expect address _ => address
  | raise address _ => address

/-- The exchanges of an act, and how it ends. -/
inductive Carries (timeout : UInt32) : Act → List Exchange → Poll.Outcome → Prop
  | change (c : Change) (found : UInt32) :
      Carries timeout (.change c) (c.exchanges found) .settled
  | expect {address found : UInt32} {finds : UInt32 → Bool} : finds found = true →
      Carries timeout (.expect address finds) [⟨.readRegister address, found⟩] .settled
  | raise {address mask : UInt32} (found : UInt32) (start : UInt64) {rounds : List Exchange}
      {outcome : Poll.Outcome} : Poll.Waits ⟨start, timeout.toUInt64⟩ address mask rounds outcome →
      Carries timeout (.raise address mask)
        ((Change.amend address 0 mask).exchanges found ++ ⟨.now, start⟩ :: rounds) outcome

/-- The exchanges carry out a plan, up to its end or to a wait that does not settle. -/
inductive Follows (timeout : UInt32) : List Act → List Exchange → Poll.Outcome → Prop
  | done : Follows timeout [] [] .settled
  | next {act : Act} {acts : List Act} {t t' : List Exchange} {outcome : Poll.Outcome} :
      Carries timeout act t .settled → Follows timeout acts t' outcome →
      Follows timeout (act :: acts) (t ++ t') outcome
  | stopped {act : Act} {acts : List Act} {t : List Exchange} {outcome : Poll.Outcome} :
      Carries timeout act t outcome → outcome ≠ .settled → Follows timeout (act :: acts) t outcome

variable {timeout address mask : UInt32} {act : Act} {acts acts' : List Act}
  {outcome : Poll.Outcome}

theorem Carries.follows (h : Carries timeout act t outcome) : Follows timeout [act] t outcome := by
  by_cases hSettled : outcome = .settled
  · subst hSettled
    simpa using Follows.next h .done
  · exact .stopped h hSettled

theorem Follows.append (h : Follows timeout acts t .settled)
    (h' : Follows timeout acts' t' outcome) :
    Follows timeout (acts ++ acts') (t ++ t') outcome := by
  generalize hOutcome : Poll.Outcome.settled = ended at h
  induction h with
  | done => exact h'
  | next hAct _ ih =>
    rw [List.cons_append, List.append_assoc]
    exact .next hAct (ih hOutcome)
  | stopped _ hStopped => exact absurd hOutcome.symm hStopped

/-- Where a plan stops, nothing of what would come after counts. -/
theorem Follows.stop (h : Follows timeout acts t outcome) (hStopped : outcome ≠ .settled)
    (acts' : List Act) : Follows timeout (acts ++ acts') t outcome := by
  induction h with
  | done => exact absurd rfl hStopped
  | next hAct _ ih => exact .next hAct (ih hStopped)
  | stopped hAct hStopped => exact .stopped hAct hStopped

theorem Follows.begins (h : Follows timeout (act :: acts) t outcome) :
    ∃ t₁ t₂ ended, Carries timeout act t₁ ended ∧ t = t₁ ++ t₂ ∧
      (ended = .settled → Follows timeout acts t₂ outcome) := by
  cases h with
  | next hAct hRest => exact ⟨_, _, _, hAct, rfl, fun _ => hRest⟩
  | stopped hAct hStopped =>
    exact ⟨_, [], _, hAct, (List.append_nil _).symm, fun hSettled => absurd hSettled hStopped⟩

/-- A plan stops in its first part, or that is carried out and its second part is followed. -/
theorem Follows.split (h : Follows timeout (acts ++ acts') t outcome) :
    Follows timeout acts t outcome ∨
      ∃ t₁ t₂, t = t₁ ++ t₂ ∧ Follows timeout acts t₁ .settled ∧
        Follows timeout acts' t₂ outcome := by
  induction acts generalizing t with
  | nil => exact .inr ⟨[], t, rfl, .done, h⟩
  | cons act acts ih =>
    cases h with
    | stopped hAct hStopped => exact .inl (.stopped hAct hStopped)
    | next hAct hRest =>
      obtain hFirst | ⟨t₁, t₂, rfl, hFirst, hSecond⟩ := ih hRest
      · exact .inl (.next hAct hFirst)
      · exact .inr ⟨_, t₂, (List.append_assoc _ _ _).symm, .next hAct hFirst, hSecond⟩

theorem Carries.makes (h : Carries timeout act t outcome) : Makes act.changes t := by
  cases h with
  | change c found => simpa [Act.changes] using Makes.change c found .nil
  | expect _ => exact makes_nil_of_idle (by simp [Exchange.writes])
  | @raise address mask found start rounds outcome hWaits =>
    refine .change (.amend address 0 mask) found (makes_nil_of_idle fun e he => ?_)
    rcases List.mem_cons.1 he with rfl | he
    · rfl
    · exact hWaits.writes_eq_false e he

/-- The writes are the changes that the plan makes, up to where it stops. -/
theorem Follows.makes (h : Follows timeout acts t outcome) {c : Change}
    (hLast : acts.getLast? = some (.change c)) :
    ∃ made, made <+: acts.flatMap Act.changes ∧ Makes made t ∧
      (outcome = .settled ↔ made = acts.flatMap Act.changes) := by
  induction h with
  | done => cases hLast
  | @next act acts t t' outcome hAct hRest ih =>
    by_cases hEnd : acts = []
    · subst hEnd
      cases hRest
      exact ⟨_, List.prefix_refl _, by simpa using hAct.makes, by simp⟩
    · obtain ⟨x, xs, rfl⟩ := List.exists_cons_of_ne_nil hEnd
      obtain ⟨made, hPrefix, hMakes, hAll⟩ := ih (by simpa using hLast)
      refine ⟨act.changes ++ made, ?_, hAct.makes.append hMakes, ?_⟩
      · exact List.prefix_append_right_inj _ |>.2 hPrefix
      · rw [hAll]
        exact (List.append_right_inj _).symm
  | @stopped act acts t outcome hAct hStopped =>
    refine ⟨act.changes, List.prefix_append _ _, hAct.makes, ?_⟩
    have hMem : .change c ∈ acts := by
      cases acts with
      | nil =>
        -- A change is always carried out, so the plan does not stop at its last act.
        obtain rfl : act = .change c := by simpa using hLast
        cases hAct
        exact absurd rfl hStopped
      | cons x xs => exact List.mem_of_getLast? (by simpa using hLast)
    have hMore : acts.flatMap Act.changes ≠ [] :=
      List.ne_nil_of_mem (List.mem_flatMap.2 ⟨_, hMem, List.mem_singleton_self c⟩)
    rw [List.flatMap_cons]
    simp [hStopped, hMore]

/-! ## What a plan reads -/

/-- What the exchange read the register as. -/
def readOf? (address : UInt32) : Exchange → Option UInt32
  | ⟨.readRegister a, found⟩ => if a = address then some found else none
  | _ => none

/-- What the register was first read as. -/
def firstRead? (address : UInt32) (t : List Exchange) : Option UInt32 :=
  t.findSome? (readOf? address)

theorem readOf?_eq_none_of_ne {e : Exchange} (h : e.request ≠ .readRegister address) :
    readOf? address e = none := by
  unfold readOf?
  split
  · next a found => exact if_neg fun hSame => h (congrArg Request.readRegister hSame)
  · rfl

/-- An act reads its own register alone. -/
theorem Carries.readOf?_eq_none (h : Carries timeout act t outcome)
    (hOther : act.address ≠ address) : ∀ e ∈ t, readOf? address e = none := by
  have hChange : ∀ (c : Change) (found : UInt32), c.address ≠ address →
      ∀ e ∈ c.exchanges found, readOf? address e = none := by
    intro c found hOther e he
    cases c with
    | put _ _ =>
      rw [List.mem_singleton.1 he]
      rfl
    | amend a clear set =>
      rcases List.mem_cons.1 he with rfl | he
      · exact if_neg hOther
      · rw [List.mem_singleton.1 he]
        rfl
  cases h with
  | change c found => exact hChange c found hOther
  | expect _ =>
    intro e he
    rw [List.mem_singleton.1 he]
    exact if_neg hOther
  | @raise a mask found start rounds _ hWaits =>
    intro e he
    rcases List.mem_append.1 he with he | he
    · exact hChange (.amend a 0 mask) found hOther e he
    · rcases List.mem_cons.1 he with rfl | he
      · rfl
      · refine readOf?_eq_none_of_ne fun hRead => ?_
        rcases hWaits.asks e he with hSame | hNow
        · rw [hSame] at hRead
          exact hOther (Request.readRegister.inj hRead)
        · rw [hNow] at hRead
          cases hRead

theorem Follows.firstRead?_eq_none (h : Follows timeout acts t outcome)
    (hOther : address ∉ acts.map (·.address)) : firstRead? address t = none := by
  rw [firstRead?, List.findSome?_eq_none_iff]
  induction h with
  | done => exact fun e he => nomatch he
  | next hAct _ ih =>
    rw [List.map_cons, List.mem_cons, not_or] at hOther
    intro e he
    rcases List.mem_append.1 he with he | he
    · exact hAct.readOf?_eq_none (Ne.symm hOther.1) e he
    · exact ih hOther.2 e he
  | stopped hAct _ =>
    rw [List.map_cons, List.mem_cons, not_or] at hOther
    exact hAct.readOf?_eq_none (Ne.symm hOther.1)

/-! ## Waits of a plan -/

/-- Right after a write to the register, the bits of the mask are waited for; the wait ends so, and
then comes `after`. -/
def Awaited (timeout address mask : UInt32) (t : List Exchange) (outcome : Poll.Outcome)
    (after : List Exchange) : Prop :=
  ∃ before value start rounds,
    t = before ++ ⟨.writeRegister address value, ()⟩ :: ⟨.now, start⟩ :: (rounds ++ after) ∧
      Poll.Waits ⟨start, timeout.toUInt64⟩ address mask rounds outcome

theorem Awaited.append {after : List Exchange} (h : Awaited timeout address mask t outcome after)
    (front back : List Exchange) :
    Awaited timeout address mask (front ++ t ++ back) outcome (after ++ back) := by
  obtain ⟨before, value, start, rounds, rfl, hWaits⟩ := h
  exact ⟨front ++ before, value, start, rounds, by simp, hWaits⟩

theorem Carries.awaited (h : Carries timeout (.raise address mask) t outcome) :
    Awaited timeout address mask t outcome [] := by
  cases h with
  | raise found start hWaits =>
    refine ⟨[⟨.readRegister address, found⟩], (Change.amend address 0 mask).apply found, start, _,
      ?_, hWaits⟩
    rw [List.append_nil]
    rfl

/-- A plan that was carried out saw all the bits that it raised. -/
theorem Follows.awaited_of_settled (h : Follows timeout acts t .settled)
    (hRaise : .raise address mask ∈ acts) :
    ∃ after, Awaited timeout address mask t .settled after := by
  generalize hOutcome : Poll.Outcome.settled = ended at h
  induction h with
  | done => cases hRaise
  | @next act acts t t' outcome hAct _ ih =>
    subst hOutcome
    rcases List.mem_cons.1 hRaise with rfl | hRaise
    · exact ⟨_, hAct.awaited.append [] t'⟩
    · obtain ⟨after, hAwaited⟩ := ih hRaise rfl
      have hLonger := hAwaited.append t []
      rw [List.append_nil, List.append_nil] at hLonger
      exact ⟨after, hLonger⟩
  | stopped _ hStopped => exact absurd hOutcome.symm hStopped

/-- A plan gives up in a wait, and nothing comes after that. -/
theorem Follows.awaited_of_timedOut (h : Follows timeout acts t .timedOut) :
    ∃ address mask, .raise address mask ∈ acts ∧ Awaited timeout address mask t .timedOut [] := by
  generalize hOutcome : Poll.Outcome.timedOut = ended at h
  induction h with
  | done => cases hOutcome
  | @next act acts t t' outcome hAct _ ih =>
    obtain ⟨address, mask, hRaise, hAwaited⟩ := ih hOutcome
    have hLonger := hAwaited.append t []
    rw [List.append_nil, List.append_nil] at hLonger
    exact ⟨address, mask, List.mem_cons_of_mem act hRaise, hLonger⟩
  | @stopped act acts t outcome hAct hStopped =>
    cases hAct with
    | change _ _ => cases hOutcome
    | expect _ => cases hOutcome
    | @raise address mask found start rounds outcome hWaits =>
      subst hOutcome
      exact ⟨address, mask, List.mem_cons_self, (Carries.raise found start hWaits).awaited⟩

/-- An act does not begin with a look at the clock. -/
theorem Carries.begins (h : Carries timeout act t outcome) :
    ∃ e rest, t = e :: rest ∧ e.request ≠ .now := by
  cases h with
  | change c found =>
    cases c with
    | put _ _ => exact ⟨_, _, rfl, nofun⟩
    | amend _ _ _ => exact ⟨_, _, rfl, nofun⟩
  | expect _ => exact ⟨_, _, rfl, nofun⟩
  | raise _ _ _ => exact ⟨_, _, rfl, nofun⟩

theorem Follows.request_ne_now {printed later : List Exchange} {e : Exchange}
    (h : Follows timeout acts t outcome) (hPrints : ∀ e ∈ printed, e.request.isEmit = true)
    (hFirst : t ++ printed = e :: later) : e.request ≠ .now := by
  cases h with
  | done =>
    intro hNow
    obtain rfl : printed = e :: later := hFirst
    have hEmit := hPrints e List.mem_cons_self
    rw [hNow] at hEmit
    cases hEmit
  | next hAct _ =>
    obtain ⟨e', rest, rfl, hNoClock⟩ := hAct.begins
    obtain ⟨rfl, -⟩ := List.cons.inj hFirst
    exact hNoClock
  | stopped hAct _ =>
    obtain ⟨e', rest, rfl, hNoClock⟩ := hAct.begins
    obtain ⟨rfl, -⟩ := List.cons.inj hFirst
    exact hNoClock

/-- A write comes after exchanges that write nothing. -/
theorem exists_of_idle_append {rest before later : List Exchange} {w : Exchange}
    (hIdle : ∀ e ∈ t, e.writes = false) (hWrites : w.writes = true)
    (hEq : t ++ rest = before ++ w :: later) : ∃ before', rest = before' ++ w :: later := by
  induction t generalizing before with
  | nil => exact ⟨before, hEq⟩
  | cons e t ih =>
    cases before with
    | nil =>
      obtain ⟨rfl, -⟩ := List.cons.inj hEq
      exact absurd hWrites (ne_true_of_eq_false (hIdle _ List.mem_cons_self))
    | cons e' before =>
      exact ih (fun e he => hIdle e (List.mem_cons_of_mem _ he)) (List.cons.inj hEq).2

/-- A wait that gives up is that of the act itself, or comes after the act. -/
theorem Carries.timedOut_or {rest before rounds after : List Exchange} {value : UInt32}
    {start : UInt64} (h : Carries timeout act t outcome)
    (hMask : ∀ mask', act = .raise address mask' → mask' = mask)
    (hRest : ∀ e later, rest = e :: later → e.request ≠ .now)
    (hHung : outcome = .hung → ∀ e later, rest = e :: later → e.request ≠ .readRegister address)
    (hWaits : Poll.Waits ⟨start, timeout.toUInt64⟩ address mask rounds .timedOut)
    (hEq : t ++ rest =
      before ++ ⟨.writeRegister address value, ()⟩ :: ⟨.now, start⟩ :: (rounds ++ after)) :
    outcome = .timedOut ∧ rest = after ∨
      ∃ before', rest =
        before' ++ ⟨.writeRegister address value, ()⟩ :: ⟨.now, start⟩ :: (rounds ++ after) := by
  have hChange : ∀ (a written : UInt32) (front : List Exchange),
      ⟨.writeRegister a written, ()⟩ :: rest = front ++
        ⟨.writeRegister address value, ()⟩ :: ⟨.now, start⟩ :: (rounds ++ after) →
      ∃ before', rest =
        before' ++ ⟨.writeRegister address value, ()⟩ :: ⟨.now, start⟩ :: (rounds ++ after) := by
    intro a written front hEq
    cases front with
    | nil =>
      obtain ⟨-, rfl⟩ := List.cons.inj hEq
      exact absurd rfl (hRest _ _ rfl)
    | cons e front => exact ⟨front, (List.cons.inj hEq).2⟩
  cases h with
  | change c found =>
    cases c with
    | put a written => exact .inr (hChange _ _ _ hEq)
    | amend a clear set =>
      obtain ⟨front, hWrite⟩ :=
        exists_of_idle_append (t := [⟨.readRegister a, found⟩]) (by simp [Exchange.writes]) rfl hEq
      exact .inr (hChange _ _ _ hWrite)
  | expect _ => exact .inr (exists_of_idle_append (by simp [Exchange.writes]) rfl hEq)
  | @raise a mask' found start' rounds' outcome hOwn =>
    obtain ⟨front, hWrite⟩ :=
      exists_of_idle_append (t := [⟨.readRegister a, found⟩]) (by simp [Exchange.writes]) rfl hEq
    cases front with
    | nil =>
      obtain ⟨hSame, hClock⟩ := List.cons.inj hWrite
      obtain ⟨hStart, hRounds⟩ := List.cons.inj hClock
      cases hSame
      cases hStart
      obtain rfl := hMask mask' rfl
      exact .inl (hOwn.timedOut_of_append_eq hWaits hHung hRounds)
    | cons e front =>
      refine .inr (exists_of_idle_append (t := ⟨.now, start'⟩ :: rounds') ?_ rfl
        (List.cons.inj hWrite).2)
      intro e he
      rcases List.mem_cons.1 he with rfl | he
      · rfl
      · exact hOwn.writes_eq_false e he

/-- Where a wait gave up, so did the plan, and what is printed then is all that comes after it. -/
theorem Follows.timedOut_of_awaited {printed after : List Exchange}
    (h : Follows timeout acts t outcome)
    (hMask : ∀ mask', .raise address mask' ∈ acts → mask' = mask)
    (hPrints : ∀ e ∈ printed, e.request.isEmit = true)
    (hAwaited : Awaited timeout address mask (t ++ printed) .timedOut after) :
    outcome = .timedOut ∧ after = printed := by
  obtain ⟨before, value, start, rounds, hEq, hWaits⟩ := hAwaited
  have hNotPrinted (before' : List Exchange) : printed ≠
      before' ++ ⟨.writeRegister address value, ()⟩ :: ⟨.now, start⟩ :: (rounds ++ after) := by
    rintro rfl
    cases hPrints _ (List.mem_append_right _ List.mem_cons_self)
  induction h generalizing before with
  | done => exact absurd hEq (hNotPrinted before)
  | next hAct hRest ih =>
    rw [List.append_assoc] at hEq
    have hHere := hAct.timedOut_or (fun mask' hRaise => hMask mask' (hRaise ▸ List.mem_cons_self))
      (fun _ _ => hRest.request_ne_now hPrints) nofun hWaits hEq
    obtain ⟨hSettled, -⟩ | ⟨before', hLater⟩ := hHere
    · cases hSettled
    · exact ih (fun mask' hRaise => hMask mask' (List.mem_cons_of_mem _ hRaise)) before' hLater
  | stopped hAct _ =>
    have hEmits : ∀ e later, printed = e :: later → e.request.isEmit = true :=
      fun e later hFirst => hPrints e (hFirst ▸ List.mem_cons_self)
    have hHere := hAct.timedOut_or (fun mask' hRaise => hMask mask' (hRaise ▸ List.mem_cons_self))
      (fun e later hFirst hNow => by cases hNow ▸ hEmits e later hFirst)
      (fun _ e later hFirst hRead => by cases hRead ▸ hEmits e later hFirst) hWaits hEq
    obtain ⟨rfl, rfl⟩ | ⟨before', hLater⟩ := hHere
    · exact ⟨rfl, rfl⟩
    · exact absurd hLater (hNotPrinted before')

end Registers

end BootStage
