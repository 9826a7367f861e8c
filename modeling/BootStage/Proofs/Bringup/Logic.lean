import BootStage.Bringup.Basic
import BootStage.Proofs.Ensures

/-!
# What an action may do

A `Contract` says what an action may ask of the board, how it may stop early, and how it may change
the bring-up.  `a.Stays K` says that the action `a` stays within the contract `K`, wherever it is
started and however the board answers.  There is one rule per way of building an action.
-/

namespace BootStage.Action

structure Contract where
  asks : Request → Prop
  stops : Stop → Prop
  changes : Bringup → Bringup → Prop
  refl : ∀ b, changes b b
  trans : ∀ {b c d}, changes b c → changes c d → changes b d
  log : ∀ b log, changes b (b.withLog log)

variable {α β : Type}

/-- Exchanges, outcome and states are as the contract allows. -/
structure Contract.Met (K : Contract) (b : Bringup) (t : List Exchange) (x : Except Stop α)
    (c : Bringup) : Prop where
  asks : ∀ e ∈ t, K.asks e.request
  stops : ∀ s, x = .error s → K.stops s
  changes : K.changes b c

/-- Started in `b`, the action stays within the contract. -/
def StaysAt (K : Contract) (b : Bringup) (a : Action α) : Prop :=
  Ensures a b fun t x c => K.Met b t x c

/-- The action stays within the contract. -/
def Stays (K : Contract) (a : Action α) : Prop := ∀ b, a.StaysAt K b

variable {K : Contract} {b : Bringup}

theorem not_mem_nil {P : Exchange → Prop} : ∀ e ∈ ([] : List Exchange), P e := by
  intro e he
  cases he

/-- What goes on within the contract from what was left within it has stayed within it. -/
theorem Contract.Met.append {c d : Bringup} {t t' : List Exchange} {x : Except Stop α}
    {y : Except Stop β} (h : K.Met b t x c) (h' : K.Met c t' y d) : K.Met b (t ++ t') y d where
  asks := fun e he => (List.mem_append.1 he).elim (h.asks e) (h'.asks e)
  stops := h'.stops
  changes := K.trans h.changes h'.changes

theorem stays_pure (v : α) : (pure v : Action α).Stays K := fun b =>
  ensures_pure.2 ⟨not_mem_nil, nofun, K.refl b⟩

theorem stays_throw {s : Stop} (h : K.stops s) : (throw s : Action α).Stays K := fun b =>
  ensures_throw.2 ⟨not_mem_nil, fun s' hs => by cases hs; exact h, K.refl b⟩

theorem stays_fail {e : Error} (h : K.stops (.failed e)) : (Action.fail e : Action α).Stays K :=
  stays_throw h

theorem stays_ofExcept {x : Except Error α} (h : ∀ e, x = .error e → K.stops (.failed e)) :
    (Action.ofExcept x).Stays K := by
  cases x with
  | ok v => exact stays_pure v
  | error e => exact stays_fail (h e rfl)

theorem stays_lift {p : Program α} (hp : p.AsksOnly K.asks) : (liftM p : Action α).Stays K :=
  fun b => ensures_lift.2 fun t v hRuns => ⟨hp t v hRuns, nofun, K.refl b⟩

theorem stays_modify {f : Bringup → Bringup} (hf : ∀ b : Bringup, K.changes b (f b)) :
    (modify f : Action Unit).Stays K := fun b =>
  ensures_modify.2 ⟨not_mem_nil, nofun, hf b⟩

theorem stays_note (level : Log.Level) (pieces : List String) :
    (Action.note level pieces).Stays K :=
  stays_modify fun b => K.log b _

theorem staysAt_set {c : Bringup} (h : K.changes b c) : (set c : Action Unit).StaysAt K b :=
  ensures_set.2 ⟨not_mem_nil, nofun, h⟩

theorem StaysAt.bind {a : Action α} {f : α → Action β} (ha : a.StaysAt K b)
    (hf : ∀ v, (f v).Stays K) : (a >>= f).StaysAt K b := by
  refine ensures_bind.2 (ha.mono fun t x c hFirst => ?_)
  cases x with
  | error s => exact ⟨hFirst.asks, fun s' hs => by cases hs; exact hFirst.stops s rfl,
      hFirst.changes⟩
  | ok v => exact (hf v c).mono fun t' y d hRest => hFirst.append hRest

theorem staysAt_set_bind {c : Bringup} {f : Unit → Action β} (h : K.changes b c)
    (hf : (f ()).Stays K) : ((set c : Action Unit) >>= f).StaysAt K b :=
  (staysAt_set h).bind fun _ => hf

theorem stays_bind {a : Action α} {f : α → Action β} (ha : a.Stays K)
    (hf : ∀ v, (f v).Stays K) : (a >>= f).Stays K := fun b =>
  (ha b).bind hf

/-- What follows a computed value starts from the same state. -/
theorem staysAt_ofExcept_bind {x : Except Error α} {f : α → Action β}
    (hStop : ∀ e, x = .error e → K.stops (.failed e))
    (hf : ∀ v, x = .ok v → (f v).StaysAt K b) : (Action.ofExcept x >>= f).StaysAt K b := by
  cases x with
  | ok v => exact ensures_bind.2 (ensures_pure.2 (hf v rfl))
  | error e =>
    refine ensures_bind.2 (ensures_throw.2 ?_)
    exact ⟨not_mem_nil, fun s hs => by cases hs; exact hStop e rfl, K.refl b⟩

/-- What follows a program starts from the same state, and the value is one that the program can
end in. -/
theorem staysAt_lift_bind {p : Program α} {f : α → Action β} (hp : p.AsksOnly K.asks)
    (hf : ∀ t v, Runs p t v → (f v).StaysAt K b) : ((liftM p : Action α) >>= f).StaysAt K b := by
  refine ensures_lift_bind.2 fun t v hRuns => ?_
  have hFirst : K.Met b t (.ok v : Except Stop α) b := ⟨hp t v hRuns, nofun, K.refl b⟩
  exact (hf t v hRuns).mono fun t' y d hRest => hFirst.append hRest

/-- What was read is the state that the rest starts from. -/
theorem stays_read_bind {f : Bringup → Action α} (hf : ∀ b, (f b).StaysAt K b) :
    (get >>= f).Stays K := fun b =>
  ensures_get_bind.2 (hf b)

theorem stays_get_bind {f : Bringup → Action α} (hf : ∀ b, (f b).Stays K) :
    (get >>= f).Stays K :=
  stays_read_bind fun b => hf b b

theorem stays_require {p : Program (Except DriverFault α)} {e : Error} (hp : p.AsksOnly K.asks)
    (h : K.stops (.failed e)) : (Action.require p e).Stays K := by
  refine stays_bind (stays_lift hp) fun reply => ?_
  cases reply with
  | ok v => exact stays_pure v
  | error _ => exact stays_fail h

theorem stays_settled (outcome : Poll.Outcome) (hTimeout : K.stops (.failed .timeout))
    (hHung : K.stops .hung) : (Action.settled outcome).Stays K := by
  cases outcome with
  | settled => exact stays_pure ()
  | timedOut => exact stays_fail hTimeout
  | hung => exact stays_throw hHung

/-- A driver call: the rest goes on from the value, and a fault ends it. -/
theorem ensures_require_bind {p : Program (Except DriverFault α)} {e : Error} {f : α → Action β}
    {Q : List Exchange → Except Stop β → Bringup → Prop} :
    Ensures (Action.require p e >>= f) b Q ↔ ∀ t reply, Runs p t reply → match reply with
      | .ok v => Ensures (f v) b fun t' x c => Q (t ++ t') x c
      | .error _ => Q t (.error (.failed e)) b := by
  rw [ensures_bind, Action.require, ensures_lift_bind]
  refine forall_congr' fun t => forall_congr' fun reply => imp_congr_right fun _ => ?_
  cases reply with
  | ok v => rw [ensures_pure, List.append_nil]
  | error _ => rw [Action.fail, ensures_throw, List.append_nil]

/-- A driver call at the end. -/
theorem ensures_require {p : Program (Except DriverFault α)} {e : Error}
    {Q : List Exchange → Except Stop α → Bringup → Prop} :
    Ensures (Action.require p e) b Q ↔ ∀ t reply, Runs p t reply →
      Q t (reply.mapError fun _ => .failed e) b := by
  rw [Action.require, ensures_lift_bind]
  refine forall_congr' fun t => forall_congr' fun reply => imp_congr_right fun _ => ?_
  cases reply with
  | ok v => rw [ensures_pure, List.append_nil]; rfl
  | error _ => rw [Action.fail, ensures_throw, List.append_nil]; rfl

/-- What looks at how an action ended goes on from what the action left, however it ended. -/
theorem ensures_outcome_bind {a : Action α} {f : Except Stop α → Action β} {b : Bringup}
    {Q : List Exchange → Except Stop β → Bringup → Prop} :
    Ensures (Action.outcome a >>= f) b Q ↔ Ensures a b fun t x c =>
      Ensures (f x) c fun t' y d => Q (t ++ t') y d := by
  have hRun : (Action.outcome a).run.run b = a.run.run b >>= fun p => pure (.ok p.1, p.2) := rfl
  rw [ensures_bind]
  constructor
  · intro h t x c hRuns
    refine h t (.ok x) c ?_
    rw [hRun]
    exact runs_seq_iff.2 ⟨(x, c), t, [], hRuns, .done _, (List.append_nil t).symm⟩
  · intro h t y c hRuns
    rw [hRun] at hRuns
    obtain ⟨⟨x, c'⟩, t₁, t₂, h₁, h₂, rfl⟩ := runs_seq_iff.1 hRuns
    obtain ⟨rfl, hEq⟩ := runs_pure_iff.1 h₂
    cases hEq
    rw [List.append_nil]
    exact h t₁ x c' h₁

/-- What looks at how an action ended finds an end that the contract allows. -/
theorem stays_outcome_bind {a : Action α} {f : Except Stop α → Action β} (ha : a.Stays K)
    (hf : ∀ x, (∀ s, x = .error s → K.stops s) → (f x).Stays K) :
    (Action.outcome a >>= f).Stays K := by
  intro b
  refine ensures_outcome_bind.2 ((ha b).mono fun t x c hFirst => ?_)
  exact (hf x hFirst.stops c).mono fun t' y d hRest => hFirst.append hRest

theorem stays_when {c : Prop} [Decidable c] {a : Action Unit} (ha : a.Stays K) :
    (if c then a else pure () : Action Unit).Stays K := by
  split
  · exact ha
  · exact stays_pure ()

/-- An action that is done only under a condition, in front of the rest. -/
theorem stays_guard {c : Prop} [Decidable c] {a : Action Unit} {f : Unit → Action β}
    (ha : a.Stays K) (hf : (f ()).Stays K) : (if c then a >>= f else f ()).Stays K := by
  split
  · exact stays_bind ha fun _ => hf
  · exact hf

theorem stays_forM {f : α → Action Unit} {l : List α} (hf : ∀ a ∈ l, (f a).Stays K) :
    (l.forM f).Stays K := by
  induction l with
  | nil => exact stays_pure ()
  | cons a l ih =>
    refine stays_bind (hf a List.mem_cons_self) fun _ => ?_
    exact ih fun a' h => hf a' (List.mem_cons_of_mem a h)

end BootStage.Action
