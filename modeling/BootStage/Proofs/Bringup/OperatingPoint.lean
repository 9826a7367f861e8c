import Mathlib.Data.List.Basic
import BootStage.Proofs.Boards
import BootStage.Proofs.Bringup.Sessions

/-!
# The supply before the clocks

The frequency of the processor is chosen last.  `Supplied` lists, exchange by exchange, what must
have gone on before the clocks are started at a frequency: the operating point was found, and the
supply delivers its voltage.  `denial?` gives the error for an exchange after which no frequency can
be chosen.  An action that `EndsOrDenied` either ends as is said of it or stops at the first such
exchange; there is one rule per way of building it.

Whatever the board answers, the clocks are started by the step of the operating point alone, last of
all that it asks, and at a frequency that is supplied for; a denied exchange ends the step in its
error, and the clocks are not started (`startClocks_supplied_or_denied`).
-/

namespace BootStage

/-! ## What is exchanged -/

def Exchange.startsClocks : Exchange → Bool
  | ⟨.startClocks _, _⟩ => true
  | _ => false

namespace Bringup

/-- What is exchanged before an operating point is looked for: the chip that supplies the processor
is started, and after standby the settings of the PLL are restored. -/
def preparation (pmic standby : Bool) : List Exchange :=
  (⟨.pmicPresent, pmic⟩ :: if pmic then [⟨.startPmic, .ok ()⟩] else []) ++
    (⟨.wokeFromStandby, standby⟩ :: if standby then [⟨.restorePll, .ok ()⟩] else [])

/-- The operating point is the saved one after standby, and the configured one otherwise. -/
def pointFound (standby : Bool) (point : OperatingPoint) : Exchange :=
  if standby then ⟨.savedOperatingPoint, .ok point⟩ else ⟨.configuredOperatingPoint, .ok point⟩

/-- The exchanges after which the supply delivers a voltage. -/
inductive Delivers (voltage : UInt16) : List Exchange → Prop
  | already (rail : String) :
      Delivers voltage [⟨.cpuSupply, some rail⟩, ⟨.railVoltage rail, .ok voltage⟩]
  | changed (rail : String) {current : UInt16} : current ≠ voltage →
      Delivers voltage [⟨.cpuSupply, some rail⟩, ⟨.railVoltage rail, .ok current⟩,
        ⟨.setRailVoltage rail voltage, .ok ()⟩]

/-- The exchanges after which the processor may run at a frequency. -/
inductive Supplied (pmic standby : Bool) : List Exchange → UInt32 → Prop
  | predefined : Supplied pmic standby [⟨.pllPredefined, true⟩] 0
  | unregulated (point : OperatingPoint) : pmic = false →
      Supplied pmic standby [⟨.pllPredefined, false⟩, pointFound standby point] point.frequencyKHz
  | regulated (point : OperatingPoint) {delivery : List Exchange} : pmic = true →
      Delivers point.voltageMV delivery →
      Supplied pmic standby (⟨.pllPredefined, false⟩ :: pointFound standby point :: delivery)
        point.frequencyKHz

/-- The error in which the step ends if no frequency can be chosen after an exchange. -/
def denial? : Exchange → Option Error
  | ⟨.startPmic, .error _⟩ => some .pmicError
  | ⟨.restorePll, .error _⟩ => some .operatingPointUnavailable
  | ⟨.savedOperatingPoint, .error _⟩ => some .operatingPointUnavailable
  | ⟨.configuredOperatingPoint, .error _⟩ => some .operatingPointUnavailable
  | ⟨.cpuSupply, none⟩ => some .pmicError
  | ⟨.railVoltage _, .error _⟩ => some .pmicError
  | ⟨.setRailVoltage _ _, .error _⟩ => some .pmicError
  | _ => none

/-- Denials are fatal, and they are not about printing or starting the clocks. -/
theorem isFatal_of_denial {e : Exchange} {error : Error} (h : denial? e = some error) :
    error.isFatal = true ∧ e.startsClocks = false ∧ e.request.isEmit = false := by
  unfold denial? at h
  split at h <;> cases h <;> exact ⟨rfl, rfl, rfl⟩

/-- Nothing was denied, and the clocks were not started. -/
def Uneventful (t : List Exchange) : Prop :=
  ∀ e ∈ t, denial? e = none ∧ e.startsClocks = false

theorem uneventful_append {t t' : List Exchange} (h : Uneventful t) (h' : Uneventful t') :
    Uneventful (t ++ t') :=
  List.forall_mem_append.2 ⟨h, h'⟩

theorem uneventful_cons {e : Exchange} {t : List Exchange} (hDenial : denial? e = none)
    (hClocks : e.startsClocks = false) (h : Uneventful t) : Uneventful (e :: t) :=
  List.forall_mem_cons.2 ⟨⟨hDenial, hClocks⟩, h⟩

theorem uneventful_singleton {e : Exchange} (hDenial : denial? e = none)
    (hClocks : e.startsClocks = false) : Uneventful [e] :=
  uneventful_cons hDenial hClocks Action.not_mem_nil

theorem uneventful_of_prints {t : List Exchange} (h : ∀ e ∈ t, e.request.isEmit = true) :
    Uneventful t := by
  intro e he
  have hPrint := h e he
  constructor
  · unfold denial?
    split <;> first | rfl | cases hPrint
  · unfold Exchange.startsClocks
    split <;> first | rfl | cases hPrint

theorem Uneventful.not_mem {t : List Exchange} {e : Exchange} (h : Uneventful t)
    (hClocks : e.startsClocks = true) : e ∉ t := by
  intro he
  rw [(h e he).2] at hClocks
  cases hClocks

/-- Only the exchange in the middle may have been denied, or have started the clocks. -/
theorem eq_or_of_mem_around {calls printed : List Exchange} {e e' : Exchange}
    (hCalls : Uneventful calls) (hPrints : ∀ e ∈ printed, e.request.isEmit = true)
    (he : e' ∈ calls ++ e :: printed) :
    e' = e ∨ denial? e' = none ∧ e'.startsClocks = false := by
  rcases List.mem_append.1 he with he | he
  · exact .inr (hCalls e' he)
  · exact (List.mem_cons.1 he).imp_right (uneventful_of_prints hPrints e')

/-! ## Actions that stop when they are denied something -/

/-- The exchanges end at the first one that is denied, and so does the action. -/
def Denied {α : Type} (t : List Exchange) (x : Except Stop α) : Prop :=
  ∃ calls e error, t = calls ++ [e] ∧ Uneventful calls ∧ denial? e = some error ∧
    x = .error (.failed error)

/-- The action ends as `R` says, unless an exchange is denied. -/
def EndsOrDenied {α : Type} (R : List Exchange → Except Stop α → Prop) (a : Action α) : Prop :=
  ∀ b, Ensures a b fun t x _ => R t x ∨ Denied t x

/-- The action ends in a value by exchanges of `Q`, unless an exchange is denied. -/
def Yields {α : Type} (Q : List Exchange → α → Prop) (a : Action α) : Prop :=
  EndsOrDenied (fun t x => ∃ v, x = .ok v ∧ Q t v) a

section Rules

variable {α β : Type} {Q : List Exchange → α → Prop} {R : List Exchange → Except Stop β → Prop}

theorem EndsOrDenied.mono {R' : List Exchange → Except Stop β → Prop} {a : Action β}
    (h : EndsOrDenied R a) (hR : ∀ t x, R t x → R' t x) : EndsOrDenied R' a := fun b =>
  (h b).mono fun t x _ => Or.imp_left (hR t x)

theorem yields_pure {v : α} (h : Q [] v) : Yields Q (pure v : Action α) := fun _ =>
  ensures_pure.2 (.inl ⟨v, rfl, h⟩)

/-- A driver call that makes one exchange, and whose fault is a denial. -/
theorem yields_require {p : Program (Except DriverFault α)} {error : Error}
    {exchange : Except DriverFault α → Exchange}
    (hRuns : ∀ t reply, Runs p t reply → t = [exchange reply])
    (hFault : ∀ fault, denial? (exchange (.error fault)) = some error) :
    Yields (fun t v => t = [exchange (.ok v)]) (Action.require p error) := by
  intro b
  refine ensures_lift_bind.2 fun t reply hCall => ?_
  obtain rfl := hRuns t reply hCall
  cases reply with
  | ok v => exact ensures_pure.2 (.inl ⟨v, rfl, rfl⟩)
  | error fault =>
    exact ensures_throw.2 (.inr ⟨[], _, error, rfl, Action.not_mem_nil, hFault fault, rfl⟩)

/-- What comes first may be denied; otherwise the rest goes on from what was exchanged. -/
theorem endsOrDenied_bind {a : Action α} {f : α → Action β} (ha : Yields Q a)
    (hCalm : ∀ t v, Q t v → Uneventful t)
    (hf : ∀ t v, Q t v → EndsOrDenied (fun t' y => R (t ++ t') y) (f v)) :
    EndsOrDenied R (a >>= f) := by
  intro b
  refine ensures_bind.2 ((ha b).mono ?_)
  rintro t x c (⟨v, rfl, hHolds⟩ | ⟨calls, e, error, rfl, hCalls, hDenied, rfl⟩)
  · refine (hf t v hHolds c).mono ?_
    rintro t' y d (hEnds | ⟨calls, e, error, rfl, hCalls, hDenied, rfl⟩)
    · exact .inl hEnds
    · refine .inr ⟨t ++ calls, e, error, ?_, ?_, hDenied, rfl⟩
      · rw [List.append_assoc]
      · exact uneventful_append (hCalm t v hHolds) hCalls
  · exact .inr ⟨calls, e, error, rfl, hCalls, hDenied, rfl⟩

/-- A query: the rest goes on from an answer that is harmless, and fails on one that is a denial. -/
theorem endsOrDenied_ask_bind {q : Request} {f : q.Reply → Action β}
    (hf : ∀ reply, Uneventful [⟨q, reply⟩] ∧
        EndsOrDenied (fun t y => R (⟨q, reply⟩ :: t) y) (f reply) ∨
      ∃ error, denial? ⟨q, reply⟩ = some error ∧ f reply = Action.fail error) :
    EndsOrDenied R ((liftM (Program.ask q) : Action q.Reply) >>= f) := by
  intro b
  refine ensures_ask_bind.2 fun reply => ?_
  rcases hf reply with ⟨hCalm, hRest⟩ | ⟨error, hDenied, hFail⟩
  · refine (hRest b).mono ?_
    rintro t y c (hEnds | ⟨calls, e, error, rfl, hCalls, hDenied, rfl⟩)
    · exact .inl hEnds
    · exact .inr ⟨_ :: calls, e, error, rfl, uneventful_append hCalm hCalls, hDenied, rfl⟩
  · rw [hFail]
    exact ensures_throw.2 (.inr ⟨[], _, error, rfl, Action.not_mem_nil, hDenied, rfl⟩)

theorem endsOrDenied_note_bind {level : Log.Level} {pieces : List String} {f : Unit → Action β}
    (hf : EndsOrDenied R (f ())) : EndsOrDenied R (Action.note level pieces >>= f) := fun _ =>
  ensures_modify_bind.2 (hf _)

/-- A driver call that is made only under a condition, in front of the rest. -/
theorem endsOrDenied_guard {c : Bool} {e : Exchange} {a : Action Unit} {f : Unit → Action β}
    (ha : Yields (fun t _ => t = [e]) a) (hCalm : Uneventful [e])
    (hf : EndsOrDenied (fun t y => R ((if c then [e] else []) ++ t) y) (f ())) :
    EndsOrDenied R (if c then a >>= f else f ()) := by
  cases c with
  | false => exact hf
  | true =>
    refine endsOrDenied_bind ha ?_ ?_
    · rintro _ _ rfl
      exact hCalm
    · rintro _ _ rfl
      exact hf

end Rules

/-! ## The step -/

theorem Delivers.uneventful {voltage : UInt16} {t : List Exchange} (h : Delivers voltage t) :
    Uneventful t := by
  cases h <;> simp [Uneventful, denial?, Exchange.startsClocks]

theorem uneventful_preparation (pmic standby : Bool) : Uneventful (preparation pmic standby) := by
  cases pmic <;> cases standby <;>
    simp [preparation, Uneventful, denial?, Exchange.startsClocks]

theorem uneventful_pointFound (standby : Bool) (point : OperatingPoint) :
    Uneventful [pointFound standby point] := by
  cases standby <;> exact uneventful_singleton rfl rfl

theorem Supplied.uneventful {pmic standby : Bool} {t : List Exchange} {frequency : UInt32}
    (h : Supplied pmic standby t frequency) : Uneventful t := by
  cases h with
  | predefined => exact uneventful_singleton rfl rfl
  | unregulated point _ => exact uneventful_cons rfl rfl (uneventful_pointFound standby point)
  | regulated point _ hDelivers =>
    exact uneventful_cons rfl rfl
      (uneventful_append (uneventful_pointFound standby point) hDelivers.uneventful)

theorem Supplied.uneventful_prepared {pmic standby : Bool} {t : List Exchange} {frequency : UInt32}
    (h : Supplied pmic standby t frequency) : Uneventful (preparation pmic standby ++ t) :=
  uneventful_append (uneventful_preparation pmic standby) h.uneventful

theorem yields_supplyVoltage (voltage : UInt16) :
    Yields (fun t _ => Delivers voltage t) (supplyVoltage voltage) := by
  refine endsOrDenied_ask_bind fun supply => ?_
  cases supply with
  | none => exact .inr ⟨.pmicError, rfl, rfl⟩
  | some rail =>
    refine .inl ⟨uneventful_singleton rfl rfl, ?_⟩
    refine endsOrDenied_bind (yields_require (fun _ _ => runs_ask_iff.1) fun _ => rfl) ?_ ?_
    · rintro _ current rfl
      exact uneventful_singleton rfl rfl
    · rintro _ current rfl
      split
      · next hOther =>
        refine endsOrDenied_note_bind ?_
        refine (yields_require (fun _ _ => runs_ask_iff.1) fun _ => rfl).mono ?_
        rintro _ _ ⟨v, rfl, rfl⟩
        exact ⟨v, rfl, .changed rail hOther⟩
      · next hSame =>
        obtain rfl := not_not.1 hSame
        exact yields_pure (.already rail)

theorem yields_supplyFrequency (pmic standby : Bool) :
    Yields (fun t frequency => Supplied pmic standby t frequency)
      (supplyFrequency pmic standby) := by
  refine endsOrDenied_ask_bind fun predefined => .inl ⟨uneventful_singleton rfl rfl, ?_⟩
  cases predefined with
  | true => exact yields_pure .predefined
  | false =>
    have hPoint : Yields (fun t point => t = [pointFound standby point])
        (Action.require
          (if standby then Board.savedOperatingPoint else Board.configuredOperatingPoint)
          .operatingPointUnavailable) := by
      cases standby with
      | true => exact yields_require (fun _ _ => runs_ask_iff.1) fun _ => rfl
      | false => exact yields_require (fun _ _ => runs_ask_iff.1) fun _ => rfl
    refine endsOrDenied_bind hPoint ?_ ?_
    · rintro _ point rfl
      exact uneventful_pointFound standby point
    · rintro _ point rfl
      cases pmic with
      | true =>
        refine endsOrDenied_bind (yields_supplyVoltage point.voltageMV)
          (fun _ _ hDelivers => hDelivers.uneventful) fun delivery _ hDelivers => yields_pure ?_
        rw [List.append_nil]
        exact .regulated point rfl hDelivers
      | false => exact yields_pure (.unregulated point rfl)

/-- How the step of the operating point goes unless it is denied something: the clocks are started
last, and if they do not start, then that is how the step fails. -/
def Selects (t : List Exchange) (x : Except Stop Unit) : Prop :=
  ∃ pmic standby supply frequency reply,
    Supplied pmic standby supply frequency ∧
    t = preparation pmic standby ++ supply ++ [⟨.startClocks frequency, reply⟩] ∧
    x = reply.mapError fun _ => .failed .clockInitFailed

theorem endsOrDenied_startClocks (frequency : UInt32) :
    EndsOrDenied (fun t x => ∃ reply, t = [⟨.startClocks frequency, reply⟩] ∧
        x = reply.mapError fun _ => Stop.failed .clockInitFailed)
      (Action.require (Board.startClocks frequency) .clockInitFailed) := by
  intro b
  refine ensures_ask_bind.2 fun reply => ?_
  cases reply with
  | ok _ => exact ensures_pure.2 (.inl ⟨.ok (), rfl, rfl⟩)
  | error fault => exact ensures_throw.2 (.inl ⟨.error fault, rfl, rfl⟩)

theorem endsOrDenied_selectOperatingPoint : EndsOrDenied Selects selectOperatingPoint := by
  refine endsOrDenied_ask_bind fun pmic => .inl ⟨uneventful_singleton rfl rfl, ?_⟩
  refine endsOrDenied_guard (e := ⟨.startPmic, .ok ()⟩)
    (yields_require (fun _ _ => runs_ask_iff.1) fun _ => rfl) (uneventful_singleton rfl rfl) ?_
  refine endsOrDenied_ask_bind fun standby => .inl ⟨uneventful_singleton rfl rfl, ?_⟩
  refine endsOrDenied_guard (e := ⟨.restorePll, .ok ()⟩)
    (yields_require (fun _ _ => runs_ask_iff.1) fun _ => rfl) (uneventful_singleton rfl rfl) ?_
  refine endsOrDenied_bind (yields_supplyFrequency pmic standby)
    (fun _ _ hSupplied => hSupplied.uneventful) fun supply frequency hSupplied => ?_
  refine (endsOrDenied_startClocks frequency).mono ?_
  rintro _ _ ⟨reply, rfl, rfl⟩
  exact ⟨pmic, standby, supply, frequency, reply, hSupplied, by simp [preparation], rfl⟩

end Bringup

open Bringup

/-! ## The attempt -/

theorem Step.eq_operatingPoint_of_asks_startClocks {s : Step} {frequency : UInt32}
    (h : s.Asks (.startClocks frequency)) : s = .operatingPoint := by
  cases h
  rfl

theorem Step.eq_operatingPoint_of_asks_setRailVoltage {s : Step} {rail : String} {voltage : UInt16}
    (h : s.Asks (.setRailVoltage rail voltage)) : s = .operatingPoint := by
  cases h
  rfl

namespace Attempt

variable {a : Attempt}

/-- How an attempt goes that executes the step of the operating point: the clocks are started, and
before that goes what they need, or something is denied. -/
inductive Chooses (a : Attempt) : Prop
  | started {pmic standby : Bool} {supply printed : List Exchange} (frequency : UInt32)
      (reply : Except DriverFault Unit) : Supplied pmic standby supply frequency →
      a.exchanges =
        preparation pmic standby ++ supply ++ ⟨.startClocks frequency, reply⟩ :: printed →
      (∀ e ∈ printed, e.request.isEmit = true) →
      a.result = (reply.mapError fun _ => .fatal ⟨.operatingPoint, .clockInitFailed⟩) → Chooses a
  | denied {calls printed : List Exchange} {e : Exchange} {error : Error} :
      a.exchanges = calls ++ e :: printed → Uneventful calls → denial? e = some error →
      (∀ e ∈ printed, e.request.isEmit = true) →
      a.result = .error (.fatal ⟨.operatingPoint, error⟩) → Chooses a

theorem Genuine.chooses (h : a.Genuine) (hStep : a.step = .operatingPoint)
    (hExecutes : a.executes = true) : a.Chooses := by
  obtain ⟨started, acted, printed, x, c, hActed⟩ := h.acted_of_executes hExecutes
  have hRuns := hActed.runs
  have hConcludes := hActed.concludes
  rw [hStep] at hRuns hConcludes
  rcases endsOrDenied_selectOperatingPoint _ _ _ _ hRuns with hSelects | hDenied
  · obtain ⟨pmic, standby, supply, frequency, reply, hSupplied, rfl, rfl⟩ := hSelects
    refine .started frequency reply hSupplied ?_ hActed.prints ?_
    · rw [hActed.exchanges, List.append_assoc]
      rfl
    · cases reply with
      | ok _ => exact hConcludes.of_ok.1
      | error fault => exact (hConcludes.of_fatal rfl).1
  · obtain ⟨calls, e, error, rfl, hCalls, hDenied, rfl⟩ := hDenied
    refine .denied ?_ hCalls hDenied hActed.prints
      (hConcludes.of_fatal (isFatal_of_denial hDenied).1).1
    rw [hActed.exchanges, List.append_assoc]
    rfl

/-- What comes before the clocks start is what they need. -/
theorem Chooses.supplied (h : a.Chooses) {before after : List Exchange} {frequency : UInt32}
    {reply : Except DriverFault Unit}
    (hExchanges : a.exchanges = before ++ ⟨.startClocks frequency, reply⟩ :: after) :
    (∀ e ∈ after, e.request.isEmit = true) ∧ ∃ pmic standby supply,
      before = preparation pmic standby ++ supply ∧ Supplied pmic standby supply frequency := by
  cases h with
  | started frequency' reply' hSupplied hChosen hPrints _ =>
    rw [hChosen] at hExchanges
    have hCalls := hSupplied.uneventful_prepared
    -- The clocks are started once, so this is the place where the exchanges were split.
    obtain ⟨rfl, hSame, rfl⟩ := (List.append_cons_inj_of_notMem (hCalls.not_mem rfl)
      ((uneventful_of_prints hPrints).not_mem rfl)).1 hExchanges
    cases hSame
    exact ⟨hPrints, _, _, _, rfl, hSupplied⟩
  | denied hDenied hCalls hDenial hPrints _ =>
    have hStarts : (⟨.startClocks frequency, reply⟩ : Exchange) ∈ a.exchanges := by
      rw [hExchanges]
      exact List.mem_append_right _ List.mem_cons_self
    rw [hDenied] at hStarts
    rcases eq_or_of_mem_around hCalls hPrints hStarts with rfl | ⟨-, hKept⟩
    · cases hDenial
    · cases hKept

/-- The exchange that is denied decides how the attempt ends, and the clocks stay as they are. -/
theorem Chooses.fails (h : a.Chooses) {e : Exchange} {error : Error} (he : e ∈ a.exchanges)
    (hDenial : denial? e = some error) :
    a.result = .error (.fatal ⟨.operatingPoint, error⟩) ∧
      ∀ e' ∈ a.exchanges, e'.startsClocks = false := by
  cases h with
  | started frequency reply hSupplied hChosen hPrints _ =>
    have hCalls := hSupplied.uneventful_prepared
    rw [hChosen] at he
    rcases eq_or_of_mem_around hCalls hPrints he with rfl | ⟨hGranted, -⟩
    · cases hDenial
    · rw [hGranted] at hDenial
      cases hDenial
  | denied hDenied hCalls hFirst hPrints hResult =>
    rw [hDenied] at he ⊢
    rcases eq_or_of_mem_around hCalls hPrints he with rfl | ⟨hGranted, -⟩
    · rw [hFirst] at hDenial
      cases hDenial
      refine ⟨hResult, fun e' he' => ?_⟩
      rcases eq_or_of_mem_around hCalls hPrints he' with rfl | ⟨-, hKept⟩
      · exact (isFatal_of_denial hFirst).2.1
      · exact hKept
    · rw [hGranted] at hDenial
      cases hDenial

end Attempt

/-- The processor is never clocked beyond its supply.  Clocks are started by the step of the
operating point alone, last of all, and at a frequency that is supplied for.  What is denied ends
the step in its error, and the clocks are not started.  If nothing is denied, then they are. -/
theorem startClocks_supplied_or_denied {a : Attempt} (h : a.Genuine) :
    (∀ before frequency reply after,
      a.exchanges = before ++ ⟨.startClocks frequency, reply⟩ :: after →
        a.step = .operatingPoint ∧ (∀ e ∈ after, e.request.isEmit = true) ∧
        ∃ pmic standby supply, before = preparation pmic standby ++ supply ∧
          Supplied pmic standby supply frequency) ∧
    (a.step = .operatingPoint → ∀ e ∈ a.exchanges, ∀ error, denial? e = some error →
      a.result = .error (.fatal ⟨.operatingPoint, error⟩) ∧
        ∀ e' ∈ a.exchanges, e'.startsClocks = false) ∧
    (a.step = .operatingPoint → a.executes = true → (∀ e ∈ a.exchanges, denial? e = none) →
      ∃ frequency reply, ⟨.startClocks frequency, reply⟩ ∈ a.exchanges ∧
        a.result = reply.mapError fun _ => .fatal ⟨.operatingPoint, .clockInitFailed⟩) := by
  refine ⟨fun before frequency reply after hExchanges => ?_, fun hStep e he error hDenial => ?_,
    fun hStep hExecutes hGranted => ?_⟩
  · have hStarts : (⟨.startClocks frequency, reply⟩ : Exchange) ∈ a.exchanges := by
      rw [hExchanges]
      exact List.mem_append_right _ List.mem_cons_self
    obtain ⟨hExecutes, hAsks⟩ := h.asks_of_mem hStarts rfl
    have hStep := Step.eq_operatingPoint_of_asks_startClocks hAsks
    exact ⟨hStep, (h.chooses hStep hExecutes).supplied hExchanges⟩
  · have hSilent := (isFatal_of_denial hDenial).2.2
    exact (h.chooses hStep (h.asks_of_mem he hSilent).1).fails he hDenial
  · cases h.chooses hStep hExecutes with
    | started frequency reply _ hChosen _ hResult =>
      refine ⟨frequency, reply, ?_, hResult⟩
      rw [hChosen]
      exact List.mem_append_right _ List.mem_cons_self
    | denied hDenied _ hDenial _ _ =>
      rw [hDenied] at hGranted
      rw [hGranted _ (List.mem_append_right _ List.mem_cons_self)] at hDenial
      cases hDenial

/-- Replies of a board with a power management chip, which woke from standby at a higher operating
point than its supply delivers; `raised` is how the supply takes that. -/
def standbySupplyReply (raised : Except DriverFault Unit) : (q : Request) → q.Reply
  | .pmicPresent | .wokeFromStandby => true
  | .pllPredefined => false
  | .savedOperatingPoint => .ok ⟨800000, 1350⟩
  | .cpuSupply => some "vddcore"
  | .setRailVoltage _ _ => raised
  | q => usualReply 0 q

/-- The supply is raised before the processor runs faster; if it cannot be, the boot ends there. -/
theorem standby_supply_raised_or_fatal :
    (∃ attempts b, Session (.fresh .standard usualContext 4) [.bringUp] attempts b ∧
      ∃ x ∈ attempts, ∃ pmic standby supply,
        preparation pmic standby ++ supply ++ [⟨.startClocks 800000, .ok ()⟩] <+: x.exchanges ∧
        Supplied pmic standby supply 800000) ∧
    ∃ attempts b, Session (.fresh .standard usualContext 4) [.bringUp] attempts b ∧
      ∃ x ∈ attempts, ⟨.setRailVoltage "vddcore" 1350, .error .timeout⟩ ∈ x.exchanges ∧
        x.result = .error (.fatal ⟨.operatingPoint, .pmicError⟩) ∧
        ∀ e ∈ x.exchanges, e.startsClocks = false := by
  constructor
  · obtain ⟨attempts, hSession, hExchanges⟩ := exists_session
      (steadyBoard (standbySupplyReply (.ok ()))) () [.bringUp] (.fresh .standard usualContext 4)
    have hStarts : ⟨.startClocks 800000, .ok ()⟩ ∈ attempts.flatMap (·.exchanges) := by
      rw [← hExchanges]
      exact (steady_transcript _ _).mem (q := .startClocks 800000) (by decide +kernel)
    obtain ⟨x, hx, hMem⟩ := List.mem_flatMap.1 hStarts
    obtain ⟨before, after, hSplit⟩ := List.append_of_mem hMem
    obtain ⟨-, -, pmic, standby, supply, rfl, hSupplied⟩ :=
      (startClocks_supplied_or_denied (hSession.path.genuine_of_mem hx)).1 before _ _ after hSplit
    refine ⟨attempts, _, hSession, x, hx, pmic, standby, supply, ⟨after, ?_⟩, hSupplied⟩
    rw [hSplit, List.append_assoc]
    rfl
  · obtain ⟨attempts, hSession, hExchanges⟩ := exists_session
      (steadyBoard (standbySupplyReply (.error .timeout))) () [.bringUp]
      (.fresh .standard usualContext 4)
    have hRefused :
        ⟨.setRailVoltage "vddcore" 1350, .error .timeout⟩ ∈ attempts.flatMap (·.exchanges) := by
      rw [← hExchanges]
      exact (steady_transcript _ _).mem (q := .setRailVoltage "vddcore" 1350) (by decide +kernel)
    obtain ⟨x, hx, hMem⟩ := List.mem_flatMap.1 hRefused
    have hGenuine := hSession.path.genuine_of_mem hx
    have hStep : x.step = .operatingPoint :=
      Step.eq_operatingPoint_of_asks_setRailVoltage (hGenuine.asks_of_mem hMem rfl).2
    obtain ⟨hResult, hKept⟩ :=
      (startClocks_supplied_or_denied hGenuine).2.1 hStep _ hMem .pmicError rfl
    exact ⟨attempts, _, hSession, x, hx, hMem, hResult, hKept⟩

end BootStage
