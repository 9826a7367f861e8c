import BootStage.Proofs.Bringup.Attempts

/-!
# Selecting the console

The step looks for a UART that can be used, resets it and registers it as console, and then it checks
whether a device without authentication is locked for production.  There are many ways out of it.
They are listed here once, by what is exchanged with the board:

    Unusable                  no node, disabled, a programmer's, without clock or reset line, no pins
    Usable, RegistersUart     reset line stuck, registration refused, console known, registered
    Checks                    found locked, or not

`Opens` puts the first two together, and `Attempt.SelectsConsole` says of a whole attempt which way
it went.  What is said of the attempt then only depends on its exchanges: whether they find a console
that can be used (`FindsConsole`) and whether they reset it (`resetExchanges`).
-/

namespace BootStage

/-- Requests by which a console that can be used is looked for. -/
def Request.seeksConsole : Request → Bool
  | .consoleNode | .uartBase _ | .applyConsolePins => true
  | _ => false

/-- Requests that touch a UART: its clock, its reset line and its registration. -/
def Request.touchesUart : Request → Bool
  | .enableClock _ | .assertReset _ _ | .releaseReset _ _ | .registerConsole _ _ _ => true
  | _ => false

theorem Request.touchesUart_eq_false_of_seeks {q : Request} (h : q.seeksConsole = true) :
    q.touchesUart = false := by
  cases q <;> first | rfl | cases h

/-- Requests that neither look for a console nor ask about the device. -/
def Request.standsAside : Request → Bool
  | .consoleNode | .uartBase _ | .applyConsolePins | .isClosedDevice => false
  | _ => true

theorem Request.of_standsAside {q : Request} (h : q.standsAside = true) :
    q.seeksConsole = false ∧ q ≠ .isClosedDevice := by
  cases q <;> cases h <;> exact ⟨rfl, nofun⟩

/-- The exchange neither looks for a console nor touches a UART. -/
def Exchange.SparesConsole (e : Exchange) : Prop :=
  e.request.seeksConsole = false ∧ e.request.touchesUart = false

namespace Bringup

/-! ## How the console is opened -/

section Listing

variable (config : Config) (stage : Stage)

/-- What is asked for the UART that a serial programmer talks on, and what is heard. -/
inductive Compares : List Exchange → Option UInt32 → Prop
  | alone : ¬ (config.uartProgrammer = true ∧ stage.context.isSerialUart = true) →
      Compares [] none
  | asked (reply : Option UInt32) :
      config.uartProgrammer = true ∧ stage.context.isSerialUart = true →
      Compares [⟨.uartBase stage.context.instanceIndex, reply⟩] reply

/-- No console that can be used is found. -/
inductive Unusable : List Exchange → Prop
  | unfound (fault : DriverFault) : Unusable [⟨.consoleNode, .error fault⟩]
  | disabled {node : UartNode} : node.status = .disabled →
      Unusable [⟨.consoleNode, .ok node⟩]
  | taken {node : UartNode} {t : List Exchange} : node.status ≠ .disabled →
      Compares config stage t (some node.base) → Unusable (⟨.consoleNode, .ok node⟩ :: t)
  | incomplete {node : UartNode} {t : List Exchange} {heard : Option UInt32} :
      node.status ≠ .disabled → Compares config stage t heard → heard ≠ some node.base →
      node.clock = none ∨ node.reset = none → Unusable (⟨.consoleNode, .ok node⟩ :: t)
  | unpinned {node : UartNode} {t : List Exchange} {heard : Option UInt32} (fault : DriverFault) :
      node.status ≠ .disabled → Compares config stage t heard → heard ≠ some node.base →
      Unusable (⟨.consoleNode, .ok node⟩ :: (t ++ [⟨.applyConsolePins, .error fault⟩]))

/-- A console that can be used is found, and its pins are set up. -/
inductive Usable (node : UartNode) (clock : ClockId) (line : ResetLine) : List Exchange → Prop
  | found {t : List Exchange} {heard : Option UInt32} : node.status ≠ .disabled →
      Compares config stage t heard → heard ≠ some node.base → node.clock = some clock →
      node.reset = some line →
      Usable node clock line (⟨.consoleNode, .ok node⟩ :: (t ++ [⟨.applyConsolePins, .ok ()⟩]))

/-- The UART's clock is enabled and its reset line moved; `true` if the line moved both ways. -/
inductive Resets (clock : ClockId) (line : ResetLine) : List Exchange → Bool → Prop
  | notHeld (fault : DriverFault) : Resets clock line
      [⟨.enableClock clock, ()⟩, ⟨.assertReset line config.resetTimeout, .error fault⟩] false
  | notReleased (fault : DriverFault) : Resets clock line
      [⟨.enableClock clock, ()⟩, ⟨.assertReset line config.resetTimeout, .ok ()⟩,
        ⟨.delayMicros resetHold, ()⟩, ⟨.releaseReset line config.resetTimeout, .error fault⟩]
      false
  | reset : Resets clock line
      [⟨.enableClock clock, ()⟩, ⟨.assertReset line config.resetTimeout, .ok ()⟩,
        ⟨.delayMicros resetHold, ()⟩, ⟨.releaseReset line config.resetTimeout, .ok ()⟩,
        ⟨.delayMicros 1000, ()⟩]
      true

/-- The UART is reset and registered as console: the exchanges, how that ends, and what becomes of
the console. -/
inductive RegistersUart (base : UInt32) (clock : ClockId) (line : ResetLine) :
    List Exchange → Except Stop Unit → OnceCell BootStage.Console → Prop
  | unreset {t : List Exchange} : Resets config clock line t false →
      RegistersUart base clock line t (.error (.failed .resetLineTimeout)) stage.console
  | refused {t : List Exchange} (rate : UInt32) (fault : DriverFault) :
      Resets config clock line t true →
      RegistersUart base clock line
        (t ++ [⟨.clockRate clock, rate⟩,
          ⟨.registerConsole base rate config.consoleBaudRate, .error fault⟩])
        (.error (.failed .consoleRegistrationFailed)) stage.console
  | known {t : List Exchange} (rate : UInt32) :
      Resets config clock line t true → stage.console.value? ≠ none →
      RegistersUart base clock line
        (t ++ [⟨.clockRate clock, rate⟩,
          ⟨.registerConsole base rate config.consoleBaudRate, .ok ()⟩])
        (.error (.failed .alreadyInitialized)) stage.console
  | registered {t : List Exchange} (rate : UInt32) :
      Resets config clock line t true → stage.console.value? = none →
      RegistersUart base clock line
        (t ++ [⟨.clockRate clock, rate⟩,
          ⟨.registerConsole base rate config.consoleBaudRate, .ok ()⟩])
        (.ok ()) ⟨some ⟨base, rate, config.consoleBaudRate⟩⟩

/-- The console is opened. -/
inductive Opens : List Exchange → Except Stop Unit → OnceCell BootStage.Console → Prop
  | unusable {t : List Exchange} : Unusable config stage t →
      Opens t (.error (.failed .consoleUnavailable)) stage.console
  | failed {node : UartNode} {clock : ClockId} {line : ResetLine} {t t' : List Exchange}
      {stop : Stop} {console : OnceCell BootStage.Console} :
      Usable config stage node clock line t →
      RegistersUart config stage node.base clock line t' (.error stop) console →
      Opens (t ++ t') (.error stop) console
  | opened {node : UartNode} {clock : ClockId} {line : ResetLine} {t t' : List Exchange}
      {console : OnceCell BootStage.Console} (model : Option String) :
      Usable config stage node clock line t →
      RegistersUart config stage node.base clock line t' (.ok ()) console →
      Opens (t ++ (t' ++ [⟨.boardModel, model⟩])) (.ok ()) console

/-- What is asked to learn if the device is locked for production, and if it is found to be. -/
inductive Checks : List Exchange → Bool → Prop
  | trusted : config.trustedBoardBoot = true → Checks [] false
  | asked (closed : Bool) : config.trustedBoardBoot = false →
      Checks [⟨.isClosedDevice, closed⟩] closed

end Listing

open BootStage.Action (ensures_require_bind ensures_require)

variable {b : Bringup}

theorem ensures_isProgrammerUart (base : UInt32) :
    Ensures (isProgrammerUart base) b fun t x c => c = b ∧ ∃ heard,
      Compares b.config b.stage t heard ∧ x = .ok (heard == some base) := by
  refine ensures_get_bind.2 ?_
  split
  · next hSerial =>
    refine ensures_lift_bind.2 fun t reply hRuns => ?_
    obtain rfl := runs_ask_iff.1 hRuns
    exact ensures_pure.2 ⟨rfl, reply, .asked reply hSerial, rfl⟩
  · next hAlone => exact ensures_pure.2 ⟨rfl, none, .alone hAlone, rfl⟩

theorem ensures_resetUart (clock : ClockId) (line : ResetLine) :
    Ensures (resetUart line) b fun t x c => c = b ∧ ∃ done,
      Resets b.config clock line (⟨.enableClock clock, ()⟩ :: t) done ∧
        x = if done then .ok () else .error (.failed .resetLineTimeout) := by
  refine ensures_get_bind.2 (ensures_require_bind.2 fun t₁ held h₁ => ?_)
  obtain rfl := runs_ask_iff.1 h₁
  cases held with
  | error fault => exact ⟨rfl, false, .notHeld fault, rfl⟩
  | ok _ =>
    refine ensures_lift_bind.2 fun t₂ _ h₂ => ensures_require_bind.2 fun t₃ released h₃ => ?_
    obtain rfl := runs_ask_iff.1 h₂
    obtain rfl := runs_ask_iff.1 h₃
    cases released with
    | error fault => exact ⟨rfl, false, .notReleased fault, rfl⟩
    | ok _ =>
      have hSettle : Board.delayMillis resetSettle = Board.delayMicros 1000 := by
        simp [Board.delayMillis, resetSettle]
      rw [hSettle]
      refine ensures_lift.2 fun t₄ _ h₄ => ?_
      obtain rfl := runs_ask_iff.1 h₄
      exact ⟨rfl, true, .reset, rfl⟩

/-- Nothing more is asked, and the console stays what it is. -/
theorem ensures_greeting (model : Option String) :
    Ensures (greeting model) b fun t x c =>
      t = [] ∧ x = .ok () ∧ c.stage.console = b.stage.console := by
  have hNoModel : ∀ c : Bringup, Ensures (greeting none) c fun t x d =>
      t = [] ∧ x = .ok () ∧ d.stage.console = c.stage.console := by
    refine fun c => ensures_get_bind.2 ?_
    split
    · cases c.stage.context.authentication with
      | notDone => exact ensures_pure.2 ⟨rfl, rfl, rfl⟩
      | failed => exact ensures_modify.2 ⟨rfl, rfl, rfl⟩
      | succeeded => exact ensures_modify.2 ⟨rfl, rfl, rfl⟩
    · exact ensures_pure.2 ⟨rfl, rfl, rfl⟩
  cases model with
  | none => exact hNoModel b
  | some model => exact ensures_modify_bind.2 (hNoModel _)

theorem ensures_greet :
    Ensures greet b fun t x c => ∃ model,
      t = [⟨.boardModel, model⟩] ∧ x = .ok () ∧ c.stage.console = b.stage.console := by
  rw [greet_eq]
  refine ensures_lift_bind.2 fun t model hRuns => ?_
  obtain rfl := runs_ask_iff.1 hRuns
  refine (ensures_greeting model).mono ?_
  rintro _ _ c ⟨rfl, rfl, hConsole⟩
  exact ⟨model, rfl, rfl, hConsole⟩

theorem ensures_registerUart (base : UInt32) (clock : ClockId) (line : ResetLine) :
    Ensures (registerUart base clock line) b fun t x c =>
      RegistersUart b.config b.stage base clock line t x c.stage.console := by
  refine ensures_lift_bind.2 fun t₁ _ h₁ => ?_
  obtain rfl := runs_ask_iff.1 h₁
  refine ensures_bind.2 ((ensures_resetUart clock line).mono ?_)
  rintro t₂ _ b ⟨rfl, done, hResets, rfl⟩
  cases done with
  | false => exact .unreset hResets
  | true =>
    refine ensures_lift_bind.2 fun t₃ rate h₃ => ensures_get_bind.2 ?_
    obtain rfl := runs_ask_iff.1 h₃
    refine ensures_require_bind.2 fun t₄ registered h₄ => ?_
    obtain rfl := runs_ask_iff.1 h₄
    cases registered with
    | error fault => exact .refused rate fault hResets
    | ok _ =>
      refine ensures_get_bind.2 ?_
      cases hValue : b.stage.console.value? with
      | none =>
        have hCell : b.stage.setConsole ⟨base, rate, b.config.consoleBaudRate⟩ =
            .ok { b.stage with console := ⟨some ⟨base, rate, b.config.consoleBaudRate⟩⟩ } := by
          simp [Stage.setConsole, OnceCell.fill, hValue]
        rw [hCell]
        exact ensures_bind.2 (ensures_pure.2 (ensures_set.2 (.registered rate hResets hValue)))
      | some console =>
        have hCell : b.stage.setConsole ⟨base, rate, b.config.consoleBaudRate⟩ =
            .error .alreadyInitialized := by
          simp [Stage.setConsole, OnceCell.fill, hValue]
        have hFilled : b.stage.console.value? ≠ none := by
          rw [hValue]
          exact Option.some_ne_none _
        rw [hCell]
        exact ensures_bind.2 (ensures_throw.2 (.known rate hResets hFilled))

theorem ensures_openConsole :
    Ensures openConsole b fun t x c => Opens b.config b.stage t x c.stage.console := by
  refine ensures_require_bind.2 fun t₁ found h₁ => ?_
  obtain rfl := runs_ask_iff.1 h₁
  cases found with
  | error fault => exact .unusable (.unfound fault)
  | ok node =>
    dsimp only
    split
    · next hDisabled =>
      exact ensures_bind.2 (ensures_throw.2 (.unusable (.disabled hDisabled)))
    · next hEnabled =>
      refine ensures_bind.2 ((ensures_isProgrammerUart node.base).mono ?_)
      rintro t₂ _ b ⟨rfl, heard, hCompares, rfl⟩
      dsimp only
      split
      · next hTaken =>
        obtain rfl := beq_iff_eq.1 hTaken
        have hTaken := Unusable.taken hEnabled hCompares
        exact ensures_bind.2 (ensures_throw.2 (.unusable (by simpa using hTaken)))
      · next hFree =>
        have hOther : heard ≠ some node.base := fun hSame => hFree (beq_iff_eq.2 hSame)
        split
        · next clock line hClock hLine =>
          refine ensures_require_bind.2 fun t₃ pins h₃ => ?_
          obtain rfl := runs_ask_iff.1 h₃
          cases pins with
          | error fault => exact .unusable (.unpinned fault hEnabled hCompares hOther)
          | ok _ =>
            have hUsable := Usable.found hEnabled hCompares hOther hClock hLine
            refine ensures_bind.2 ((ensures_registerUart node.base clock line).mono ?_)
            rintro t₄ x c hRegisters
            cases x with
            | error stop => simpa using Opens.failed hUsable hRegisters
            | ok _ =>
              refine ensures_greet.mono ?_
              rintro _ _ d ⟨model, rfl, rfl, hConsole⟩
              rw [hConsole]
              simpa using Opens.opened model hUsable hRegisters
        · next hMissing =>
          have hIncomplete : node.clock = none ∨ node.reset = none := by
            by_contra hBoth
            obtain ⟨hClock, hLine⟩ := not_or.1 hBoth
            obtain ⟨clock, hClock⟩ := Option.ne_none_iff_exists'.1 hClock
            obtain ⟨line, hLine⟩ := Option.ne_none_iff_exists'.1 hLine
            exact hMissing clock line hClock hLine
          refine ensures_throw.2 (.unusable ?_)
          simpa using Unusable.incomplete hEnabled hCompares hOther hIncomplete

theorem ensures_checks :
    Ensures requireAuthentication b fun t x c => c.stage.console = b.stage.console ∧ ∃ locked,
      Checks b.config t locked ∧
        x = if locked then .error (.failed .authenticationRequired) else .ok () := by
  refine ensures_get_bind.2 ?_
  split
  · next hUntrusted =>
    refine ensures_lift_bind.2 fun t closed hRuns => ?_
    obtain rfl := runs_ask_iff.1 hRuns
    have hChecks := Checks.asked closed (eq_false_of_ne_true hUntrusted)
    cases closed with
    | true => exact ensures_modify_bind.2 (ensures_throw.2 ⟨rfl, true, hChecks, rfl⟩)
    | false => exact ensures_pure.2 ⟨rfl, false, hChecks, rfl⟩
  · next hTrusted =>
    exact ensures_pure.2 ⟨rfl, false, .trusted (not_not.1 hTrusted), rfl⟩

theorem ensures_selectConsole_opens :
    Ensures selectConsole b fun t x c => ∃ opening ended check locked,
      Opens b.config b.stage opening ended c.stage.console ∧ Checks b.config check locked ∧
        t = opening ++ check ∧
          x = if locked then .error (.failed .authenticationRequired) else ended := by
  refine Action.ensures_outcome_bind.2 fun opening ended c hOpening => ?_
  have hOpens : Opens b.config b.stage opening ended c.stage.console :=
    ensures_openConsole opening ended c hOpening
  have hConfig : c.config = b.config :=
    (stays_openConsole b opening ended c hOpening).changes.config
  refine ensures_bind.2 (ensures_checks.mono ?_)
  rintro check _ d ⟨hConsole, locked, hChecks, rfl⟩
  rw [← hConsole] at hOpens
  rw [hConfig] at hChecks
  cases locked with
  | true => exact ⟨opening, ended, check, true, hOpens, hChecks, rfl, rfl⟩
  | false =>
    rw [← List.append_nil check] at hChecks
    cases ended with
    | ok _ => exact ensures_pure.2 ⟨opening, .ok (), _, false, hOpens, hChecks, rfl, rfl⟩
    | error stop =>
      exact ensures_throw.2 ⟨opening, .error stop, _, false, hOpens, hChecks, rfl, rfl⟩

end Bringup

/-! ## What a console can be used for -/

/-- What was heard of the UART that a serial programmer talks on. -/
def Exchange.heard? : Exchange → Option UInt32
  | ⟨.uartBase _, reply⟩ => reply
  | _ => none

/-- The base that was first heard of the UART that a serial programmer talks on. -/
def heardBase? (t : List Exchange) : Option UInt32 := t.findSome? Exchange.heard?

/-- The exchanges find a console that can be used: its node, with clock and reset line, is not
disabled and not the UART of a programmer, and its pins are set up. -/
structure FindsConsole (t : List Exchange) (programmer : Option UInt32) (node : UartNode)
    (clock : ClockId) (line : ResetLine) : Prop where
  found : ⟨.consoleNode, .ok node⟩ ∈ t
  enabled : node.status ≠ .disabled
  free : programmer ≠ some node.base
  clock : node.clock = some clock
  reset : node.reset = some line
  pins : ⟨.applyConsolePins, .ok ()⟩ ∈ t

section Finding

open Bringup

variable {config : Config} {stage : Stage} {t rest : List Exchange} {heard : Option UInt32}
  {node : UartNode} {clock : ClockId} {line : ResetLine}

theorem Bringup.Compares.heardBase?_eq (h : Compares config stage t heard) :
    heardBase? t = heard := by
  cases h with
  | alone _ => rfl
  | asked _ => cases heard <;> rfl

theorem Bringup.Compares.uartBase (h : Compares config stage t heard) {e : Exchange}
    (he : e ∈ t) : e = ⟨.uartBase stage.context.instanceIndex, heard⟩ := by
  cases h with
  | alone _ => cases he
  | asked _ => exact List.mem_singleton.1 he

/-- Only one node is found. -/
theorem Bringup.Compares.eq_of_found {node' : UartNode} {more : List Exchange}
    (h : Compares config stage t heard) (hMore : ∀ e ∈ more, e.request ≠ .consoleNode)
    (hFound : ⟨.consoleNode, .ok node⟩ ∈
      (⟨.consoleNode, .ok node'⟩ :: (t ++ more) : List Exchange)) : node = node' := by
  rcases List.mem_cons.1 hFound with hSame | hFound
  · cases hSame
    rfl
  · rcases List.mem_append.1 hFound with hFound | hFound
    · cases h.uartBase hFound
    · exact absurd rfl (hMore _ hFound)

theorem heard?_eq_none_of_not_seeks {e : Exchange} (h : e.request.seeksConsole = false) :
    e.heard? = none := by
  obtain ⟨q, reply⟩ := e
  cases q <;> first | rfl | cases h

theorem heardBase?_append (hRest : ∀ e ∈ rest, e.heard? = none) :
    heardBase? (t ++ rest) = heardBase? t := by
  have hUnheard : heardBase? rest = none := List.findSome?_eq_none_iff.2 hRest
  rw [heardBase?, List.findSome?_append, ← heardBase?, ← heardBase?, hUnheard, Option.or_none]

/-- What looks for a console is not among the rest. -/
theorem mem_of_seeks {e : Exchange} (hRest : ∀ e ∈ rest, e.request.seeksConsole = false)
    (he : e ∈ t ++ rest) (hSeeks : e.request.seeksConsole = true) : e ∈ t := by
  refine (List.mem_append.1 he).resolve_right fun hMem => ?_
  rw [hRest e hMem] at hSeeks
  cases hSeeks

theorem Bringup.Unusable.seeks (h : Unusable config stage t) :
    ∀ e ∈ t, e.request.seeksConsole = true := by
  intro e he
  cases h with
  | unfound fault => exact List.mem_singleton.1 he ▸ rfl
  | disabled _ => exact List.mem_singleton.1 he ▸ rfl
  | taken _ hCompares | incomplete _ hCompares _ _ =>
    rcases List.mem_cons.1 he with rfl | he
    · rfl
    · exact hCompares.uartBase he ▸ rfl
  | unpinned fault _ hCompares _ =>
    rcases List.mem_cons.1 he with rfl | he
    · rfl
    · rcases List.mem_append.1 he with he | he
      · exact hCompares.uartBase he ▸ rfl
      · exact List.mem_singleton.1 he ▸ rfl

theorem Bringup.RegistersUart.isFatal {base : UInt32} {x : Except Stop Unit}
    {console : OnceCell Console} {e : Error}
    (h : RegistersUart config stage base clock line t x console) (hError : x = .error (.failed e)) :
    e.isFatal = true := by
  cases h <;> cases hError <;> rfl

theorem Bringup.Checks.sparesConsole {locked : Bool} (h : Checks config t locked) :
    ∀ e ∈ t, e.SparesConsole := by
  intro e he
  cases h with
  | trusted _ => cases he
  | asked _ => exact List.mem_singleton.1 he ▸ ⟨rfl, rfl⟩

/-- The device is found locked if it is asked about and answers so. -/
theorem Bringup.Checks.eq_true_iff {locked : Bool} (h : Checks config t locked) :
    locked = true ↔ config.trustedBoardBoot = false ∧ ⟨.isClosedDevice, true⟩ ∈ t := by
  cases h with
  | trusted hTrusted => simp [hTrusted]
  | asked _ hUntrusted => simp [hUntrusted, eq_comm]

theorem Bringup.Usable.seeks (h : Usable config stage node clock line t) :
    ∀ e ∈ t, e.request.seeksConsole = true := by
  intro e he
  cases h with
  | found _ hCompares _ _ _ =>
    rcases List.mem_cons.1 he with rfl | he
    · rfl
    · rcases List.mem_append.1 he with he | he
      · exact hCompares.uartBase he ▸ rfl
      · exact List.mem_singleton.1 he ▸ rfl

/-- The node that is found is the one that is used. -/
theorem Bringup.Usable.eq_of_found {node' : UartNode} (h : Usable config stage node clock line t)
    (hFound : ⟨.consoleNode, .ok node'⟩ ∈ t) : node' = node := by
  cases h with
  | found _ hCompares _ _ _ => exact hCompares.eq_of_found (by simp) hFound

/-- While the UART is registered, no other is looked for, and the device is not asked about. -/
theorem Bringup.RegistersUart.requests {base : UInt32} {x : Except Stop Unit}
    {console : OnceCell Console} (h : RegistersUart config stage base clock line t x console) :
    ∀ e ∈ t, e.request.seeksConsole = false ∧ e.request ≠ .isClosedDevice := by
  have hAside : ∀ t : List Exchange, t.all (·.request.standsAside) = true →
      ∀ e ∈ t, e.request.seeksConsole = false ∧ e.request ≠ .isClosedDevice :=
    fun t hAll e he => Request.of_standsAside (List.all_eq_true.1 hAll e he)
  have hResets : ∀ t done, Resets config clock line t done →
      t.all (·.request.standsAside) = true := by
    intro t done h
    cases h <;> rfl
  refine hAside t ?_
  cases h with
  | unreset h => exact hResets _ _ h
  | refused rate fault h | known rate h _ | registered rate h _ =>
    rw [List.all_append, hResets _ _ h]
    rfl

theorem Bringup.RegistersUart.not_seeks {base : UInt32} {x : Except Stop Unit}
    {console : OnceCell Console} (h : RegistersUart config stage base clock line t x console)
    (hRest : ∀ e ∈ rest, e.SparesConsole) :
    ∀ e ∈ t ++ rest, e.request.seeksConsole = false :=
  List.forall_mem_append.2 ⟨fun e he => (h.requests e he).1, fun e he => (hRest e he).1⟩

/-- Whether the device is locked is not asked while the console is opened. -/
theorem Bringup.Opens.request_ne_isClosedDevice {x : Except Stop Unit} {console : OnceCell Console}
    (h : Opens config stage t x console) : ∀ e ∈ t, e.request ≠ .isClosedDevice := by
  have hSeeks : ∀ {t : List Exchange}, (∀ e ∈ t, e.request.seeksConsole = true) →
      ∀ e ∈ t, e.request ≠ .isClosedDevice := by
    intro t hSeeks e he hAsks
    have hFalse := hSeeks e he
    rw [hAsks] at hFalse
    cases hFalse
  cases h with
  | unusable h => exact hSeeks h.seeks
  | failed hUsable hRegisters =>
    exact List.forall_mem_append.2
      ⟨hSeeks hUsable.seeks, fun e he => (hRegisters.requests e he).2⟩
  | opened model hUsable hRegisters =>
    refine List.forall_mem_append.2 ⟨hSeeks hUsable.seeks, List.forall_mem_append.2
      ⟨fun e he => (hRegisters.requests e he).2, by simp⟩⟩

theorem Bringup.Usable.finds (h : Usable config stage node clock line t)
    (hRest : ∀ e ∈ rest, e.request.seeksConsole = false) :
    FindsConsole (t ++ rest) (heardBase? (t ++ rest)) node clock line := by
  have hUnheard : ∀ e ∈ rest, e.heard? = none := fun e he =>
    heard?_eq_none_of_not_seeks (hRest e he)
  cases h with
  | found hEnabled hCompares hOther hClock hLine =>
    refine ⟨by simp, hEnabled, ?_, hClock, hLine, by simp⟩
    rw [heardBase?_append hUnheard]
    show heardBase? (_ ++ [_]) ≠ _
    rw [heardBase?_append (by simp [Exchange.heard?]), hCompares.heardBase?_eq]
    exact hOther

/-- Where a node is found that is not disabled, the programmer's UART is asked for. -/
theorem Bringup.Unusable.compares (h : Unusable config stage t)
    (hFound : ⟨.consoleNode, .ok node⟩ ∈ t) (hEnabled : node.status ≠ .disabled) :
    ∃ t' ⊆ t, Compares config stage t' (heardBase? t) := by
  cases h with
  | unfound fault => simp at hFound
  | disabled hDisabled =>
    cases List.mem_singleton.1 hFound
    exact absurd hDisabled hEnabled
  | @taken node' t' _ hCompares | @incomplete node' t' heard _ hCompares _ _ =>
    refine ⟨t', List.subset_cons_self _ _, ?_⟩
    rwa [← hCompares.heardBase?_eq] at hCompares
  | @unpinned node' t' heard fault _ hCompares _ =>
    refine ⟨t', by simp, ?_⟩
    show Compares config stage t' (heardBase? (t' ++ [_]))
    rw [heardBase?_append (by simp [Exchange.heard?])]
    rwa [← hCompares.heardBase?_eq] at hCompares

theorem Bringup.Usable.compares (h : Usable config stage node clock line t) :
    ∃ t' ⊆ t, Compares config stage t' (heardBase? t) := by
  cases h with
  | @found t' heard _ hCompares _ _ _ =>
    refine ⟨t', by simp, ?_⟩
    show Compares config stage t' (heardBase? (t' ++ [_]))
    rw [heardBase?_append (by simp [Exchange.heard?])]
    rwa [← hCompares.heardBase?_eq] at hCompares

theorem Bringup.Unusable.not_finds (h : Unusable config stage t)
    (hRest : ∀ e ∈ rest, e.request.seeksConsole = false) :
    ¬ FindsConsole (t ++ rest) (heardBase? (t ++ rest)) node clock line := by
  intro hFinds
  have hFound := mem_of_seeks hRest hFinds.found rfl
  have hPins := mem_of_seeks hRest hFinds.pins rfl
  have hFree := hFinds.free
  rw [heardBase?_append fun e he => heard?_eq_none_of_not_seeks (hRest e he)] at hFree
  cases h with
  | unfound fault => simp at hFound
  | disabled hDisabled =>
    cases List.mem_singleton.1 hFound
    exact hFinds.enabled hDisabled
  | taken _ hCompares =>
    rw [← List.append_nil (_ :: _)] at hFound
    obtain rfl := hCompares.eq_of_found Action.not_mem_nil hFound
    exact hFree hCompares.heardBase?_eq
  | incomplete _ hCompares _ hIncomplete =>
    rw [← List.append_nil (_ :: _)] at hFound
    obtain rfl := hCompares.eq_of_found Action.not_mem_nil hFound
    rw [hFinds.clock, hFinds.reset] at hIncomplete
    simp at hIncomplete
  | unpinned fault _ hCompares _ =>
    rcases List.mem_cons.1 hPins with hPins | hPins
    · cases hPins
    · rcases List.mem_append.1 hPins with hPins | hPins
      · cases hCompares.uartBase hPins
      · simp at hPins

/-! ### Registration -/

variable {base : UInt32} {x : Except Stop Unit} {console : OnceCell Console}

/-- The exchanges of a UART reset that worked, in their order. -/
def resetExchanges (config : Config) (clock : ClockId) (line : ResetLine) : List Exchange :=
  [⟨.enableClock clock, ()⟩, ⟨.assertReset line config.resetTimeout, .ok ()⟩,
    ⟨.releaseReset line config.resetTimeout, .ok ()⟩]

theorem Bringup.Resets.sublist (h : Resets config clock line t true) :
    (resetExchanges config clock line).Sublist t := by
  cases h
  exact .cons_cons _ (.cons_cons _ (.cons _ (.cons_cons _ (.cons _ .slnil))))

theorem Bringup.Resets.not_released {line' : ResetLine} {timeout : UInt32}
    (h : Resets config clock line t false) : ⟨.releaseReset line' timeout, .ok ()⟩ ∉ t := by
  cases h <;> simp

theorem Bringup.Resets.enables {done : Bool} (h : Resets config clock line t done) :
    ⟨.enableClock clock, ()⟩ ∈ t := by
  cases h <;> exact List.mem_cons_self

theorem Bringup.Resets.not_registers {done : Bool} (h : Resets config clock line t done) :
    ∀ e ∈ t, ∀ base rate baud, e.request ≠ .registerConsole base rate baud := by
  cases h <;> simp

theorem Bringup.RegistersUart.enables (h : RegistersUart config stage base clock line t x console) :
    ⟨.enableClock clock, ()⟩ ∈ t := by
  cases h with
  | unreset h => exact h.enables
  | refused _ _ h | known _ h _ | registered _ h _ => exact List.mem_append_left _ h.enables

/-- A UART is registered after its reset, and by the rate of its clock. -/
theorem Bringup.RegistersUart.of_register {base' rate baud : UInt32}
    {reply : Except DriverFault Unit} (h : RegistersUart config stage base clock line t x console)
    (he : ⟨.registerConsole base' rate baud, reply⟩ ∈ t) :
    base' = base ∧ baud = config.consoleBaudRate ∧ ⟨.clockRate clock, rate⟩ ∈ t ∧
      List.Sublist
        (resetExchanges config clock line ++ [⟨.registerConsole base' rate baud, reply⟩]) t := by
  cases h with
  | unreset h => exact absurd rfl (h.not_registers _ he _ _ _)
  | refused _ _ h | known _ h _ | registered _ h _ =>
    rcases List.mem_append.1 he with he | he
    · exact absurd rfl (h.not_registers _ he _ _ _)
    · obtain ⟨⟨rfl, rfl, rfl⟩, rfl⟩ : (_ ∧ _ ∧ _) ∧ _ := by simpa using he
      exact ⟨rfl, rfl, by simp, h.sublist.append (.cons _ (.refl _))⟩

/-- Once its reset line was released, the UART is registered. -/
theorem Bringup.RegistersUart.exists_register {line' : ResetLine} {timeout : UInt32}
    (h : RegistersUart config stage base clock line t x console)
    (he : ⟨.releaseReset line' timeout, .ok ()⟩ ∈ t) :
    ∃ rate reply, ⟨.registerConsole base rate config.consoleBaudRate, reply⟩ ∈ t := by
  cases h with
  | unreset h => exact absurd he h.not_released
  | refused rate fault _ => exact ⟨rate, .error fault, by simp⟩
  | known rate _ _ | registered rate _ _ => exact ⟨rate, .ok (), by simp⟩

/-- Where there was no console, there is the one that was registered. -/
theorem Bringup.RegistersUart.value?_eq_some_iff {k : Console}
    (h : RegistersUart config stage base clock line t x console)
    (hEmpty : stage.console.value? = none) :
    console.value? = some k ↔ ⟨.registerConsole k.base k.clockRate k.baudRate, .ok ()⟩ ∈ t := by
  cases h with
  | unreset h =>
    rw [hEmpty]
    exact ⟨nofun, fun he => absurd rfl (h.not_registers _ he _ _ _)⟩
  | refused rate fault h =>
    rw [hEmpty]
    refine ⟨nofun, fun he => ?_⟩
    rcases List.mem_append.1 he with he | he
    · exact absurd rfl (h.not_registers _ he _ _ _)
    · simp at he
  | known rate _ hFilled => exact absurd hEmpty hFilled
  | registered rate h _ =>
    obtain ⟨base', rate', baud'⟩ := k
    constructor
    · intro hValue
      cases hValue
      simp
    · intro he
      rcases List.mem_append.1 he with he | he
      · exact absurd rfl (h.not_registers _ he _ _ _)
      · obtain ⟨rfl, rfl, rfl⟩ : _ ∧ _ ∧ _ := by simpa using he
        rfl

end Finding

/-! ## Attempts at the console -/

namespace Attempt

/-- The stage does not authenticate images, and the device is found locked for production. -/
def FindsLocked (a : Attempt) : Prop :=
  a.before.config.trustedBoardBoot = false ∧ ⟨.isClosedDevice, true⟩ ∈ a.exchanges

/-- How an attempt goes that executes the step of the console: no console that can be used is found,
and that is survived unless the device is found locked, or one is found and registered. -/
inductive SelectsConsole (a : Attempt) : Prop
  | unusable {t rest : List Exchange} : Bringup.Unusable a.before.config a.before.stage t →
      a.exchanges = t ++ rest → (∀ e ∈ rest, e.SparesConsole) →
      a.after.stage.console = a.before.stage.console →
      (a.FindsLocked ∧ a.result = .error (.fatal ⟨.console, .authenticationRequired⟩) ∧
          a.after.report.degraded = a.before.report.degraded ∨
        ¬ a.FindsLocked ∧ a.result = .ok () ∧ a.after.report.degraded =
          (a.before.report.addDegraded .console .consoleUnavailable).degraded) →
      SelectsConsole a
  | usable {node : UartNode} {clock : ClockId} {line : ResetLine} {t t' rest : List Exchange}
      {x : Except Stop Unit} :
      Bringup.Usable a.before.config a.before.stage node clock line t →
      Bringup.RegistersUart a.before.config a.before.stage node.base clock line t' x
        a.after.stage.console →
      a.exchanges = t ++ (t' ++ rest) → (∀ e ∈ rest, e.SparesConsole) →
      a.after.report.degraded = a.before.report.degraded → SelectsConsole a

variable {a : Attempt}

theorem sparesConsole_of_prints {t : List Exchange} (h : ∀ e ∈ t, e.request.isEmit = true) :
    ∀ e ∈ t, e.SparesConsole := by
  rintro ⟨q, reply⟩ he
  have hEmit := h _ he
  cases q <;> first | exact ⟨rfl, rfl⟩ | cases hEmit

theorem Genuine.selectsConsole (h : a.Genuine) (hStep : a.step = .console)
    (hExecutes : a.executes = true) : a.SelectsConsole := by
  obtain ⟨started, acted, printed, x, c, hActed⟩ := h.acted_of_executes hExecutes
  have hDegraded : c.report.degraded = a.before.report.degraded :=
    hActed.stays.changes.degraded_eq (by rw [hStep]; decide)
  obtain ⟨⟨opening, ended, check, locked, hOpens, hChecks, rfl, rfl⟩, hConcludes⟩ :=
    hActed.ensured hStep fun _ => Bringup.ensures_selectConsole_opens
  have hConsole : a.after.stage.console = c.stage.console := hConcludes.stage_kept.2.2
  have hExchanges : a.exchanges = opening ++ (check ++ printed) := by
    rw [hActed.exchanges, List.append_assoc]
  have hSpares : ∀ e ∈ check ++ printed, e.SparesConsole :=
    List.forall_mem_append.2 ⟨hChecks.sparesConsole, sparesConsole_of_prints hActed.prints⟩
  have hLocked : a.FindsLocked ↔ locked = true := by
    rw [FindsLocked, hExchanges, hChecks.eq_true_iff]
    refine and_congr_right fun _ => ?_
    rw [List.mem_append, or_iff_right fun hMem => hOpens.request_ne_isClosedDevice _ hMem rfl,
      List.mem_append, or_iff_left fun hMem => by cases hActed.prints _ hMem]
  rw [← hConsole] at hOpens
  generalize hNow : a.after.stage.console = console at hOpens
  cases hOpens with
  | unusable hUnusable =>
    refine .unusable hUnusable hExchanges hSpares hNow ?_
    cases locked with
    | true =>
      obtain ⟨hResult, log, hAfter⟩ := hConcludes.of_fatal rfl
      exact .inl ⟨hLocked.2 rfl, hResult, by rw [hAfter]; exact hDegraded⟩
    | false =>
      obtain ⟨hResult, log, hAfter⟩ := hConcludes.of_survived rfl
      refine .inr ⟨fun hFound => ?_, hResult, ?_⟩
      · cases hLocked.1 hFound
      · rw [hAfter]
        show (c.report.addDegraded _ _).degraded = _
        rw [Report.degraded_addDegraded, Report.degraded_addDegraded, hDegraded]
  | failed hUsable hRegisters =>
    refine .usable hUsable (hNow ▸ hRegisters) ?_ hSpares ?_
    · rw [hExchanges, List.append_assoc]
    · refine (hConcludes.degraded_kept fun e hError => ?_).trans hDegraded
      cases locked with
      | true =>
        cases hError
        rfl
      | false => exact hRegisters.isFatal hError
  | opened model hUsable hRegisters =>
    rw [List.append_assoc, List.append_assoc] at hExchanges
    refine .usable hUsable (hNow ▸ hRegisters) hExchanges ?_ ?_
    · exact List.forall_mem_cons.2 ⟨⟨rfl, rfl⟩, hSpares⟩
    · refine (hConcludes.degraded_kept fun e hError => ?_).trans hDegraded
      cases locked <;> cases hError
      rfl

/-! ### What an attempt at the console did -/

section Selected

variable {node : UartNode} {clock : ClockId} {line : ResetLine} {base rate baud : UInt32}
  {reply : Except DriverFault Unit}

/-- A UART is touched by nothing but its registration. -/
theorem mem_of_touches {t t' rest : List Exchange} {e : Exchange}
    (hSeeks : ∀ e ∈ t, e.request.seeksConsole = true) (hRest : ∀ e ∈ rest, e.SparesConsole)
    (he : e ∈ t ++ (t' ++ rest)) (hTouches : e.request.touchesUart = true) : e ∈ t' := by
  rcases List.mem_append.1 he with he | he
  · rw [Request.touchesUart_eq_false_of_seeks (hSeeks e he)] at hTouches
    cases hTouches
  · refine (List.mem_append.1 he).resolve_right fun he => ?_
    rw [(hRest e he).2] at hTouches
    cases hTouches

theorem not_touches {t rest : List Exchange} (hSeeks : ∀ e ∈ t, e.request.seeksConsole = true)
    (hRest : ∀ e ∈ rest, e.SparesConsole) : ∀ e ∈ t ++ rest, e.request.touchesUart = false := by
  intro e he
  refine eq_false_of_ne_true fun hTouches => ?_
  rw [← List.nil_append rest] at he
  exact absurd (mem_of_touches hSeeks hRest he hTouches) List.not_mem_nil

theorem SelectsConsole.finds_of_register (h : a.SelectsConsole)
    (he : ⟨.registerConsole base rate baud, reply⟩ ∈ a.exchanges) :
    ∃ node clock line, FindsConsole a.exchanges (heardBase? a.exchanges) node clock line ∧
      base = node.base ∧ baud = a.before.config.consoleBaudRate ∧
      ⟨.clockRate clock, rate⟩ ∈ a.exchanges ∧
      List.Sublist
        (resetExchanges a.before.config clock line ++ [⟨.registerConsole base rate baud, reply⟩])
        a.exchanges := by
  cases h with
  | unusable hUnusable hExchanges hRest _ _ =>
    rw [hExchanges] at he
    cases not_touches hUnusable.seeks hRest _ he
  | @usable node clock line t t' rest x hUsable hRegisters hExchanges hRest _ =>
    rw [hExchanges] at he ⊢
    have hUnsought := hRegisters.not_seeks hRest
    obtain ⟨rfl, rfl, hRate, hOrder⟩ :=
      hRegisters.of_register (mem_of_touches hUsable.seeks hRest he rfl)
    refine ⟨node, clock, line, hUsable.finds hUnsought, rfl, rfl, ?_, ?_⟩
    · exact List.mem_append_right _ (List.mem_append_left _ hRate)
    · exact (hOrder.trans (List.sublist_append_left _ rest)).trans (List.sublist_append_right t _)

theorem SelectsConsole.exists_register (h : a.SelectsConsole)
    (hFinds : FindsConsole a.exchanges (heardBase? a.exchanges) node clock line)
    (hReset : (resetExchanges a.before.config clock line).Sublist a.exchanges) :
    ∃ rate reply, ⟨.registerConsole node.base rate a.before.config.consoleBaudRate, reply⟩ ∈
      a.exchanges := by
  have hReleased : ⟨.releaseReset line a.before.config.resetTimeout, .ok ()⟩ ∈ a.exchanges :=
    hReset.subset (by simp [resetExchanges])
  cases h with
  | unusable hUnusable hExchanges hRest _ _ =>
    rw [hExchanges] at hReleased
    cases not_touches hUnusable.seeks hRest _ hReleased
  | @usable node' clock' line' t t' rest x hUsable hRegisters hExchanges hRest _ =>
    rw [hExchanges] at hReleased
    have hUnsought := hRegisters.not_seeks hRest
    have hFound := hFinds.found
    rw [hExchanges] at hFound
    obtain rfl := hUsable.eq_of_found (mem_of_seeks hUnsought hFound rfl)
    obtain ⟨rate, reply, hRegister⟩ :=
      hRegisters.exists_register (mem_of_touches hUsable.seeks hRest hReleased rfl)
    rw [hExchanges]
    exact ⟨rate, reply, List.mem_append_right _ (List.mem_append_left _ hRegister)⟩

theorem SelectsConsole.finds_iff_enables (h : a.SelectsConsole) :
    (∃ node clock line, FindsConsole a.exchanges (heardBase? a.exchanges) node clock line) ↔
      ∃ clock, ⟨.enableClock clock, ()⟩ ∈ a.exchanges := by
  cases h with
  | unusable hUnusable hExchanges hRest _ _ =>
    rw [hExchanges]
    constructor
    · rintro ⟨node, clock, line, hFinds⟩
      exact absurd hFinds (hUnusable.not_finds fun e he => (hRest e he).1)
    · rintro ⟨clock, he⟩
      cases not_touches hUnusable.seeks hRest _ he
  | @usable node clock line t t' rest x hUsable hRegisters hExchanges hRest _ =>
    rw [hExchanges]
    have hUnsought := hRegisters.not_seeks hRest
    exact iff_of_true ⟨node, clock, line, hUsable.finds hUnsought⟩
      ⟨clock, List.mem_append_right _ (List.mem_append_left _ hRegisters.enables)⟩

/-- Where a console that can be used is found, nothing is survived. -/
theorem SelectsConsole.degraded_of_finds (h : a.SelectsConsole)
    (hFinds : ∃ node clock line,
      FindsConsole a.exchanges (heardBase? a.exchanges) node clock line) :
    a.after.report.degraded = a.before.report.degraded := by
  cases h with
  | usable _ _ _ _ hKept => exact hKept
  | unusable hUnusable hExchanges hRest _ _ =>
    obtain ⟨node, clock, line, hFound⟩ := hFinds
    rw [hExchanges] at hFound
    exact absurd hFound (hUnusable.not_finds fun e he => (hRest e he).1)

/-- If no console that can be used is found, then no UART is touched, and that is survived unless
the device is found locked. -/
theorem SelectsConsole.of_not_finds (h : a.SelectsConsole)
    (hNot : ¬ ∃ node clock line,
      FindsConsole a.exchanges (heardBase? a.exchanges) node clock line) :
    (∀ e ∈ a.exchanges, e.request.touchesUart = false) ∧
      (a.FindsLocked ∧ a.result = .error (.fatal ⟨.console, .authenticationRequired⟩) ∧
          a.after.report.degraded = a.before.report.degraded ∨
        ¬ a.FindsLocked ∧ a.result = .ok () ∧ a.after.report.degraded =
          (a.before.report.addDegraded .console .consoleUnavailable).degraded) := by
  cases h with
  | unusable hUnusable hExchanges hRest _ hEnds =>
    rw [hExchanges]
    exact ⟨not_touches hUnusable.seeks hRest, hEnds⟩
  | usable hUsable hRegisters hExchanges hRest _ =>
    refine absurd ?_ hNot
    rw [hExchanges]
    exact ⟨_, _, _, hUsable.finds (hRegisters.not_seeks hRest)⟩

end Selected

end Attempt

end BootStage
