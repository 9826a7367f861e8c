import BootStage.Proofs.Bringup.ClockTree
import BootStage.Proofs.Bringup.Console
import BootStage.Proofs.Bringup.Sessions

/-!
# Which UART becomes the console

A serial programmer talks to the ROM over one of the UARTs.  The clock tree stops that UART, and the
step of the console asks for it again, to leave it alone.  If the board tells the same base both
times (`AnswersBases`), then both are about the same UART (`programmerUart?`), so what is stopped is
never registered.  The console that is set is the one that was registered: no other step sets it
(`Bringup.ConsoleIsOwn`).
-/

namespace BootStage

/-- The board tells the same bases whenever it is asked. -/
def AnswersBases (bases : UInt16 → Option UInt32) (t : List Exchange) : Prop :=
  ∀ index reply, ⟨.uartBase index, reply⟩ ∈ t → reply = bases index

/-- The UART that a serial programmer talks on, if there is one. -/
def programmerUart? (bases : UInt16 → Option UInt32) (config : Config) (context : BootContext) :
    Option UInt32 :=
  if config.uartProgrammer ∧ context.isSerialUart then bases context.instanceIndex else none

/-- Between calls, neither the hand-off nor the console is changed. -/
def Stage.KeepsConsole (s s' : Stage) : Prop := s'.context = s.context ∧ s'.console = s.console

/-! ## The programmer's UART -/

section Programmer

open Bringup

variable {bases : UInt16 → Option UInt32} {config : Config} {stage : Stage} {t : List Exchange}
  {heard : Option UInt32} {a : Attempt} {node : UartNode}

theorem Bringup.Compares.eq_programmerUart? (h : Compares config stage t heard)
    (hBases : AnswersBases bases t) : heard = programmerUart? bases config stage.context := by
  cases h with
  | alone hAlone => exact (if_neg hAlone).symm
  | asked _ hSerial =>
    rw [programmerUart?, if_pos hSerial]
    exact hBases _ _ List.mem_cons_self

/-- Where a node is found that is not disabled, the base that is heard is that of the programmer. -/
theorem Attempt.SelectsConsole.heardBase?_eq (h : a.SelectsConsole)
    (hBases : AnswersBases bases a.exchanges) (hFound : ⟨.consoleNode, .ok node⟩ ∈ a.exchanges)
    (hEnabled : node.status ≠ .disabled) :
    heardBase? a.exchanges = programmerUart? bases a.before.config a.before.stage.context := by
  have hHears : ∀ looking rest, a.exchanges = looking ++ rest →
      (∀ e ∈ rest, e.request.seeksConsole = false) →
      (∃ t ⊆ looking, Compares a.before.config a.before.stage t (heardBase? looking)) →
      heardBase? a.exchanges = programmerUart? bases a.before.config a.before.stage.context := by
    rintro looking rest hExchanges hRest ⟨t, hSubset, hCompares⟩
    rw [hExchanges, heardBase?_append fun e he => heard?_eq_none_of_not_seeks (hRest e he)]
    refine hCompares.eq_programmerUart? fun index reply he => hBases index reply ?_
    rw [hExchanges]
    exact List.mem_append_left _ (hSubset he)
  cases h with
  | @unusable looking rest hUnusable hExchanges hRest _ _ =>
    have hUnsought : ∀ e ∈ rest, e.request.seeksConsole = false := fun e he => (hRest e he).1
    rw [hExchanges] at hFound
    exact hHears _ _ hExchanges hUnsought
      (hUnusable.compares (mem_of_seeks hUnsought hFound rfl) hEnabled)
  | usable hUsable hRegisters hExchanges hRest _ =>
    exact hHears _ _ hExchanges (hRegisters.not_seeks hRest) hUsable.compares

theorem Attempt.SelectsConsole.finds_iff (h : a.SelectsConsole)
    (hBases : AnswersBases bases a.exchanges) (node : UartNode) (clock : ClockId)
    (line : ResetLine) :
    FindsConsole a.exchanges (programmerUart? bases a.before.config a.before.stage.context) node
        clock line ↔
      FindsConsole a.exchanges (heardBase? a.exchanges) node clock line := by
  constructor
  · intro hFinds
    rw [h.heardBase?_eq hBases hFinds.found hFinds.enabled]
    exact hFinds
  · intro hFinds
    rw [← h.heardBase?_eq hBases hFinds.found hFinds.enabled]
    exact hFinds

end Programmer

/-! ## The console that is set -/

theorem Attempt.Genuine.console_kept {a : Attempt} (h : a.Genuine)
    (hOther : a.step = .console → a.executes = false) :
    a.after.stage.console = a.before.stage.console := by
  by_cases hStep : a.step = .console
  · rcases h.refused_or_acted with hRefused | ⟨_, _, _, _, _, hActed⟩
    · obtain ⟨log, hAfter⟩ := hRefused.after
      rw [hAfter]
      rfl
    · rw [hActed.executes] at hOther
      cases hOther hStep
  · exact h.stage_kept.2.2 hStep

/-- A console is there only once the step of the console has started. -/
def Bringup.ConsoleIsOwn (b : Bringup) : Prop :=
  b.stage.console.value? = none ∨ .console ∈ b.ledger.started

/-- An attempt sets the console that it registers. -/
theorem Attempt.Genuine.console_iff {a : Attempt} {k : Console} (h : a.Genuine)
    (hOwn : a.before.ConsoleIsOwn) :
    (a.after.stage.console.value? = some k ↔ a.before.stage.console.value? = some k ∨
      ⟨.registerConsole k.base k.clockRate k.baudRate, .ok ()⟩ ∈ a.exchanges) ∧
    a.after.ConsoleIsOwn := by
  by_cases hSelects : a.step = .console ∧ a.executes = true
  · obtain ⟨hStep, hExecutes⟩ := hSelects
    obtain ⟨hNew, hStarted, -⟩ := h.ledger.starts hExecutes
    rw [hStep] at hNew hStarted
    have hEmpty : a.before.stage.console.value? = none := hOwn.resolve_right hNew
    refine ⟨?_, .inr hStarted⟩
    rw [hEmpty, or_iff_right nofun]
    cases h.selectsConsole hStep hExecutes with
    | unusable hUnusable hExchanges hRest hKept _ =>
      rw [hKept, hEmpty, hExchanges]
      exact ⟨nofun, fun he => by cases not_touches hUnusable.seeks hRest _ he⟩
    | usable hUsable hRegisters hExchanges hRest _ =>
      rw [hRegisters.value?_eq_some_iff hEmpty, hExchanges]
      exact ⟨fun he => List.mem_append_right _ (List.mem_append_left _ he),
        fun he => mem_of_touches hUsable.seeks hRest he rfl⟩
  · have hKept := h.console_kept fun hStep => eq_false_of_ne_true fun hExecutes =>
      hSelects ⟨hStep, hExecutes⟩
    rw [Bringup.ConsoleIsOwn, hKept]
    refine ⟨(or_iff_left fun he => hSelects ?_).symm, hOwn.imp_right fun hStarted => ?_⟩
    · obtain ⟨hExecutes, hAsks⟩ := h.asks_of_mem he rfl
      exact ⟨Step.eq_console_of_asks_registerConsole hAsks, hExecutes⟩
    · exact h.ledger.started_subset hStarted

/-- A path sets the console that it registers, if there was none. -/
theorem Path.console_iff {b c : Bringup} {attempts : List Attempt} {k : Console}
    (h : Path Stage.KeepsConsole b attempts c) (hOwn : b.ConsoleIsOwn) :
    c.stage.console.value? = some k ↔ b.stage.console.value? = some k ∨
      ⟨.registerConsole k.base k.clockRate k.baudRate, .ok ()⟩ ∈
        attempts.flatMap (·.exchanges) := by
  induction h with
  | nil b => simp
  | @revised b c attempts stage hKeeps _ ih =>
    have hSame : stage.console = b.stage.console := hKeeps.2
    rw [ih (by rwa [Bringup.ConsoleIsOwn, hSame]), hSame]
  | @cons a attempts c ha _ ih =>
    obtain ⟨hIff, hOwnAfter⟩ := ha.console_iff hOwn
    rw [ih hOwnAfter, hIff, List.flatMap_cons, List.mem_append, or_assoc]

theorem Path.context {b c : Bringup} {attempts : List Attempt}
    (h : Path Stage.KeepsConsole b attempts c) : c.stage.context = b.stage.context :=
  h.preserves (I := fun d => d.stage.context = b.stage.context)
    (fun _ _ hKeeps hd => hKeeps.1.trans hd) (fun _ ha hBefore => ha.stage_kept.1.trans hBefore) rfl

/-- The UART that is stopped is the programmer's, and the one that is registered is not. -/
theorem Path.not_registers_stopped {b c : Bringup} {attempts : List Attempt}
    {bases : UInt16 → Option UInt32} (h : Path Stage.KeepsConsole b attempts c)
    (hBases : ∀ x ∈ attempts, AnswersBases bases x.exchanges) {base rate baud : UInt32}
    {reply : Except DriverFault Unit}
    (hStopped : ⟨.stopUart base, ()⟩ ∈ attempts.flatMap (·.exchanges)) :
    ⟨.registerConsole base rate baud, reply⟩ ∉ attempts.flatMap (·.exchanges) := by
  have hPlace : ∀ x ∈ attempts,
      programmerUart? bases x.before.config x.before.stage.context =
        programmerUart? bases b.config b.stage.context := by
    intro x hx
    obtain ⟨_, _, -, hEarlier, -, -⟩ := h.split_at_mem hx
    rw [hEarlier.config, hEarlier.context]
  intro hRegistered
  obtain ⟨x, hx, he⟩ := List.mem_flatMap.1 hStopped
  obtain ⟨y, hy, he'⟩ := List.mem_flatMap.1 hRegistered
  have hxGenuine := h.genuine_of_mem hx
  have hyGenuine := h.genuine_of_mem hy
  obtain ⟨hSerial, hBase⟩ := hxGenuine.programmer_of_stopUart he
  have hProgrammer : programmerUart? bases x.before.config x.before.stage.context = some base := by
    rw [programmerUart?, if_pos hSerial]
    exact (hBases x hx _ _ hBase).symm
  obtain ⟨hExecutes, hAsks⟩ := hyGenuine.asks_of_mem he' rfl
  have hStep := Step.eq_console_of_asks_registerConsole hAsks
  have hSelects := hyGenuine.selectsConsole hStep hExecutes
  obtain ⟨node, clock, line, hFinds, rfl, -⟩ := hSelects.finds_of_register he'
  rw [← hSelects.finds_iff (hBases y hy), hPlace y hy, ← hPlace x hx] at hFinds
  exact hFinds.free hProgrammer

/-- The choice of the console, on a board that always tells the same bases, however it answers
otherwise.  The UART that is stopped for a programmer is never registered.  When the step of the
console runs, the UART of the node is registered if and only if it can be used and its reset worked
(and after that, by the rate of its clock); if it cannot be used, then its clock is not enabled and
no UART is touched, and that is survived unless the device is found locked.  Where there was no
console, there is the one that was registered. -/
theorem console_chosen {b c : Bringup} {calls : List Call} {attempts : List Attempt}
    {bases : UInt16 → Option UInt32} (h : Course Stage.KeepsConsole b calls attempts c)
    (hBases : ∀ x ∈ attempts, AnswersBases bases x.exchanges) :
    (∀ base, ⟨.stopUart base, ()⟩ ∈ attempts.flatMap (·.exchanges) → ∀ rate baud reply,
      ⟨.registerConsole base rate baud, reply⟩ ∉ attempts.flatMap (·.exchanges)) ∧
    (∀ x ∈ attempts, x.step = .console → x.executes = true →
      let programmer := programmerUart? bases x.before.config x.before.stage.context
      ((∃ base rate baud reply, ⟨.registerConsole base rate baud, reply⟩ ∈ x.exchanges) ↔
        ∃ node clock line, FindsConsole x.exchanges programmer node clock line ∧
          (resetExchanges x.before.config clock line).Sublist x.exchanges) ∧
      (∀ base rate baud reply, ⟨.registerConsole base rate baud, reply⟩ ∈ x.exchanges →
        ∃ node clock line, FindsConsole x.exchanges programmer node clock line ∧
          base = node.base ∧ baud = x.before.config.consoleBaudRate ∧
          ⟨.clockRate clock, rate⟩ ∈ x.exchanges ∧
          List.Sublist (resetExchanges x.before.config clock line ++
            [⟨.registerConsole base rate baud, reply⟩]) x.exchanges) ∧
      ((∃ node clock line, FindsConsole x.exchanges programmer node clock line) ↔
        ∃ clock, ⟨.enableClock clock, ()⟩ ∈ x.exchanges) ∧
      ((¬ ∃ node clock line, FindsConsole x.exchanges programmer node clock line) →
        (∀ e ∈ x.exchanges, e.request.touchesUart = false) ∧
          (x.FindsLocked ∧ x.result = .error (.fatal ⟨.console, .authenticationRequired⟩) ∧
              x.after.report.degraded = x.before.report.degraded ∨
            ¬ x.FindsLocked ∧ x.result = .ok () ∧ x.after.report.degraded =
              (x.before.report.addDegraded .console .consoleUnavailable).degraded))) ∧
    (b.stage.console.value? = none → ∀ k, c.stage.console.value? = some k ↔
      ⟨.registerConsole k.base k.clockRate k.baudRate, .ok ()⟩ ∈
        attempts.flatMap (·.exchanges)) := by
  refine ⟨fun base hStopped rate baud reply => h.path.not_registers_stopped hBases hStopped,
    fun x hx hStep hExecutes => ?_, fun hEmpty k => ?_⟩
  · have hSelects := (h.path.genuine_of_mem hx).selectsConsole hStep hExecutes
    simp only [hSelects.finds_iff (hBases x hx)]
    refine ⟨⟨?_, ?_⟩, fun base rate baud reply he => hSelects.finds_of_register he,
      hSelects.finds_iff_enables, hSelects.of_not_finds⟩
    · rintro ⟨base, rate, baud, reply, he⟩
      obtain ⟨node, clock, line, hFinds, -, -, -, hOrder⟩ := hSelects.finds_of_register he
      exact ⟨node, clock, line, hFinds, (List.sublist_append_left _ _).trans hOrder⟩
    · rintro ⟨node, clock, line, hFinds, hReset⟩
      obtain ⟨rate, reply, he⟩ := hSelects.exists_register hFinds hReset
      exact ⟨node.base, rate, _, reply, he⟩
  · rw [h.path.console_iff (.inl hEmpty), hEmpty]
    exact or_iff_right nofun

/-- Replies of a board whose console is the UART at `base`; the ROM was talked to over the one at
0x40011000. -/
def serialReply (base : UInt32) : (q : Request) → q.Reply
  | .uartBase _ => some 0x40011000
  | .consoleNode => .ok ⟨base, some ⟨1⟩, some ⟨1⟩, .secure⟩
  | .clockRate _ => 64000000
  | q => usualReply 0 q

/-- Hand-off after a serial programmer was talked to. -/
def serialContext : BootContext := ⟨.serialUart, 2, .succeeded⟩

/-- While a serial programmer talks on another UART, the console comes up; if it is the same UART,
then it is stopped and no console comes up. -/
theorem console_beside_programmer :
    (∃ attempts b, Course Stage.KeepsConsole (.fresh .standard serialContext 4) [.bringUp] attempts
        b ∧
      ⟨.stopUart 0x40011000, ()⟩ ∈ attempts.flatMap (·.exchanges) ∧
      b.stage.console.value? = some ⟨0x40010000, 64000000, 115200⟩) ∧
    ∃ attempts b, Course Stage.KeepsConsole (.fresh .standard serialContext 4) [.bringUp] attempts
        b ∧
      ⟨.stopUart 0x40011000, ()⟩ ∈ attempts.flatMap (·.exchanges) ∧
      ∀ rate baud reply, ⟨.registerConsole 0x40011000 rate baud, reply⟩ ∉
        attempts.flatMap (·.exchanges) := by
  have hRun (base : UInt32) : ∃ attempts b,
      Course Stage.KeepsConsole (.fresh .standard serialContext 4) [.bringUp] attempts b ∧
      (∀ x ∈ attempts, AnswersBases (fun _ => some 0x40011000) x.exchanges) ∧
      attempts.flatMap (·.exchanges) = ((callAll [.bringUp]).run
        (.fresh .standard serialContext 4)).transcript (steadyBoard (serialReply base)) () := by
    obtain ⟨attempts, hCourse, hExchanges⟩ := exists_course Stage.KeepsConsole
      (steadyBoard (serialReply base)) () [.bringUp] (.fresh .standard serialContext 4)
    refine ⟨attempts, _, hCourse, fun x hx index reply he => ?_, hExchanges.symm⟩
    exact steady_transcript (serialReply base) _ _
      (hExchanges ▸ List.mem_flatMap.2 ⟨x, hx, he⟩)
  constructor
  · obtain ⟨attempts, b, hCourse, hBases, hExchanges⟩ := hRun 0x40010000
    refine ⟨attempts, b, hCourse, ?_, ?_⟩
    · rw [hExchanges]
      exact (steady_transcript _ _).mem (q := .stopUart 0x40011000) (by decide +kernel)
    · rw [(console_chosen hCourse hBases).2.2 rfl, hExchanges]
      exact (steady_transcript _ _).mem (q := .registerConsole 0x40010000 64000000 115200)
        (by decide +kernel)
  · obtain ⟨attempts, b, hCourse, hBases, hExchanges⟩ := hRun 0x40011000
    have hStopped : ⟨.stopUart 0x40011000, ()⟩ ∈ attempts.flatMap (·.exchanges) := by
      rw [hExchanges]
      exact (steady_transcript _ _).mem (q := .stopUart 0x40011000) (by decide +kernel)
    exact ⟨attempts, b, hCourse, hStopped, (console_chosen hCourse hBases).1 _ hStopped⟩

end BootStage
