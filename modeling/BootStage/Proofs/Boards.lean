import Mathlib.Control.Monad.Basic
import BootStage.Board.Program
import BootStage.Registers

/-!
# Boards to run on

A board that works, and variants of it that differ in one place.  How a run on one of them ends is
compared by computation, with the decidable equality of `Except`.
-/

namespace BootStage

/-- Replies of a board that works and has neither a console nor a power management chip. -/
def usualReply (word : UInt32) : (q : Request) → q.Reply
  | .readRegister _ => 0xFFFFFFFF
  | .now => 0
  | .counterIndex => .ok 0
  | .counterWord => .ok word
  | .debugFeatures => .empty
  | .isClosedDevice | .pmicPresent | .wokeFromStandby | .isDramRestored => false
  | .pllPredefined => true
  | .dramSize => 0x20000000
  | .configuredOperatingPoint | .savedOperatingPoint => .ok ⟨650000, 1200⟩
  | .cpuSupply | .boardModel | .imagePlace _ | .uartBase _ => none
  | .consoleNode => .error .invalidParameter
  | .clockRate _ => 0
  | .railVoltage _ => .ok 1200
  | .pmicVersion => .ok 0
  | .savedTeeEntry => 0
  | .imageBytes _ _ => none
  | .writeRegister _ _ | .delayMicros _ | .enableClock _ | .emit _ | .stopUart _ | .refreshWatchdog
  | .eraseBackup | .flushCache _ _ => ()
  | .probeFuses | .programFuse _ _ | .mapStatic _ | .mapDynamic _ | .enableMmu | .openConfig
  | .applyConsolePins | .populateFirmwareConfig _ | .probeClocks | .startClocks _ | .startPmic
  | .configurePmic | .setRailVoltage _ _ | .assertReset _ _ | .releaseReset _ _
  | .registerConsole _ _ _ | .startWatchdog | .freezeSecondWatchdog | .restorePll
  | .saveBootInterface _ _ | .saveStageParameters | .partitionBuses | .sealBuses | .probeDram
  | .openImageSource _ => .ok ()

/-- A board that answers as usual and whose fuses burn as they are asked to. -/
def usualBoard : Board UInt32 where
  respond word q := (usualReply word q, match q with
    | .programFuse value _ => word ||| value
    | _ => word)

/-- A board that answers as usual except that its first programming burns one bit at most and then
times out.  It keeps its word, and whether it was programmed already. -/
def shakyFuseBoard : Board (UInt32 × Bool) where
  respond state q := match q with
    | .programFuse value _ =>
      if state.2 then (.ok (), state.1 ||| value, true)
      else (.error .timeout, state.1 ||| (value &&& 0b100), true)
    | q => (usualReply state.1 q, state)

/-- A board that answers as usual except that its watchdog does not start. -/
def deadWatchdogBoard : Board Unit where
  respond _ q := (match q with
    | .startWatchdog => .error .timeout
    | q => usualReply 0 q, ())

/-- A board that answers as usual except that it is locked for production and has a console. -/
def lockedBoard : Board Unit where
  respond _ q := (match q with
    | .isClosedDevice => true
    | .consoleNode => .ok ⟨0x40010000, some ⟨1⟩, some ⟨1⟩, .secure⟩
    | q => usualReply 0 q, ())

/-- A board that answers as usual except that its firmware configuration puts the non-secure firmware
over the code of the stage. -/
def overStageBoard : Board Unit where
  respond _ q := (match q with
    | .imagePlace .nonSecureFirmware => some ⟨0x2FFE0000, 0x1000⟩
    | q => usualReply 0 q, ())

/-- A board that woke from standby: DRAM holds the non-secure firmware, the hardware description
lies above the largest DRAM, the TEE was left in the always-on memory, and of its image nothing but
the signature is there. -/
def standbyBoard : Board Unit where
  respond _ q := (match q with
    | .isDramRestored => true
    | .imagePlace .tee => some ⟨0x2FFC0000, 0x19000⟩
    | .imagePlace .nonSecureFirmware => some ⟨0xC0100000, 0x400000⟩
    | .imagePlace .hardwareConfig => some ⟨0x100000000, 0x20000⟩
    | .imageBytes _ _ => some [0x4F, 0x50, 0x54, 0x45]
    | .savedTeeEntry => 0x54000010
    | q => usualReply 0 q, ())

/-- A board that answers as `answer` says. -/
def steadyBoard (answer : (q : Request) → q.Reply) : Board Unit where
  respond _ q := (answer q, ())

/-- Replies of a board with a console and a power management chip that tells what it is. -/
def talkativeReply (model : String) (version : UInt8) (status : UInt32) : (q : Request) → q.Reply
  | .boardModel => some model
  | .pmicVersion => .ok version
  | .readRegister address => if address = Registers.Rcc.resetStatus then status else 0xFFFFFFFF
  | .pmicPresent => true
  | .consoleNode => .ok ⟨0x40010000, some ⟨1⟩, some ⟨1⟩, .secure⟩
  | q => usualReply 0 q

/-- Hand-off after an authenticated load from an SD card. -/
def usualContext : BootContext := ⟨.sdCard, 0, .succeeded⟩

/-- Every reply of a transcript is one that the board gave. -/
theorem Program.reply_of_mem_transcript {σ α : Type} (board : Board σ) (p : Program α) (s : σ)
    {e : Exchange} (he : e ∈ p.transcript board s) :
    ∃ s', e.reply = (board.respond s' e.request).1 := by
  induction p generalizing s with
  | done a => cases he
  | call q next ih =>
    rcases List.mem_cons.1 he with rfl | he
    · exact ⟨s, rfl⟩
    · exact ih _ _ he

/-- Every request is answered as `answer` says, each time. -/
def Steady (answer : (q : Request) → q.Reply) (t : List Exchange) : Prop :=
  ∀ e ∈ t, e.reply = answer e.request

theorem steady_transcript {α : Type} (answer : (q : Request) → q.Reply) (p : Program α) :
    Steady answer (p.transcript (steadyBoard answer) ()) := by
  intro e he
  obtain ⟨_, hReply⟩ := Program.reply_of_mem_transcript (steadyBoard answer) p () he
  exact hReply

/-- What was asked was answered as `answer` says. -/
theorem Steady.mem {answer : (q : Request) → q.Reply} {t : List Exchange} (h : Steady answer t)
    {q : Request} (hAsked : ∃ e ∈ t, e.request = q) : ⟨q, answer q⟩ ∈ t := by
  obtain ⟨e, he, rfl⟩ := hAsked
  have hReply := h e he
  rwa [← hReply]

/-- What is computed of a program on a board is so in a run of the program. -/
theorem Program.exists_runs {σ α : Type} (board : Board σ) (p : Program α) (s : σ)
    {P : List Exchange → α → Prop} (h : P (p.transcript board s) (p.exec board s).1) :
    ∃ t v, Runs p t v ∧ P t v :=
  ⟨_, _, Program.runs_transcript board p s, h⟩

end BootStage
