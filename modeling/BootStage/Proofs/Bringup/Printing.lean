import BootStage.Proofs.Bringup.Sessions
import BootStage.Proofs.Log.Recording

/-!
# What is printed

A step ends with printing what is pending in the log, if there is a console.  A step that fails logs
the failure before that, at a level that passes every threshold, and what was logged last is pending
however much of the log is evicted or printed already; so the failure is the last line printed
(`Flushes.ends_with`).

    a call fails with a fatal error, there is a console → the last line names the failure
                                                                    (fatal_failure_is_told)
-/

namespace BootStage

namespace Bringup

/-- What is logged last is printed last, and then nothing is pending. -/
theorem Flushes.ends_with {b c : Bringup} {level : Log.Level} {pieces : List String}
    {t : List Exchange} (h : Flushes (b.note level pieces) t c)
    (hPasses : level.passes b.stage.log.threshold = true)
    (hConsole : c.stage.console.isFilled = true) :
    c.stage.log.pending = 0 ∧ ∃ earlier entry, t = earlier ++ [.print entry] ∧
      entry.level = level ∧ entry.message = .ofPieces pieces := by
  cases h with
  | printed _ =>
    obtain ⟨earlier, hUnflushed⟩ :=
      Log.Ring.unflushed_record hPasses Log.stageSource pieces
    refine ⟨rfl, earlier.map .print, ⟨level, b.stage.log.sequence, Log.stageSource, .ofPieces pieces⟩,
      ?_, rfl, rfl⟩
    show (Log.Ring.unflushed (b.stage.log.record level Log.stageSource pieces)).map _ = _
    rw [hUnflushed, List.map_append]
    rfl
  | kept hNone =>
    rw [hNone] at hConsole
    cases hConsole

end Bringup

/-! ## Failures -/

/-- What the log says of a failure. -/
def FatalError.notice (f : FatalError) : String :=
  if f.error = .stepOrderViolation then f.step.name ++ " started out of order" else f.message

theorem Step.utf8ByteSize_name_le (s : Step) : s.name.utf8ByteSize ≤ 20 := by
  cases s <;> decide

theorem Error.utf8ByteSize_message_le (e : Error) : e.message.utf8ByteSize ≤ 50 := by
  cases e <;> decide +kernel

/-- The name of a step and what is said of it always fit into a message. -/
theorem FatalError.text_refused (s : Step) :
    (Log.Message.ofPieces [s.name, " started out of order"]).text =
      FatalError.notice ⟨s, .stepOrderViolation⟩ := by
  have hName := s.utf8ByteSize_name_le
  have hJoin : String.join [s.name, " started out of order"] = s.name ++ " started out of order" := by
    rw [String.join_cons, String.join_cons, String.join_nil, String.append_empty]
  have hRest : " started out of order".utf8ByteSize = 21 := by decide
  rw [Log.Message.text_ofPieces, hJoin]
  · rfl
  · rw [hJoin, String.utf8ByteSize_append, hRest]
    show _ ≤ 128
    omega

theorem FatalError.text_failed {f : FatalError} (h : f.error ≠ .stepOrderViolation) :
    (Log.Message.ofPieces [f.step.name, ": ", f.error.message]).text = f.notice := by
  have hName := f.step.utf8ByteSize_name_le
  have hMessage := f.error.utf8ByteSize_message_le
  have hJoin : String.join [f.step.name, ": ", f.error.message] = f.message := by
    rw [String.join_cons, String.join_cons, String.join_cons, String.join_nil,
      String.append_empty, ← String.append_assoc]
    rfl
  have hColon : ": ".utf8ByteSize = 2 := by decide
  have hNotice : f.notice = f.message := if_neg h
  rw [Log.Message.text_ofPieces, hJoin, hNotice]
  rw [hJoin]
  unfold FatalError.message
  rw [String.utf8ByteSize_append, String.utf8ByteSize_append, hColon]
  show _ ≤ 128
  omega

/-- An action that is executed is not out of order. -/
theorem Step.Stops.ne_stepOrderViolation {s : Step} {e : Error} (h : s.Stops (.failed e)) :
    e ≠ .stepOrderViolation := by
  rintro rfl
  cases h

theorem Log.Level.error_passes (threshold : Level) : Level.error.passes threshold = true :=
  decide_eq_true (Nat.zero_le _)

/-- An attempt that fails with a console prints the failure last. -/
theorem Attempt.Genuine.tells {a : Attempt} (h : a.Genuine) {f : FatalError}
    (hResult : a.result = .error (.fatal f)) (hConsole : a.after.stage.console.isFilled = true) :
    a.after.stage.log.pending = 0 ∧ ∃ earlier entry, a.exchanges = earlier ++ [.print entry] ∧
      entry.level = .error ∧ entry.message.text = f.notice := by
  cases h.prints with
  | refused _ hRefused hFlushes =>
    rw [hRefused] at hResult
    cases hResult
    obtain ⟨hPending, earlier, entry, hLast, hLevel, hText⟩ :=
      hFlushes.ends_with (Log.Level.error_passes _) hConsole
    exact ⟨hPending, earlier, entry, hLast, hLevel, by rw [hText, FatalError.text_refused]⟩
  | @acted started acted printed x c hActed hEnds =>
    have hExchanges := hActed.exchanges
    have hStops := hActed.stays.stops
    rw [hResult] at hEnds
    generalize a.after = after, a.exchanges = exchanges at hEnds hExchanges hConsole ⊢
    cases hEnds with
    | fatal _ hFlushes =>
      obtain ⟨hPending, earlier, entry, hLast, hLevel, hText⟩ :=
        hFlushes.ends_with (Log.Level.error_passes _) hConsole
      refine ⟨hPending, acted ++ earlier, entry, ?_, hLevel, ?_⟩
      · rw [hExchanges, hLast, List.append_assoc]
      · rw [hText]
        exact FatalError.text_failed (f := ⟨_, _⟩) (hStops _ rfl).ne_stepOrderViolation

/-- Whenever a call fails with a fatal error and there is a console when it returns, the last thing
the call did was to print a line that names the step and the error, or says that the step started out
of order, and nothing is pending.  The call may start in any state: with any log, full or not and
printed or not, with any threshold, in any state of the ledger. -/
theorem fatal_failure_is_told {call : Call} {b c : Bringup} {t : List Exchange} {f : FatalError}
    (h : Runs (call.run.run.run b) t (.error (.fatal f), c))
    (hConsole : c.stage.console.isFilled = true) :
    c.stage.log.pending = 0 ∧ ∃ earlier entry, t = earlier ++ [⟨.emit entry, ()⟩] ∧
      entry.level = .error ∧ entry.message.text = f.notice := by
  obtain ⟨attempts, hAttempts, rfl⟩ := Call.runs_iff.1 h
  obtain ⟨a, earlier, _, -, rfl, -, ha, hResult, rfl⟩ := hAttempts.stops_at
  obtain ⟨hPending, before, entry, hLast, hLevel, hText⟩ := ha.tells hResult hConsole
  refine ⟨hPending, earlier.flatMap (·.exchanges) ++ before, entry, ?_, hLevel, hText⟩
  rw [List.flatMap_append, List.flatMap_singleton, hLast, List.append_assoc]
  rfl

/-- A log that is full of debug output, of which all but seven entries were printed, and that is kept
to errors now. -/
def crammedLog : Log.Ring :=
  { (Log.Ring.empty .debug).tell (List.replicate 70 ⟨.debug, Log.stageSource, ["still here"]⟩) with
    pending := 7
    threshold := .error }

/-- Replies of a talkative board whose watchdog does not start. -/
def unwatchedReply : (q : Request) → q.Reply
  | .startWatchdog => .error .timeout
  | q => talkativeReply "STM32MP157C-DK2" 0x21 0x1 q

/-- The watchdog fails when the console is up, and that is the last line printed. -/
theorem unwatched_failure_told : ∃ t earlier entry c,
    Runs (Call.bringUp.run.run.run ((Bringup.fresh .standard usualContext 1).withLog crammedLog)) t
      (.error (.fatal ⟨.watchdog, .watchdogInitFailed⟩), c) ∧
    t = earlier ++ [⟨.emit entry, ()⟩] ∧
    entry.message.text = "watchdog: [0x010A] watchdog init failed" := by
  obtain ⟨t, ⟨result, c⟩, h, rfl, hConsole⟩ := Program.exists_runs (steadyBoard unwatchedReply)
    (Call.bringUp.run.run.run ((Bringup.fresh .standard usualContext 1).withLog crammedLog)) ()
    (P := fun _ ended => ended.1 = .error (.fatal ⟨.watchdog, .watchdogInitFailed⟩) ∧
      ended.2.stage.console.isFilled = true)
    ⟨by decide +kernel, by decide +kernel⟩
  obtain ⟨-, earlier, entry, hLast, -, hText⟩ := fatal_failure_is_told h hConsole
  exact ⟨t, earlier, entry, c, h, hLast, hText.trans (by decide +kernel)⟩

end BootStage
