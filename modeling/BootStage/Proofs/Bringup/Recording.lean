import Mathlib.Algebra.GroupWithZero.Nat
import BootStage.Proofs.Bringup.Lines
import BootStage.Proofs.Bringup.Printing

/-!
# A bring-up loses no line

The log has room for 64 entries, and early entries wait in it for the console.  The steps of one
bring-up and the attempts at them tell at most 40 lines, so nothing is evicted, and every attempt keeps
that the entries were either all printed, in order and after the console was registered, or are all
pending still (`Told.attempt`).

    a bring-up ends → its log is unbroken, and was printed as a whole or not at all
                                                                          (bringUp_loses_no_line)
-/

namespace BootStage

open Log (Line)

/-! ## What was printed -/

/-- The entries that were printed, in order. -/
def emitted (t : List Exchange) : List Log.Entry :=
  t.filterMap fun e => match e.request with
    | .emit entry => some entry
    | _ => none

theorem emitted_append (t t' : List Exchange) : emitted (t ++ t') = emitted t ++ emitted t' :=
  List.filterMap_append

theorem emitted_eq_nil {t : List Exchange} (h : ∀ e ∈ t, e.request.isEmit = false) :
    emitted t = [] := by
  refine List.filterMap_eq_nil_iff.2 fun e he => ?_
  obtain ⟨q, r⟩ := e
  have hSilent := h _ he
  cases q <;> first | rfl | cases hSilent

theorem emitted_map_print (entries : List Log.Entry) : emitted (entries.map .print) = entries := by
  unfold emitted
  rw [List.filterMap_map]
  exact List.filterMap_some

theorem Step.Asks.not_isEmit {s : Step} {q : Request} (h : s.Asks q) : q.isEmit = false := by
  cases h <;> rfl

theorem not_registersConsole_print (entries : List Log.Entry) :
    (entries.map Exchange.print).any (·.registersConsole) = false := by
  rw [List.any_map]
  exact List.any_eq_false.2 fun _ _ => by simp [Exchange.print, Exchange.registersConsole]

/-! ## What is told so far -/

/-- What was told and printed when a fresh bring-up has come to `b` with the exchanges `t`. -/
structure Told (threshold : Log.Level) (b : Bringup) (t : List Exchange) : Prop where
  unbroken : b.stage.log.Unbroken
  sameThreshold : b.stage.log.threshold = threshold
  /-- There is a console once the board has accepted one. -/
  console : b.stage.console.isFilled = t.any (·.registersConsole)
  /-- Without a console, everything is pending. -/
  kept : b.stage.console.isFilled = false →
    emitted t = [] ∧ b.stage.log.pending = b.stage.log.length
  /-- With a console, everything was printed after the board accepted it. -/
  printed : b.stage.console.isFilled = true → b.stage.log.pending = 0 ∧
    ∃ before e after, t = before ++ e :: after ∧ e.registersConsole = true ∧ emitted before = [] ∧
      emitted after = b.stage.log.entries
  /-- The banner is in the log if it has to be. -/
  banner : LockedButOpen t → Log.Level.notice.passes threshold = true →
    (DebugAccess.bannerLines.map (·.content)) <:+: b.stage.log.entries.map (·.content)

theorem told_fresh (config : Config) (context : BootContext) (patience : Nat) :
    Told config.logThreshold (.fresh config context patience) [] where
  unbroken := .empty _
  sameThreshold := rfl
  console := rfl
  kept _ := ⟨rfl, rfl⟩
  printed hConsole := nomatch hConsole
  banner hLocked _ := by
    obtain ⟨⟨_, hMem, -⟩, -⟩ := hLocked
    cases hMem

theorem LockedButOpen.cases_append {t t' : List Exchange} (h : LockedButOpen (t ++ t')) :
    LockedButOpen t ∨ LockedButOpen t' := by
  obtain ⟨⟨features, hMem, hOpen⟩, hClosed⟩ := h
  rcases List.mem_append.1 hMem with hMem | hMem
  · exact .inl ⟨⟨features, hMem, hOpen⟩, fun c hc => hClosed c (List.mem_append_left t' hc)⟩
  · exact .inr ⟨⟨features, hMem, hOpen⟩, fun c hc => hClosed c (List.mem_append_right t hc)⟩

/-- Lines that are told make the log longer, by what passes. -/
theorem Log.Ring.Recorded.infix {r r' : Log.Ring} {lines lines' : List Line}
    (h : r.Recorded lines r') (hLines : lines' <:+: lines)
    (hPass : ∀ line ∈ lines', line.level.passes r.threshold = true) :
    lines'.map (·.content) <:+: r'.entries.map (·.content) := by
  obtain ⟨new, hEntries, -, hContent⟩ := h.entries
  have hFilter := (hLines.filter fun line => line.level.passes r.threshold).map (·.content)
  rw [List.filter_eq_self.2 hPass, ← hContent] at hFilter
  rw [hEntries, List.map_append]
  exact hFilter.trans (List.suffix_append _ _).isInfix

theorem not_lockedButOpen_print (entries : List Log.Entry) :
    ¬ LockedButOpen (entries.map Exchange.print) := by
  rintro ⟨⟨features, hMem, -⟩, -⟩
  obtain ⟨entry, -, hEq⟩ := List.mem_map.1 hMem
  cases hEq

/-- An action has come from `b` to `m` and told what became the entries `new`. -/
structure Grows (b : Bringup) (acted : List Exchange) (new : List Log.Entry) (m : Bringup) : Prop where
  entries : m.stage.log.entries = b.stage.log.entries ++ new
  pending : m.stage.log.pending = b.stage.log.pending + new.length
  console : m.stage.console.isFilled =
    (b.stage.console.isFilled || acted.any (·.registersConsole))
  silent : ∀ e ∈ acted, e.request.isEmit = false

section Grows

variable {threshold : Log.Level} {b m : Bringup} {t acted : List Exchange} {new : List Log.Entry}

/-- Still without a console, all of it is pending. -/
theorem Told.kept_of_grows (h : Told threshold b t) (hGrows : Grows b acted new m)
    (hNone : m.stage.console.isFilled = false) :
    emitted (t ++ acted) = [] ∧ m.stage.log.pending = m.stage.log.length := by
  obtain ⟨hBefore, -⟩ := Bool.or_eq_false_iff.1 (hGrows.console.symm.trans hNone)
  obtain ⟨hEmitted, hAll⟩ := h.kept hBefore
  refine ⟨?_, ?_⟩
  · rw [emitted_append, hEmitted, emitted_eq_nil hGrows.silent]
    rfl
  · rw [hGrows.pending, hAll]
    unfold Log.Ring.length
    rw [hGrows.entries, List.length_append]

/-- With a console, all of it has been printed once the pending entries are. -/
theorem Told.printed_of_grows (h : Told threshold b t) (hGrows : Grows b acted new m)
    (hSome : m.stage.console.isFilled = true) : ∃ before e after,
    t ++ (acted ++ m.stage.log.unflushed.map .print) = before ++ e :: after ∧
      e.registersConsole = true ∧ emitted before = [] ∧ emitted after = m.stage.log.entries := by
  obtain ⟨hEntries, hPending, hConsole, hSilent⟩ := hGrows
  cases hBefore : b.stage.console.isFilled with
  | true =>
    -- There was a console: what is printed now is what is new.
    obtain ⟨hZero, before, e, after, rfl, hRegisters, hNothing, hAll⟩ := h.printed hBefore
    rw [hZero, Nat.zero_add] at hPending
    refine ⟨before, e, after ++ (acted ++ m.stage.log.unflushed.map .print), ?_, hRegisters,
      hNothing, ?_⟩
    · rw [List.append_assoc, List.cons_append]
    · rw [emitted_append, emitted_append, emitted_eq_nil hSilent, emitted_map_print, hAll,
        List.nil_append, Log.Ring.unflushed_of_append hEntries hPending, hEntries]
  | false =>
    -- The action has brought up the console: everything is printed now.
    obtain ⟨hEmitted, hAll⟩ := h.kept hBefore
    rw [hBefore, hSome, Bool.false_or] at hConsole
    obtain ⟨e, he, hRegisters⟩ := List.any_eq_true.1 hConsole.symm
    obtain ⟨first, second, rfl⟩ := List.append_of_mem he
    have hFirst : ∀ e ∈ first, e.request.isEmit = false := fun e he =>
      hSilent e (List.mem_append_left _ he)
    have hSecond : ∀ e ∈ second, e.request.isEmit = false := fun e he =>
      hSilent e (List.mem_append_right _ (List.mem_cons_of_mem _ he))
    have hAllPending : m.stage.log.pending = m.stage.log.entries.length := by
      rw [hPending, hAll, hEntries, List.length_append]
      rfl
    refine ⟨t ++ first, e, second ++ m.stage.log.unflushed.map .print, ?_, hRegisters, ?_, ?_⟩
    · simp only [List.append_assoc, List.cons_append]
    · rw [emitted_append, hEmitted, emitted_eq_nil hFirst]
      rfl
    · rw [emitted_append, emitted_eq_nil hSecond, emitted_map_print, List.nil_append]
      exact Log.Ring.unflushed_of_append (List.nil_append _).symm hAllPending

end Grows

/-- An action goes from `b` to `m` and tells `lines`, and then the log is printed. -/
theorem Told.flushed {threshold : Log.Level} {b m c : Bringup} {t acted printed : List Exchange}
    {lines : List Line} (h : Told threshold b t)
    (hRoom : b.stage.log.length + lines.length ≤ Log.ringCapacity)
    (hLog : m.stage.log = b.stage.log.tell lines)
    (hConsole : m.stage.console.isFilled =
      (b.stage.console.isFilled || acted.any (·.registersConsole)))
    (hSilent : ∀ e ∈ acted, e.request.isEmit = false)
    (hBanner : LockedButOpen acted → DebugAccess.bannerLines <:+: lines)
    (hFlushes : Bringup.Flushes m printed c) :
    Told threshold c (t ++ (acted ++ printed)) ∧
      c.stage.log.length ≤ b.stage.log.length + lines.length := by
  have hRecorded : b.stage.log.Recorded lines m.stage.log := by
    rw [hLog]
    exact h.unbroken.recorded hRoom
  have hThreshold := hRecorded.threshold.trans h.sameThreshold
  have hLength := hRecorded.length_le
  have hUnbroken := hRecorded.unbroken
  obtain ⟨new, hEntries, hPending, -⟩ := hRecorded.entries
  have hGrows : Grows b acted new m := ⟨hEntries, hPending, hConsole, hSilent⟩
  have hTold : LockedButOpen (t ++ acted) → Log.Level.notice.passes threshold = true →
      (DebugAccess.bannerLines.map (·.content)) <:+: m.stage.log.entries.map (·.content) := by
    intro hLocked hPasses
    rcases hLocked.cases_append with hBefore | hNow
    · rw [hEntries, List.map_append]
      exact (h.banner hBefore hPasses).trans (List.prefix_append _ _).isInfix
    · refine hRecorded.infix (hBanner hNow) fun line hLine => ?_
      obtain ⟨text, -, rfl⟩ := List.mem_map.1 hLine
      rw [h.sameThreshold]
      exact hPasses
  have hOpened : m.stage.console.isFilled = (t ++ acted).any (·.registersConsole) := by
    rw [List.any_append, ← h.console, hConsole]
  rw [← List.append_assoc]
  cases hFlushes with
  | kept hNone =>
    rw [List.append_nil]
    exact ⟨⟨hUnbroken, hThreshold, hOpened, fun _ => h.kept_of_grows hGrows hNone,
      fun hSome => absurd (hNone.symm.trans hSome) (by decide), hTold⟩, hLength⟩
  | printed hSome =>
    refine ⟨⟨⟨hUnbroken.numbered, hUnbroken.next⟩, hThreshold, ?_,
      fun hNone => absurd (hSome.symm.trans hNone) (by decide), fun _ => ⟨rfl, ?_⟩, ?_⟩, hLength⟩
    · rw [List.any_append, not_registersConsole_print, Bool.or_false]
      exact hOpened
    · rw [List.append_assoc]
      exact h.printed_of_grows hGrows hSome
    · intro hLocked
      rcases hLocked.cases_append with hLocked | hPrinted
      · exact hTold hLocked
      · exact absurd hPrinted (not_lockedButOpen_print _)

/-! ## Attempts -/

/-- An attempt at `s` goes from `b` to `c` by its action, may tell one line more, and prints. -/
theorem Told.ended {threshold : Log.Level} {s : Step} {b c m d : Bringup}
    {t acted printed : List Exchange} {extra : List Line} (h : Told threshold b t)
    (hFlushes : Bringup.Flushes m printed d)
    (hRoom : b.stage.log.length + (s.lines + 1) ≤ Log.ringCapacity) (hInforms : s.Informs b acted c)
    (hSilent : ∀ e ∈ acted, e.request.isEmit = false)
    (hLog : m.stage.log = c.stage.log.tell extra) (hExtra : extra.length ≤ 1)
    (hConsole : m.stage.console = c.stage.console) :
    Told threshold d (t ++ (acted ++ printed)) ∧
      d.stage.log.length ≤ b.stage.log.length + (s.lines + 1) := by
  obtain ⟨lines, hLines, hTold, hBanner⟩ := hInforms.lines
  have hAll : (lines ++ extra).length ≤ s.lines + 1 := by
    rw [List.length_append]
    omega
  have hBoth : m.stage.log = b.stage.log.tell (lines ++ extra) := by
    rw [hLog, hTold, Log.Ring.tell_append]
  obtain ⟨hEnd, hLength⟩ := h.flushed (by omega) hBoth (hConsole ▸ hInforms.console) hSilent
    (fun hLocked => (hBanner hLocked).trans (List.prefix_append _ _).isInfix) hFlushes
  exact ⟨hEnd, by omega⟩

/-- Where nothing is pending or there is no console, nothing is printed. -/
theorem Bringup.flushes_nothing {c : Bringup}
    (h : c.stage.console.isFilled = true → c.stage.log.pending = 0) : Flushes c [] c := by
  cases hConsole : c.stage.console.isFilled with
  | false => exact .kept hConsole
  | true =>
    have hPending := h hConsole
    have hUnflushed : c.stage.log.unflushed = [] :=
      Log.Ring.unflushed_of_append (List.append_nil _).symm hPending
    have hMarked : c.stage.log.markFlushed = c.stage.log := by
      unfold Log.Ring.markFlushed
      rw [← hPending]
    have hFlushes := Flushes.printed hConsole
    rw [hUnflushed, hMarked] at hFlushes
    exact hFlushes

/-- An action that stops with a defect or hangs has told nothing. -/
theorem Told.pending_of_silent {threshold : Log.Level} {s : Step} {b c : Bringup}
    {t acted : List Exchange} (h : Told threshold b t) (hInforms : s.Informs b acted c)
    (hLines : s.lines = 0) (hPlain : ∀ e ∈ acted, e.request.Plain)
    (hConsole : c.stage.console.isFilled = true) : c.stage.log.pending = 0 := by
  obtain ⟨lines, hLength, hLog, -⟩ := hInforms.lines
  have hNone : lines = [] := by
    rw [hLines] at hLength
    exact List.length_eq_zero_iff.1 (Nat.le_zero.1 hLength)
  have hSame : Tells 0 b acted b := .of_same rfl rfl hPlain
  rw [hNone] at hLog
  rw [hLog]
  refine (h.printed ?_).1
  rw [hSame.console, ← hInforms.console]
  exact hConsole

/-- Only the memory protection and the power domain can end a step other than by an error; they tell
nothing. -/
theorem Step.Stops.silent {s : Step} {stop : Stop} (h : s.Stops stop)
    (hStuck : ∀ e, stop ≠ .failed e) : s.lines = 0 ∧ s ≠ .console := by
  cases h <;> first | exact ⟨rfl, by decide⟩ | exact absurd rfl (hStuck _)

/-- What was told stays told: every attempt keeps it. -/
theorem Told.attempt {threshold : Log.Level} {a : Attempt} {t : List Exchange} (ha : a.Genuine)
    (h : Told threshold a.before t)
    (hRoom : a.before.stage.log.length + (a.step.lines + 1) ≤ Log.ringCapacity) :
    Told threshold a.after (t ++ a.exchanges) ∧
      a.after.stage.log.length ≤ a.before.stage.log.length + (a.step.lines + 1) := by
  cases ha.prints with
  | refused _ _ hFlushes =>
    have hNothing : a.step.Informs a.before [] a.before :=
      ⟨⟨[], Nat.zero_le _, rfl, fun hLocked => absurd hLocked.1 (by simp)⟩, (Bool.or_false _).symm⟩
    exact h.ended hFlushes hRoom hNothing Action.not_mem_nil (log_note _ _ _) (Nat.le_refl 1) rfl
  | @acted started acted printed x c hActed hEnds =>
    have hInforms : a.step.Informs a.before acted c := by
      obtain ⟨hLines, hConsole⟩ := Step.informs hActed.runs
      exact ⟨hLines, hConsole⟩
    have hAsks := hActed.stays.asks
    have hStops := hActed.stays.stops
    have hSilent : ∀ e ∈ acted, e.request.isEmit = false := fun e he => (hAsks e he).not_isEmit
    rw [hActed.exchanges]
    generalize a.result = result, a.after = after at hEnds ⊢
    have hQuiet : c.stage.log = c.stage.log.tell [] := rfl
    cases hEnds with
    | completed hFlushes =>
      exact h.ended hFlushes hRoom hInforms hSilent hQuiet (Nat.zero_le 1) rfl
    | degraded _ hFlushes =>
      exact h.ended hFlushes hRoom hInforms hSilent (log_degrade _ _ _) (Nat.le_refl 1) rfl
    | fatal _ hFlushes =>
      exact h.ended hFlushes hRoom hInforms hSilent (log_note _ _ _) (Nat.le_refl 1) rfl
    | defect _ d =>
      obtain ⟨hLines, hOther⟩ := (hStops _ rfl).silent nofun
      have hPlain : ∀ e ∈ acted, e.request.Plain := fun e he => (hAsks e he).plain hOther
      exact h.ended (Bringup.flushes_nothing (h.pending_of_silent hInforms hLines hPlain)) hRoom
        hInforms hSilent hQuiet (Nat.zero_le 1) rfl
    | hung _ =>
      obtain ⟨hLines, hOther⟩ := (hStops _ rfl).silent nofun
      have hPlain : ∀ e ∈ acted, e.request.Plain := fun e he => (hAsks e he).plain hOther
      exact h.ended (Bringup.flushes_nothing (h.pending_of_silent hInforms hLines hPlain)) hRoom
        hInforms hSilent hQuiet (Nat.zero_le 1) rfl

/-- A phase tells what its steps tell, and a line for each of them. -/
theorem Told.attempts {threshold : Log.Level} {steps : List Step} {b c : Bringup}
    {attempts : List Attempt} {result : Except Abort Unit} {t : List Exchange}
    (hAttempts : Attempts steps b attempts result c) (h : Told threshold b t)
    (hRoom : b.stage.log.length + (steps.map (·.lines + 1)).sum ≤ Log.ringCapacity) :
    Told threshold c (t ++ attempts.flatMap (·.exchanges)) ∧
      c.stage.log.length ≤ b.stage.log.length + (steps.map (·.lines + 1)).sum := by
  induction hAttempts generalizing t with
  | done b =>
    rw [List.flatMap_nil, List.append_nil]
    exact ⟨h, Nat.le_refl _⟩
  | @stopped a steps abort ha _ =>
    rw [List.map_cons, List.sum_cons] at hRoom ⊢
    rw [List.flatMap_singleton]
    obtain ⟨hTold, hLength⟩ := h.attempt ha (by omega)
    exact ⟨hTold, by omega⟩
  | @next a steps attempts result c ha _ _ ih =>
    rw [List.map_cons, List.sum_cons] at hRoom ⊢
    obtain ⟨hTold, hLength⟩ := h.attempt ha (by omega)
    obtain ⟨hRest, hRestLength⟩ := ih hTold (by omega)
    rw [List.flatMap_cons, ← List.append_assoc]
    exact ⟨hRest, by omega⟩

/-! ## One bring-up -/

/-- The banner as it is printed. -/
theorem DebugAccess.content_bannerLines : bannerLines.map (fun line => line.content) =
    banner.map fun line => (Log.Level.notice, Log.Message.ofPieces [line]) := by
  unfold bannerLines
  rw [List.map_map]
  rfl

theorem DebugAccess.text_banner : ∀ line ∈ banner, (Log.Message.ofPieces [line]).text = line := by
  decide +kernel

/-- However a bring-up ends, its log is unbroken: no entry was evicted.  If there is a console then,
the entries were printed, each once and in order, after the board had accepted the console, and
nothing is pending; if there is none, nothing was printed and every entry is pending.  If debug access
was open to a locked device and the log admits notices, the twelve lines of the banner are among the
entries. -/
theorem bringUp_loses_no_line {config : Config} {context : BootContext} {patience : Nat}
    {t : List Exchange} {result : Except Abort Unit} {b : Bringup}
    (h : Runs (Bringup.bringUp.run.run (.fresh config context patience)) t (result, b)) :
    b.stage.log.Unbroken ∧ b.stage.log.length ≤ 40 ∧
    b.stage.console.isFilled = t.any (·.registersConsole) ∧
    (b.stage.console.isFilled = true → b.stage.log.pending = 0 ∧
      ∃ before e after, t = before ++ e :: after ∧ e.registersConsole = true ∧
        emitted before = [] ∧ emitted after = b.stage.log.entries) ∧
    (b.stage.console.isFilled = false → emitted t = [] ∧
      b.stage.log.unflushed = b.stage.log.entries ∧
      b.stage.log.pending = b.stage.log.length) ∧
    (LockedButOpen t → Log.Level.notice.passes config.logThreshold = true →
      (DebugAccess.banner.map fun line => (Log.Level.notice, line)) <:+:
        b.stage.log.entries.map fun e => (e.level, e.message.text)) := by
  have hCall : Runs (Call.bringUp.run.run.run (.fresh config context patience)) t (result, b) := h
  obtain ⟨attempts, hAttempts, rfl⟩ := Call.runs_iff.1 hCall
  have hSum : (Call.bringUp.steps.map (·.lines + 1)).sum = 40 := by decide
  have hRoom : 0 + (Call.bringUp.steps.map (·.lines + 1)).sum ≤ Log.ringCapacity := by decide
  obtain ⟨hTold, hLength⟩ :=
    Told.attempts hAttempts (told_fresh config context patience) hRoom
  rw [List.nil_append] at hTold
  rw [hSum] at hLength
  refine ⟨hTold.unbroken, hLength, hTold.console, hTold.printed, fun hNone => ?_,
    fun hLocked hPasses => ?_⟩
  · obtain ⟨hEmitted, hPending⟩ := hTold.kept hNone
    exact ⟨hEmitted, Log.Ring.unflushed_of_append (List.nil_append _).symm hPending, hPending⟩
  · have hBanner := (hTold.banner hLocked hPasses).map fun content : Log.Level × Log.Message =>
      (content.1, content.2.text)
    rw [DebugAccess.content_bannerLines, List.map_map, List.map_map] at hBanner
    have hText : (DebugAccess.banner.map fun line => (Log.Level.notice, line)) =
        DebugAccess.banner.map fun line => (Log.Level.notice, (Log.Message.ofPieces [line]).text) :=
      List.map_congr_left fun line hLine => by rw [DebugAccess.text_banner line hLine]
    rw [hText]
    exact hBanner

/-- Replies of a talkative board that is locked for production but open to debuggers. -/
def exposedReply : (q : Request) → q.Reply
  | .isClosedDevice => true
  | .debugFeatures => .ofList [.hardware]
  | q => talkativeReply "STM32MP157C-DK2" 0x21 0x1 q

/-- The board prints all that was logged, and the banner is in it. -/
theorem exposed_banner_printed : ∃ t b,
    Runs (Bringup.bringUp.run.run (.fresh .standard usualContext 1)) t (.ok (), b) ∧
    (∃ before e after, t = before ++ e :: after ∧ e.registersConsole = true ∧
      emitted before = [] ∧ emitted after = b.stage.log.entries) ∧
    (DebugAccess.banner.map fun line => (Log.Level.notice, line)) <:+:
      b.stage.log.entries.map fun e => (e.level, e.message.text) := by
  obtain ⟨t, ⟨result, b⟩, h, rfl, hConsole, hAsked, hSteady⟩ := Program.exists_runs
    (steadyBoard exposedReply) (Bringup.bringUp.run.run (.fresh .standard usualContext 1)) ()
    (P := fun t ended => ended.1 = .ok () ∧ ended.2.stage.console.isFilled = true ∧
      (∃ e ∈ t, e.request = .debugFeatures) ∧ Steady exposedReply t)
    ⟨by decide +kernel, by decide +kernel, by decide +kernel, steady_transcript _ _⟩
  obtain ⟨-, -, -, hPrinted, -, hBanner⟩ := bringUp_loses_no_line h
  have hLocked : LockedButOpen t := by
    obtain ⟨⟨q, features⟩, hMem, rfl⟩ := hAsked
    have hReply : features = .ofList [.hardware] := hSteady _ hMem
    exact ⟨⟨features, hMem, by rw [hReply]; decide⟩, fun closed hClosed => hSteady _ hClosed⟩
  exact ⟨t, b, h, (hPrinted hConsole).2, hBanner hLocked (by decide)⟩

end BootStage
