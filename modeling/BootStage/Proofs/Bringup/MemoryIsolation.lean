import BootStage.Proofs.Bringup.Sessions
import BootStage.Proofs.MemoryMap

/-!
# What a session hands to the memory management unit

Two steps of the bring-up talk to the memory management unit.  Memory protection hands the regions
of the layout over and switches the unit on; the mapping of DRAM then adds one region more.  The map
of the one is what the other checks against, and each is executed at most once, so all that is ever
said to the unit is one `Conversation` with it (`Path.dialogue`).

    any session → the regions handed over are valid and pairwise apart, the unit is switched on at
      most once, after it has accepted the whole layout                  (session_isolates_memory)
-/

namespace BootStage

/-! ## Requests to the unit -/

/-- The request is one to the memory management unit. -/
def Request.isMmu : Request → Bool
  | .mapStatic _ | .mapDynamic _ | .enableMmu => true
  | _ => false

/-- The region that the request hands to the unit. -/
def Request.handed? : Request → Option Region
  | .mapStatic region | .mapDynamic region => some region
  | _ => none

/-- What is said to the unit, with its replies. -/
def mmuCalls (t : List Exchange) : List Exchange := t.filter (·.request.isMmu)

/-- The regions that are handed to the unit, one by one. -/
def handedRegions (t : List Exchange) : List Region := t.filterMap (·.request.handed?)

theorem Request.not_isMmu_of_isEmit {q : Request} (h : q.isEmit = true) : q.isMmu = false := by
  cases q <;> first | rfl | cases h

theorem Request.isEmit_of_isMmu {q : Request} (h : q.isMmu = true) : q.isEmit = false := by
  cases q <;> first | rfl | cases h

theorem Step.Asks.maps_memory {s : Step} {q : Request} (h : s.Asks q) (hMmu : q.isMmu = true) :
    s = .memoryProtection ∨ s = .dramMapping := by
  cases h <;> first | exact .inl rfl | exact .inr rfl | cases hMmu

theorem mmuCalls_append (t t' : List Exchange) : mmuCalls (t ++ t') = mmuCalls t ++ mmuCalls t' :=
  List.filter_append t t'

theorem mmuCalls_eq_nil {t : List Exchange} (h : ∀ e ∈ t, e.request.isEmit = true) :
    mmuCalls t = [] :=
  List.filter_eq_nil_iff.2 fun e he => by simp [Request.not_isMmu_of_isEmit (h e he)]

/-- Nothing but what is said to the unit hands it a region. -/
theorem handedRegions_mmuCalls (t : List Exchange) :
    handedRegions (mmuCalls t) = handedRegions t := by
  unfold handedRegions mmuCalls
  rw [List.filterMap_filter]
  congr 1
  funext e
  cases hMmu : e.request.isMmu with
  | true => rfl
  | false =>
    show none = e.request.handed?
    revert hMmu
    cases e.request <;> first | exact fun _ => rfl | exact nofun

theorem handedRegions_append (t t' : List Exchange) :
    handedRegions (t ++ t') = handedRegions t ++ handedRegions t' :=
  List.filterMap_append

theorem handedRegions_map_accepted (rs : List Region) :
    handedRegions (rs.map MemoryMap.accepted) = rs := by
  unfold handedRegions
  rw [List.filterMap_map]
  exact List.filterMap_some

/-! ## A conversation with the unit -/

/-- All that can be said to the unit: nothing; a hand-over of the layout; or a hand-over that
succeeded and then, whatever the unit replies, DRAM that is valid and apart from the layout. -/
inductive Conversation (layout : Layout) : List Exchange → Prop
  | silent : Conversation layout []
  | handed {t : List Exchange} {reply : Except DriverFault Unit} : layout.Mappable →
      MemoryMap.HandsOver (Bringup.staticRegions layout) t reply → Conversation layout t
  | extended {t : List Exchange} (size : UInt64) (reply : Except DriverFault Unit) :
      layout.Mappable → MemoryMap.HandsOver (Bringup.staticRegions layout) t (.ok ()) →
      (layout.dram size).isValid = true →
      (∀ s ∈ Bringup.staticRegions layout, s.Apart (layout.dram size)) →
      Conversation layout (t ++ [⟨.mapDynamic (layout.dram size), reply⟩])

namespace MemoryMap.HandsOver

variable {rs : List Region} {t : List Exchange} {result : Except DriverFault Unit}

theorem mmuCalls_eq (h : HandsOver rs t result) : mmuCalls t = t := by
  have hAccepted : ∀ rs : List Region, ∀ e ∈ rs.map accepted, e.request.isMmu = true := by
    intro rs e he
    obtain ⟨r, -, rfl⟩ := List.mem_map.1 he
    rfl
  refine List.filter_eq_self.2 fun e he => ?_
  cases h with
  | enabled reply =>
    rcases List.mem_append.1 he with he | he
    · exact hAccepted rs e he
    · rw [List.mem_singleton.1 he]
      rfl
  | @refused before after r fault hEq =>
    rcases List.mem_append.1 he with he | he
    · exact hAccepted before e he
    · rw [List.mem_singleton.1 he]
      rfl

/-- The regions are handed over from the first on, each once. -/
theorem handedRegions_prefix (h : HandsOver rs t result) : handedRegions t <+: rs := by
  cases h with
  | enabled reply =>
    rw [handedRegions_append, handedRegions_map_accepted]
    show rs ++ [] <+: rs
    exact ⟨[], by simp⟩
  | @refused before after r fault hEq =>
    rw [handedRegions_append, handedRegions_map_accepted, hEq]
    show before ++ [r] <+: before ++ ([r] ++ after)
    rw [← List.append_assoc]
    exact List.prefix_append _ _

/-- The unit is switched on when it has accepted every region, and nothing follows. -/
theorem switched_on (h : HandsOver rs t result) {before after : List Exchange}
    {reply : Except DriverFault Unit} (hSplit : t = before ++ ⟨.enableMmu, reply⟩ :: after) :
    before = rs.map accepted ∧ after = [] := by
  have hNever : ∀ rs : List Region, (⟨.enableMmu, reply⟩ : Exchange) ∉ rs.map accepted := by
    intro rs hMem
    obtain ⟨r, -, hEq⟩ := List.mem_map.1 hMem
    cases hEq
  cases h with
  | enabled _ =>
    rcases split_concat hSplit with ⟨hBefore, -, hAfter⟩ | ⟨_, -, hEarlier⟩
    · exact ⟨hBefore, hAfter⟩
    · refine absurd ?_ (hNever rs)
      rw [hEarlier]
      exact List.mem_append_right _ List.mem_cons_self
  | @refused accepted' _ _ _ _ =>
    rcases split_concat hSplit with ⟨-, hEq, -⟩ | ⟨_, -, hEarlier⟩
    · cases hEq
    · refine absurd ?_ (hNever accepted')
      rw [hEarlier]
      exact List.mem_append_right _ List.mem_cons_self

/-- No region is handed over while the unit runs. -/
theorem not_dynamic (h : HandsOver rs t result) {r : Region} {reply : Except DriverFault Unit} :
    (⟨.mapDynamic r, reply⟩ : Exchange) ∉ t := by
  intro hMem
  cases h <;> simp [accepted] at hMem

end MemoryMap.HandsOver

namespace Conversation

variable {layout : Layout} {t : List Exchange}

/-- What is handed over is valid, and no two regions of it share an address. -/
theorem apart (h : Conversation layout t) :
    (∀ r ∈ handedRegions t, r.isValid = true) ∧ (handedRegions t).Pairwise Region.Apart := by
  cases h with
  | silent => exact ⟨fun r hr => (nomatch hr), List.Pairwise.nil⟩
  | handed hMappable hOver =>
    have hPrefix := hOver.handedRegions_prefix
    exact ⟨fun r hr => hMappable.valid r (hPrefix.subset hr),
      hMappable.apart.sublist hPrefix.sublist⟩
  | @extended t size reply hMappable hOver hValid hApart =>
    have hPrefix := hOver.handedRegions_prefix
    have hHanded : handedRegions (t ++ [⟨.mapDynamic (layout.dram size), reply⟩]) =
        handedRegions t ++ [layout.dram size] := handedRegions_append _ _
    rw [hHanded]
    constructor
    · intro r hr
      rcases List.mem_append.1 hr with hr | hr
      · exact hMappable.valid r (hPrefix.subset hr)
      · rw [List.mem_singleton.1 hr]
        exact hValid
    · refine List.pairwise_append.2 ⟨hMappable.apart.sublist hPrefix.sublist,
        List.pairwise_singleton _ _, fun s hs r hr => ?_⟩
      rw [List.mem_singleton.1 hr]
      exact hApart s (hPrefix.subset hs)

/-- The unit is switched on when it has accepted the whole layout, and not again. -/
theorem switched_on (h : Conversation layout t) {before after : List Exchange}
    {reply : Except DriverFault Unit} (hSplit : t = before ++ ⟨.enableMmu, reply⟩ :: after) :
    before = (Bringup.staticRegions layout).map MemoryMap.accepted ∧
      ∀ e ∈ after, e.request ≠ .enableMmu := by
  cases h with
  | silent => cases before <;> cases hSplit
  | handed _ hOver =>
    obtain ⟨hBefore, rfl⟩ := hOver.switched_on hSplit
    exact ⟨hBefore, fun e he => (nomatch he)⟩
  | extended size _ _ hOver _ _ =>
    rcases split_concat hSplit with ⟨-, hEq, -⟩ | ⟨later, rfl, hEarlier⟩
    · cases hEq
    · obtain ⟨hBefore, rfl⟩ := hOver.switched_on hEarlier
      refine ⟨hBefore, fun e he => ?_⟩
      rw [List.mem_singleton.1 he]
      exact nofun

/-- What is added while the unit runs is DRAM of some size, valid and apart from the layout. -/
theorem dynamic (h : Conversation layout t) {r : Region} {reply : Except DriverFault Unit}
    (hMem : (⟨.mapDynamic r, reply⟩ : Exchange) ∈ t) :
    ∃ size, r = layout.dram size ∧ r.isValid = true ∧
      ∀ s ∈ Bringup.staticRegions layout, s.Apart r := by
  cases h with
  | silent => cases hMem
  | handed _ hOver => exact absurd hMem hOver.not_dynamic
  | extended size _ _ hOver hValid hApart =>
    rcases List.mem_append.1 hMem with hMem | hMem
    · exact absurd hMem hOver.not_dynamic
    · cases List.mem_singleton.1 hMem
      exact ⟨size, rfl, hValid, hApart⟩

end Conversation

/-! ## The two steps -/

/-- What has been said to the unit, and what ledger and memory map tell of it. -/
inductive Dialogue (layout : Layout) : Ledger → MemoryMap → List Exchange → Prop
  /-- Memory protection has not begun. -/
  | untouched {l : Ledger} : .memoryProtection ∉ l.started → .memoryProtection ∉ l.completed →
      Dialogue layout l .empty []
  /-- The layout is a defect of the build. -/
  | defective {l : Ledger} (m : MemoryMap) : .memoryProtection ∈ l.started →
      .memoryProtection ∉ l.completed → ¬ layout.Mappable → Dialogue layout l m []
  /-- The unit refused a region or could not be switched on. -/
  | refused {l : Ledger} {t : List Exchange} {fault : DriverFault} (m : MemoryMap) :
      .memoryProtection ∈ l.started → .memoryProtection ∉ l.completed → layout.Mappable →
      MemoryMap.HandsOver (Bringup.staticRegions layout) t (.error fault) → Dialogue layout l m t
  /-- The layout is in place. -/
  | installed {l : Ledger} {t : List Exchange} : .memoryProtection ∈ l.started → layout.Mappable →
      MemoryMap.HandsOver (Bringup.staticRegions layout) t (.ok ()) →
      Dialogue layout l ⟨Bringup.staticRegions layout⟩ t
  /-- DRAM was mapped, or was not for all time. -/
  | closed {l : Ledger} {t : List Exchange} (m : MemoryMap) : .memoryProtection ∈ l.started →
      .dramMapping ∈ l.started → layout.Mappable → Conversation layout t → Dialogue layout l m t

theorem Dialogue.conversation {layout : Layout} {l : Ledger} {m : MemoryMap} {t : List Exchange}
    (h : Dialogue layout l m t) : Conversation layout t := by
  cases h with
  | untouched _ _ => exact .silent
  | defective _ _ _ _ => exact .silent
  | refused _ _ _ hMappable hOver => exact .handed hMappable hOver
  | installed _ hMappable hOver => exact .handed hMappable hOver
  | closed _ _ _ _ hAll => exact hAll

/-- Nothing is said about a layout that is a defect. -/
theorem Dialogue.silent_of_not_mappable {layout : Layout} {l : Ledger} {m : MemoryMap}
    {t : List Exchange} (h : Dialogue layout l m t) (hNot : ¬ layout.Mappable) : t = [] := by
  cases h with
  | untouched _ _ => rfl
  | defective _ _ _ _ => rfl
  | refused _ _ _ hMappable _ => exact absurd hMappable hNot
  | installed _ hMappable _ => exact absurd hMappable hNot
  | closed _ _ _ hMappable _ => exact absurd hMappable hNot

/-- Before memory protection has begun, the map is empty and nothing has been said. -/
theorem Dialogue.of_new {layout : Layout} {l : Ledger} {m : MemoryMap} {t : List Exchange}
    (h : Dialogue layout l m t) (hNew : .memoryProtection ∉ l.started) :
    m = .empty ∧ t = [] ∧ .memoryProtection ∉ l.completed := by
  cases h with
  | untouched _ hIncomplete => exact ⟨rfl, rfl, hIncomplete⟩
  | defective _ hStarted _ _ => exact absurd hStarted hNew
  | refused _ hStarted _ _ _ => exact absurd hStarted hNew
  | installed hStarted _ _ => exact absurd hStarted hNew
  | closed _ hStarted _ _ _ => exact absurd hStarted hNew

namespace Attempt

variable {a : Attempt}

/-- The attempt executes a step that talks to the unit. -/
def MapsMemory (a : Attempt) : Prop :=
  a.executes = true ∧ (a.step = .memoryProtection ∨ a.step = .dramMapping)

/-- Any other attempt says nothing to the unit and leaves the memory map. -/
theorem Genuine.quiet (h : a.Genuine) (hOther : ¬ a.MapsMemory) :
    mmuCalls a.exchanges = [] ∧ a.after.memoryMap = a.before.memoryMap := by
  constructor
  · refine List.filter_eq_nil_iff.2 fun e he hMmu => ?_
    obtain ⟨hExecutes, hAsks⟩ := h.asks_of_mem he (Request.isEmit_of_isMmu hMmu)
    exact hOther ⟨hExecutes, hAsks.maps_memory hMmu⟩
  · by_cases hStep : a.step = .memoryProtection ∨ a.step = .dramMapping
    · rcases h.refused_or_acted with hRefused | ⟨_, _, _, _, _, hActed⟩
      · obtain ⟨log, hAfter⟩ := hRefused.after
        rw [hAfter]
        rfl
      · exact absurd ⟨hActed.executes, hStep⟩ hOther
    · obtain ⟨hProtect, hDram⟩ := not_or.1 hStep
      exact h.kept.2.2 hProtect hDram

/-- A step that has started is not executed again. -/
theorem Genuine.not_started (h : a.Genuine) (hExecutes : a.executes = true) :
    a.step ∉ a.before.ledger.started :=
  (h.ledger.starts hExecutes).1

/-- DRAM is mapped only after memory protection has completed. -/
theorem Genuine.protected_of_dramMapping (h : a.Genuine) (hExecutes : a.executes = true)
    (hStep : a.step = .dramMapping) : .memoryProtection ∈ a.before.ledger.completed := by
  have hPrerequisites := (h.ledger.starts hExecutes).2.2
  rw [hStep] at hPrerequisites
  exact hPrerequisites .memoryProtection (by decide)

variable {layout : Layout} {t : List Exchange}

/-- An attempt that says nothing to the unit leaves the dialogue where it is. -/
theorem Genuine.dialogue_of_quiet (h : a.Genuine) (hOther : ¬ a.MapsMemory)
    (hBefore : Dialogue layout a.before.ledger a.before.memoryMap t) :
    Dialogue layout a.after.ledger a.after.memoryMap (t ++ mmuCalls a.exchanges) := by
  obtain ⟨hSilent, hMap⟩ := h.quiet hOther
  rw [hSilent, List.append_nil, hMap]
  have hKept := h.ledger.started_subset
  have hNew : .memoryProtection ∈ a.after.ledger.started →
      .memoryProtection ∈ a.before.ledger.started := by
    intro hStarted
    rcases h.ledger.mem_started hStarted with hOld | ⟨hStep, hOk⟩
    · exact hOld
    · exact absurd ⟨hOk, .inl hStep.symm⟩ hOther
  have hIncomplete : .memoryProtection ∈ a.after.ledger.completed →
      .memoryProtection ∈ a.before.ledger.completed := by
    intro hCompleted
    rcases h.ledger.completed_by hCompleted with hOld | ⟨hStep, hOk⟩
    · exact hOld
    · have hAttempted := h.ledger
      rw [hOk] at hAttempted
      exact absurd ⟨hAttempted.isOk_start, .inl hStep.symm⟩ hOther
  generalize a.before.memoryMap = m at hBefore
  cases hBefore with
  | untouched hStarted hCompleted =>
    exact .untouched (fun hs => hStarted (hNew hs)) fun hs => hCompleted (hIncomplete hs)
  | defective _ hStarted hCompleted hNot =>
    exact .defective m (hKept hStarted) (fun hs => hCompleted (hIncomplete hs)) hNot
  | refused _ hStarted hCompleted hMappable hOver =>
    exact .refused m (hKept hStarted) (fun hs => hCompleted (hIncomplete hs)) hMappable hOver
  | installed hStarted hMappable hOver => exact .installed (hKept hStarted) hMappable hOver
  | closed _ hStarted hDram hMappable hAll =>
    exact .closed m (hKept hStarted) (hKept hDram) hMappable hAll

/-- How memory protection ends: on a layout that is a defect, it says nothing to the unit; on any
other it hands the layout over, and completes exactly if the unit agrees to everything. -/
theorem Genuine.protection (h : a.Genuine) (hExecutes : a.executes = true)
    (hStep : a.step = .memoryProtection) (hLayout : a.before.config.layout = layout)
    (hEmpty : a.before.memoryMap = .empty) :
    (layout.Mappable ∧ ∃ reply,
        MemoryMap.HandsOver (Bringup.staticRegions layout) (mmuCalls a.exchanges) reply ∧
          (reply = .ok () ∧ a.after.memoryMap = ⟨Bringup.staticRegions layout⟩ ∨
            a.result = .error (.fatal ⟨.memoryProtection, .mmuConfigFailed⟩) ∧
              ∃ fault, reply = .error fault)) ∨
      ¬ layout.Mappable ∧ mmuCalls a.exchanges = [] ∧
        ∃ r ∈ Bringup.staticRegions layout, ∃ cause,
          a.result = .error (.defect (.unmappable r cause)) := by
  obtain ⟨started, acted, printed, x, c, hActed⟩ := h.acted_of_executes hExecutes
  have hRuns := hActed.runs
  have hConcludes := hActed.concludes
  rw [hStep] at hRuns hConcludes
  rw [hActed.exchanges, mmuCalls_append, mmuCalls_eq_nil hActed.prints, List.append_nil]
  subst hLayout
  rcases Bringup.ensures_protectMemory (b := { a.before with ledger := started }) hEmpty
      acted x c hRuns with ⟨hMappable, hMap, reply, hOver, rfl⟩ | ⟨hNot, rfl, r, hr, cause, rfl⟩
  · refine .inl ⟨hMappable, reply, hOver.mmuCalls_eq.symm ▸ hOver, ?_⟩
    cases reply with
    | ok _ =>
      obtain ⟨-, log, hAfter⟩ := hConcludes.of_ok
      rw [hAfter]
      exact .inl ⟨rfl, hMap⟩
    | error fault => exact .inr ⟨(hConcludes.of_fatal rfl).1, fault, rfl⟩
  · exact .inr ⟨hNot, rfl, r, hr, cause, hConcludes.of_defect.1⟩

theorem Genuine.dialogue_of_protection (h : a.Genuine) (hExecutes : a.executes = true)
    (hStep : a.step = .memoryProtection) (hLayout : a.before.config.layout = layout)
    (hBefore : Dialogue layout a.before.ledger a.before.memoryMap t) :
    Dialogue layout a.after.ledger a.after.memoryMap (t ++ mmuCalls a.exchanges) := by
  have hNew := h.not_started hExecutes
  have hStarted := (h.ledger.starts hExecutes).2.1
  rw [hStep] at hNew hStarted
  obtain ⟨hEmpty, rfl, hOldIncomplete⟩ := hBefore.of_new hNew
  have hIncomplete : ∀ abort, a.result = .error abort →
      .memoryProtection ∉ a.after.ledger.completed := by
    intro abort hResult hCompleted
    rcases h.ledger.completed_by hCompleted with hOld | ⟨-, hOk⟩
    · exact hOldIncomplete hOld
    · rw [hOk] at hResult
      cases hResult
  rw [List.nil_append]
  rcases h.protection hExecutes hStep hLayout hEmpty with
    ⟨hMappable, reply, hOver, ⟨rfl, hMap⟩ | ⟨hResult, fault, rfl⟩⟩ |
      ⟨hNot, hSilent, r, -, cause, hResult⟩
  · rw [hMap]
    exact .installed hStarted hMappable hOver
  · exact .refused _ hStarted (hIncomplete _ hResult) hMappable hOver
  · rw [hSilent]
    exact .defective _ hStarted (hIncomplete _ hResult) hNot

theorem Genuine.dialogue_of_dram (h : a.Genuine) (hExecutes : a.executes = true)
    (hStep : a.step = .dramMapping) (hLayout : a.before.config.layout = layout)
    (hBefore : Dialogue layout a.before.ledger a.before.memoryMap t) :
    Dialogue layout a.after.ledger a.after.memoryMap (t ++ mmuCalls a.exchanges) := by
  have hNew := h.not_started hExecutes
  have hProtected := h.protected_of_dramMapping hExecutes hStep
  have hStarted := (h.ledger.starts hExecutes).2.1
  rw [hStep] at hNew hStarted
  obtain ⟨started, acted, printed, x, c, hActed⟩ := h.acted_of_executes hExecutes
  have hRuns := hActed.runs
  rw [hStep] at hRuns
  have hCalls : mmuCalls a.exchanges = mmuCalls acted := by
    rw [hActed.exchanges, mmuCalls_append, mmuCalls_eq_nil hActed.prints, List.append_nil]
  have hKept := h.ledger.started_subset
  have hAsked := Bringup.ensures_mapDram (b := { a.before with ledger := started }) acted x c hRuns
  rw [hCalls]
  subst hLayout
  generalize a.before.ledger = l, a.before.memoryMap = m at hBefore hNew hProtected hKept hAsked
  cases hBefore with
  | untouched _ hNot => exact absurd hProtected hNot
  | defective _ _ hNot _ => exact absurd hProtected hNot
  | refused _ _ hNot _ _ => exact absurd hProtected hNot
  | closed _ _ hDram _ _ => exact absurd hDram hNew
  | installed hFirst hMappable hOver =>
    obtain ⟨size, rfl | ⟨reply, rfl, hValid, hApart⟩⟩ := hAsked
    · have hNothing : t ++ mmuCalls [⟨.dramSize, size⟩] = t := List.append_nil t
      rw [hNothing]
      exact .closed _ (hKept hFirst) hStarted hMappable (.handed hMappable hOver)
    · refine .closed _ (hKept hFirst) hStarted hMappable ?_
      exact .extended size reply hMappable hOver hValid hApart

/-- One attempt carries the dialogue on. -/
theorem Genuine.dialogue (h : a.Genuine) (hLayout : a.before.config.layout = layout)
    (hBefore : Dialogue layout a.before.ledger a.before.memoryMap t) :
    Dialogue layout a.after.ledger a.after.memoryMap (t ++ mmuCalls a.exchanges) := by
  by_cases hMaps : a.MapsMemory
  · obtain ⟨hExecutes, hStep | hStep⟩ := hMaps
    · exact h.dialogue_of_protection hExecutes hStep hLayout hBefore
    · exact h.dialogue_of_dram hExecutes hStep hLayout hBefore
  · exact h.dialogue_of_quiet hMaps hBefore

end Attempt

/-! ## Sessions -/

/-- A path carries the dialogue on. -/
theorem Path.dialogue {allowed : Stage → Stage → Prop} {layout : Layout} {b c : Bringup}
    {attempts : List Attempt} {t : List Exchange} (h : Path allowed b attempts c)
    (hLayout : b.config.layout = layout)
    (hb : Dialogue layout b.ledger b.memoryMap t) :
    Dialogue layout c.ledger c.memoryMap (t ++ mmuCalls (attempts.flatMap (·.exchanges))) := by
  induction h generalizing t with
  | nil b =>
    show Dialogue layout b.ledger b.memoryMap (t ++ [])
    rw [List.append_nil]
    exact hb
  | revised stage _ _ ih => exact ih hLayout hb
  | @cons a attempts c ha _ ih =>
    have hAfter : a.after.config.layout = layout := by
      rw [ha.config]
      exact hLayout
    rw [List.flatMap_cons, mmuCalls_append, ← List.append_assoc]
    exact ih hAfter (ha.dialogue hLayout hb)

/-- What a session says to the unit isolates the regions that are mapped. -/
structure Isolates (layout : Layout) (t : List Exchange) : Prop where
  valid : ∀ r ∈ handedRegions t, r.isValid = true
  apart : (handedRegions t).Pairwise Region.Apart
  /-- The unit is switched on at most once, and after it has accepted the regions of the layout in
  order and nothing else. -/
  switched_on : ∀ before reply after, t = before ++ ⟨.enableMmu, reply⟩ :: after →
    mmuCalls before = (Bringup.staticRegions layout).map MemoryMap.accepted ∧
      ∀ e ∈ after, e.request ≠ .enableMmu
  /-- DRAM is handed over only if it is not empty, does not wrap and shares no address with a region
  of the layout. -/
  dram : ∀ r reply, (⟨.mapDynamic r, reply⟩ : Exchange) ∈ t → ∃ size : UInt64,
    r = layout.dram size ∧ 0 < size.toNat ∧ layout.dramBase.toNat + size.toNat < 2 ^ 64 ∧
      ∀ s ∈ Bringup.staticRegions layout, s.Apart r

theorem Conversation.isolates {layout : Layout} {t : List Exchange}
    (h : Conversation layout (mmuCalls t)) : Isolates layout t where
  valid := by
    rw [← handedRegions_mmuCalls]
    exact h.apart.1
  apart := by
    rw [← handedRegions_mmuCalls]
    exact h.apart.2
  switched_on := by
    rintro before reply after rfl
    have hSplit : mmuCalls (before ++ ⟨.enableMmu, reply⟩ :: after) =
        mmuCalls before ++ ⟨.enableMmu, reply⟩ :: mmuCalls after := mmuCalls_append _ _
    obtain ⟨hBefore, hAfter⟩ := h.switched_on hSplit
    refine ⟨hBefore, fun e he hEnable => hAfter e ?_ hEnable⟩
    refine List.mem_filter.2 ⟨he, ?_⟩
    rw [hEnable]
    rfl
  dram := by
    intro r reply hMem
    obtain ⟨size, rfl, hValid, hApart⟩ := h.dynamic (List.mem_filter.2 ⟨hMem, rfl⟩)
    obtain ⟨hSize, hEnd⟩ := Region.isValid_iff.1 hValid
    exact ⟨size, rfl, hSize, hEnd, hApart⟩

/-- For every layout, and whatever calls are made on a fresh bring-up and however the board answers:
what is handed to the unit is valid and pairwise apart, the unit is switched on at most once and
only with the whole layout accepted, and no DRAM is added that is not apart from it (`Isolates`).
If two regions of the layout share an address or one is invalid, the unit is never asked for
anything, and memory protection ends in a defect. -/
theorem session_isolates_memory {config : Config} {context : BootContext} {patience : Nat}
    {calls : List Call} {attempts : List Attempt} {b : Bringup}
    (h : Session (.fresh config context patience) calls attempts b) :
    Isolates config.layout (attempts.flatMap (·.exchanges)) ∧
    (¬ config.layout.Mappable → mmuCalls (attempts.flatMap (·.exchanges)) = [] ∧
      ∀ x ∈ attempts, x.step = .memoryProtection → x.executes = true →
        ∃ r ∈ Bringup.staticRegions config.layout, ∃ cause,
          x.result = .error (.defect (.unmappable r cause))) := by
  have hFresh : Dialogue config.layout (Bringup.fresh config context patience).ledger
      (Bringup.fresh config context patience).memoryMap [] :=
    .untouched (by exact nofun) (by exact nofun)
  have hAll := h.path.dialogue rfl hFresh
  rw [List.nil_append] at hAll
  refine ⟨hAll.conversation.isolates, fun hNot => ⟨hAll.silent_of_not_mappable hNot, ?_⟩⟩
  intro x hx hStep hExecutes
  obtain ⟨earlier, later, -, hEarlier, hGenuine, -⟩ := h.path.split_at_mem hx
  have hNew := hGenuine.not_started hExecutes
  rw [hStep] at hNew
  have hLayout : x.before.config.layout = config.layout := by
    rw [hEarlier.config]
    rfl
  have hEmpty := ((hEarlier.dialogue rfl hFresh).of_new hNew).1
  rcases hGenuine.protection hExecutes hStep hLayout hEmpty with ⟨hMappable, -⟩ | ⟨-, -, hDefect⟩
  · exact absurd hMappable hNot
  · exact hDefect

/-- A stage that was built with its device tree over its own code. -/
def Config.overlapping : Config :=
  { Config.standard with layout := { Layout.stm32mp15 with deviceTree := Layout.stm32mp15.stage } }

theorem Config.not_mappable_overlapping : ¬ Config.overlapping.layout.Mappable := by
  intro hMappable
  have hApart := (List.pairwise_cons.1 hMappable.apart).1 Layout.stm32mp15.stage (by decide)
  rw [← Region.not_overlaps_iff] at hApart
  exact absurd hApart (by decide)

/-- On a board that works, the regions of the layout and DRAM are handed over in turn; a layout that
overlaps ends in a defect instead. -/
theorem usualBoard_isolates_memory :
    (∃ attempts b, Session (.fresh .standard usualContext 4) [.bringUp] attempts b ∧
      handedRegions (attempts.flatMap (·.exchanges)) =
        Bringup.staticRegions .stm32mp15 ++ [Layout.stm32mp15.dram 0x20000000] ∧
      (handedRegions (attempts.flatMap (·.exchanges))).Pairwise Region.Apart) ∧
    ∃ attempts b, Session (.fresh .overlapping usualContext 4) [.bringUp] attempts b ∧
      mmuCalls (attempts.flatMap (·.exchanges)) = [] ∧
      ∃ x ∈ attempts, x.step = .memoryProtection ∧
        ∃ defect, x.result = .error (.defect defect) := by
  constructor
  · obtain ⟨attempts, hSession, hExchanges⟩ := exists_session usualBoard 0
      [.bringUp] (.fresh .standard usualContext 4)
    have hHanded : handedRegions (((callAll [.bringUp]).run
        (.fresh .standard usualContext 4)).transcript usualBoard 0) =
          Bringup.staticRegions .stm32mp15 ++ [Layout.stm32mp15.dram 0x20000000] := by
      decide +kernel
    rw [hExchanges] at hHanded
    exact ⟨attempts, _, hSession, hHanded, (session_isolates_memory hSession).1.apart⟩
  · obtain ⟨attempts, hSession, -⟩ := exists_session usualBoard 0
      [.bringUp] (.fresh .overlapping usualContext 4)
    have hStarted : .memoryProtection ∈ (((callAll [.bringUp]).run
        (.fresh .overlapping usualContext 4)).exec usualBoard 0).1.2.ledger.started := by
      decide +kernel
    -- Only the ledger of the state that is left may be computed.
    generalize (((callAll [.bringUp]).run
        (.fresh .overlapping usualContext 4)).exec usualBoard 0).1.2 = b at hSession hStarted
    obtain ⟨hSilent, hDefects⟩ :=
      (session_isolates_memory hSession).2 Config.not_mappable_overlapping
    rcases hSession.path.started_by hStarted with hOld | ⟨x, hx, hStep, hExecutes⟩
    · cases hOld
    · obtain ⟨r, -, cause, hResult⟩ := hDefects x hx hStep hExecutes
      exact ⟨attempts, b, hSession, hSilent, x, hx, hStep, _, hResult⟩

end BootStage
